/-
# What the read thread hands to the Listener

`CarlinkitDriver.ReadLoop.dispatch`.  A message with its payload array becomes
at most one call of the `Listener`.  The array is the loop's reused buffer, so
it can be longer than the message; a callback gets the array itself together
with the range that belongs to it (`VideoMessage`, `AudioMessage`), or a copy.
`Callback.observed` is what a callback can see through those ranges.

`dispatch_observed` is the result of the module: what a callback sees is the
same whether `dispatch` gets the whole buffer or only the message's own bytes,
and it depends on no earlier message.  `ownCallback` names it.
-/

import Carlinkit.Protocol.Header
import Carlinkit.Protocol.Video
import Carlinkit.Protocol.Audio

namespace Carlinkit
namespace Driver

open Framing Protocol

/-- A call of `CarlinkitDriver.Listener`, with the arguments the driver passes. -/
inductive Callback
  | onVideoFrame (msg : VideoMessage) (payload : List Byte) (isParameterSet : Bool)
  | onAudio (msg : AudioMessage) (payload : List Byte)
  | onPhoneConnected (phoneType : BitVec 32)
  | onPhoneDisconnected
  | onDongleCommand (command : BitVec 32)
  | onMessage (type : BitVec 32) (payload : Option (List Byte))
deriving DecidableEq, Repr

/-- What a callback sees: the fields of the message, and of the array the range
that they delimit. -/
def Callback.observed : Callback → Callback
  | .onVideoFrame msg payload isParameterSet =>
      .onVideoFrame msg ((payload.drop msg.dataOffset).take msg.dataLength) isParameterSet
  | .onAudio msg payload => .onAudio msg ((payload.drop msg.pcmOffset).take msg.pcmLength)
  | c => c

/-- The fields of `CarlinkitDriver` that `dispatch` reads and writes. -/
structure Reader where
  phoneConnected : Bool
  paramCache : ParameterSetCache
deriving DecidableEq, Repr

/-- A new driver. -/
def Reader.init : Reader := ⟨false, .empty⟩

/-- The `int` at the front of a payload of at least four bytes, as PLUGGED and
COMMAND read it. -/
def firstInt (payload : Option (List Byte)) (length : ℕ) : Option (BitVec 32) :=
  match payload with
  | none => none
  | some p => if 4 ≤ length then some (wordAt p 0) else none

/-- `ReadLoop.dispatch`, for a Listener that returns normally. -/
def dispatch (d : Reader) (header : MessageHeader) (payload : Option (List Byte)) :
    Reader × Option Callback :=
  if header.type = MessageType.videoData then
    match VideoMessage.parse payload header.length with
    | none => (d, none)
    | some vm =>
        ({ d with paramCache := (d.paramCache.offer vm (payload.getD [])).2 },
          some (.onVideoFrame vm (payload.getD []) (d.paramCache.offer vm (payload.getD [])).1))
  else if header.type = MessageType.audioData then
    match AudioMessage.parse payload header.length with
    | none => (d, none)
    | some am => (d, some (.onAudio am (payload.getD [])))
  else if header.type = MessageType.plugged then
    -- a PLUGGED message too short for a phone type reports -1
    ({ d with phoneConnected := true },
      some (.onPhoneConnected ((firstInt payload header.length).getD (-1))))
  else if header.type = MessageType.unplugged then
    ({ phoneConnected := false, paramCache := d.paramCache.clear }, some .onPhoneDisconnected)
  else if header.type = MessageType.command then
    (d, (firstInt payload header.length).map .onDongleCommand)
  else (d, some (.onMessage header.type (payload.map (·.take header.length))))

/-- Whether a frame counts as a parameter set does not depend on the cache. -/
theorem offer_fst (c c' : ParameterSetCache) (vm : VideoMessage) (p : List Byte) :
    (c.offer vm p).1 = (c'.offer vm p).1 := by
  simp only [ParameterSetCache.offer]
  split <;> rfl

theorem firstInt_take (buf : List Byte) (length : ℕ) :
    firstInt (some (buf.take length)) length = firstInt (some buf) length := by
  simp only [firstInt]
  split_ifs with h
  · rw [wordAt_take (show 0 + 4 ≤ length by omega)]
  · rfl

/-- Cutting an array after the range it is read in. -/
theorem range_take (buf : List Byte) {o n length : ℕ} (h : o + n ≤ length) :
    ((buf.take length).drop o).take n = (buf.drop o).take n := by
  rw [List.drop_take, List.take_take, Nat.min_eq_left (by omega)]

/-- **A callback sees the message's own bytes.**  Neither the rest of the array
nor anything the driver remembers of earlier messages shows through. -/
theorem dispatch_observed (d d' : Reader) (h : MessageHeader) (buf : List Byte) :
    (dispatch d h (some buf)).2.map Callback.observed =
      (dispatch d' h (some (buf.take h.length))).2.map Callback.observed := by
  unfold dispatch
  split_ifs with hv ha hp hu hc
  · rw [VideoMessage.parse_take]
    cases hvm : VideoMessage.parse (some buf) h.length with
    | none => rfl
    | some vm =>
        obtain ⟨-, hend⟩ := VideoMessage.parse_range hvm
        have hoffer : (d'.paramCache.offer vm (buf.take h.length)).1 =
            (d.paramCache.offer vm buf).1 := by
          rw [← hend, ParameterSetCache.offer_take]
          exact offer_fst _ _ _ _
        simp only [Option.getD_some, Option.map_some, Callback.observed,
          range_take buf (Nat.le_of_eq hend), hoffer]
  · rw [AudioMessage.parse_take]
    cases ham : AudioMessage.parse (some buf) h.length with
    | none => rfl
    | some am =>
        simp only [Option.getD_some, Option.map_some, Callback.observed,
          range_take buf (AudioMessage.parse_range ham)]
  · rw [firstInt_take]
  · rfl
  · rw [firstInt_take]
  · simp only [Option.map_some, List.take_take, Nat.min_self]

/-- With no payload nothing but the header is looked at. -/
theorem dispatch_none (d d' : Reader) (h : MessageHeader) :
    (dispatch d h none).2 = (dispatch d' h none).2 := by
  unfold dispatch
  split_ifs <;> rfl

/-- What the Listener observes of a message with header `h` and payload `p`, as a
function of these alone: the callback that an untouched driver makes of them. -/
def ownCallback (h : MessageHeader) (p : List Byte) : Option Callback :=
  (dispatch Reader.init h (if p = [] then none else some p)).2.map Callback.observed

theorem ownCallback_of_ne_nil (h : MessageHeader) {p : List Byte} (hp : p ≠ []) :
    ownCallback h p = (dispatch Reader.init h (some p)).2.map Callback.observed := by
  rw [ownCallback, if_neg hp]

end Driver
end Carlinkit
