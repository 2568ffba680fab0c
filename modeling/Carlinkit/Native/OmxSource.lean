/-
# The queue in front of the decoder

`OMXSource` is what the decoder of the head unit reads its input from: `queueBuffer` puts a
buffer into `pbuffers_`, `read` takes the oldest one or waits for it, and `stop` sets
`quitFlag_` and releases what is left.  Each of them holds `mutex_`, and the wait in
`nextBuffer` gives it up between two rounds of its loop, so a round is one step
(`nextBuffer`).

`queueBuffer` after `stop` neither keeps nor releases its buffer: it is `lost`.  `delivered`,
`released` and `lost` are a record of the run.  `queued_eq` says where the buffers are that
were queued, by way of `Machine.Handoff`.

The constants of the format (the type, the profile, the level, the colours) are left out.
-/

import Carlinkit.Framing.Words
import Carlinkit.Machine.Handoff

namespace Carlinkit
namespace Native

open Framing Machine

/-- A `MediaBuffer` as `OMXVideoCodec::queueBuffer` makes it: its bytes and `kKeyTime`. -/
structure MediaBuffer where
  data : List Byte
  time : ℤ
deriving DecidableEq

/-- The `MetaData` of the source. -/
structure Format where
  width : ℤ
  height : ℤ
  stride : ℤ
  sliceHeight : ℤ
  frameRate : ℤ
  maxInputSize : ℤ
  avcc : Option (List Byte)
deriving DecidableEq

/-- The format that `OMXSource(width, height, fps)` makes; the `int` product for the buffer size
wraps. -/
def Format.new (width height fps : ℤ) : Format :=
  ⟨width, height, width, height, fps, ((width * height * 3).bmod (2 ^ 32)).tdiv 2, none⟩

/-- `OMXSource`. -/
structure OMXSource where
  format : Format
  pbuffers : List MediaBuffer
  quitFlag : Bool
  delivered : List MediaBuffer
  released : List MediaBuffer
  lost : List MediaBuffer
deriving DecidableEq

/-- What a round of `nextBuffer` comes to: another round, `nullptr`, or a buffer. -/
inductive Next
  | waits
  | ended
  | got (buffer : MediaBuffer)
deriving DecidableEq

namespace OMXSource

/-- `new OMXSource(width, height, fps)`. -/
def new (width height fps : ℤ) : OMXSource := ⟨.new width height fps, [], false, [], [], []⟩

/-- `queueBuffer`. -/
def queueBuffer (x : OMXSource) (buffer : MediaBuffer) : OMXSource :=
  if x.quitFlag = false then { x with pbuffers := x.pbuffers ++ [buffer] }
  else { x with lost := x.lost ++ [buffer] }

/-- A round of the loop of `nextBuffer`, which `read` calls. -/
def nextBuffer (x : OMXSource) : Next × OMXSource :=
  if x.quitFlag = false then
    match x.pbuffers with
    | [] => (.waits, x)
    | buffer :: pbuffers =>
        (.got buffer, { x with pbuffers := pbuffers, delivered := x.delivered ++ [buffer] })
  else (.ended, x)

/-- `stop`. -/
def stop (x : OMXSource) : OMXSource :=
  if x.quitFlag = false then
    { x with quitFlag := true, pbuffers := [], released := x.released ++ x.pbuffers }
  else x

/-- `getFormat()->setData(kKeyAVCC, ..)`. -/
def setAvcc (x : OMXSource) (sps : List Byte) : OMXSource :=
  { x with format := { x.format with avcc := some sps } }

/-- What a thread does to the source while it holds `mutex_`. -/
inductive Call
  | queueBuffer (buffer : MediaBuffer)
  | nextBuffer
  | stop

/-- One call, or one round of a call. -/
def call (x : OMXSource) : Call → OMXSource
  | .queueBuffer buffer => x.queueBuffer buffer
  | .nextBuffer => x.nextBuffer.2
  | .stop => x.stop

/-- The source as a queue that can be closed. -/
def handoff (x : OMXSource) : Handoff MediaBuffer :=
  ⟨x.pbuffers, x.quitFlag, x.delivered, x.released, x.lost⟩

/-- A call as an operation on that queue. -/
def Call.op : Call → Handoff.Op MediaBuffer
  | .queueBuffer buffer => .put buffer
  | .nextBuffer => .take
  | .stop => .close

/-- The buffers that were queued, in order. -/
def queued (calls : List Call) : List MediaBuffer := Handoff.puts (calls.map Call.op)

variable {x : OMXSource}

/-! ### The source is a queue that can be closed -/

@[simp] theorem handoff_setAvcc (x : OMXSource) (sps : List Byte) :
    (x.setAvcc sps).handoff = x.handoff := rfl

@[simp] theorem format_call (x : OMXSource) (c : Call) : (x.call c).format = x.format := by
  cases c with
  | queueBuffer buffer =>
      simp only [call, queueBuffer]
      split_ifs <;> rfl
  | nextBuffer =>
      simp only [call, nextBuffer]
      split_ifs
      · cases x.pbuffers <;> rfl
      · rfl
  | stop =>
      simp only [call, stop]
      split_ifs <;> rfl

theorem handoff_call (hx : x.handoff.Sound) (c : Call) :
    (x.call c).handoff = x.handoff.step c.op := by
  have hpbuffers := hx.queue
  simp only [handoff] at hpbuffers
  cases c with
  | queueBuffer buffer =>
      cases hquit : x.quitFlag <;>
        simp [call, queueBuffer, handoff, Call.op, Handoff.step, Handoff.put, hquit]
  | nextBuffer =>
      cases hquit : x.quitFlag with
      | false =>
          cases hp : x.pbuffers <;>
            simp [call, nextBuffer, handoff, Call.op, Handoff.step, Handoff.take, hquit, hp]
      | true => simp [call, nextBuffer, handoff, Call.op, Handoff.step, Handoff.take, hquit]
  | stop =>
      cases hquit : x.quitFlag with
      | false => simp [call, stop, handoff, Call.op, Handoff.step, Handoff.close, hquit]
      | true =>
          simp [call, stop, handoff, Call.op, Handoff.step, Handoff.close, hquit,
            hpbuffers hquit]

theorem handoff_run (hx : x.handoff.Sound) (calls : List Call) :
    (run call x calls).handoff = run Handoff.step x.handoff (calls.map Call.op) := by
  induction calls generalizing x with
  | nil => rfl
  | cons c calls ih =>
      have hc := handoff_call hx c
      rw [run_cons, List.map_cons, run_cons, ← hc]
      exact ih (hc ▸ hx.step c.op)

theorem sound_new (width height fps : ℤ) : (new width height fps).handoff.Sound :=
  Handoff.sound_new

/-- **Every buffer that was queued is at one place, and in order**: the decoder got it, or
`stop` released it, or it waits, or it came after `stop`.  Whatever the threads do, before
`stop` none is released or lost, and after it none waits and the decoder gets no more. -/
theorem queued_eq (width height fps : ℤ) (calls more : List Call) :
    let x := run call (new width height fps) calls
    queued calls = x.delivered ++ (x.released ++ x.pbuffers) ++ x.lost ∧
      (x.quitFlag = false → x.released = [] ∧ x.lost = []) ∧
      (x.quitFlag = true → x.pbuffers = [] ∧
        (run call x more).delivered = x.delivered ∧
        (run call x more).lost = x.lost ++ queued more) := by
  intro x
  have hx : x.handoff = run Handoff.step .new (calls.map Call.op) :=
    handoff_run (sound_new width height fps) calls
  have hsound : x.handoff.Sound := hx ▸ Handoff.sound_run Handoff.sound_new _
  refine ⟨?_, fun hopen => ⟨hsound.discarded hopen, hsound.refused hopen⟩,
    fun hquit => ⟨hsound.queue hquit, ?_⟩⟩
  · rw [queued, Handoff.puts_eq, ← hx]
    rfl
  · have hmore := handoff_run hsound more
    rw [Handoff.run_closed hsound hquit] at hmore
    exact ⟨congrArg Handoff.taken hmore, congrArg Handoff.refused hmore⟩

end OMXSource
end Native
end Carlinkit
