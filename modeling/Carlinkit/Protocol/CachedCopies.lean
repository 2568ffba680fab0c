/-
# The arrays of the parameter set cache

`offer` gets the array that the driver reads every message into, and `parameterSets()` is
called by the thread that makes a decoder.  The cache copies on the way in and on the way
out, so its own array is private: whatever the driver and the callers write into the arrays
that they have, the cache holds the bytes of the frame as they were (`faithful_run`).

Here arrays have names, and every event but the two calls is the doing of somebody outside.
`offer_toCache` says that the cache with its arrays refines the one of `Protocol.Video`, which
keeps the bytes themselves.
-/

import Carlinkit.Machine.Arrays
import Carlinkit.Machine.Run
import Carlinkit.Protocol.StartCodes

namespace Carlinkit
namespace Protocol

open Framing Machine

/-- The cache's fields; `parameterSets` is the name of its array. -/
structure CacheFields where
  parameterSets : Option ℕ
  width : BitVec 32
  height : BitVec 32
deriving DecidableEq, Repr

/-- The cache and all arrays. -/
structure CacheState where
  heap : Heap Byte
  cache : CacheFields

namespace CacheState

/-- A new cache. -/
def new (heap : Heap Byte) : CacheState := ⟨heap, none, 0, 0⟩

/-- The fields with the bytes in place of the name of the array. -/
def toCache (s : CacheState) : ParameterSetCache :=
  ⟨s.cache.parameterSets.map s.heap.read, s.cache.width, s.cache.height⟩

/-- `offer(msg, payload)` with its answer; `none` is an exception. -/
def offer (s : CacheState) (msg : VideoMessage) (payload : ℕ) : Option Bool × CacheState :=
  let bytes := s.heap.read payload
  match walkRange (fun i => bytes[i]?) msg.dataOffset msg.dataLength with
  | none => (none, s)
  | some nal =>
      if nal ≠ nalSps then (some false, s)
      else if msg.dataOffset + msg.dataLength ≤ bytes.length then
        (some true, ⟨s.heap.keep ((bytes.drop msg.dataOffset).take msg.dataLength),
          some s.heap.next, msg.width, msg.height⟩)
      else
        -- the new array is in the field before `arraycopy` throws
        (none, ⟨s.heap.keep (List.replicate msg.dataLength 0),
          { s.cache with parameterSets := some s.heap.next }⟩)

/-- `offer(VideoMessage.parse(p, n), p)`. -/
def offerParsed (s : CacheState) (p n : ℕ) : Option Bool × CacheState :=
  match VideoMessage.parse (some (s.heap.read p)) n with
  | none => (none, s)
  | some msg => if (s.heap.read p).length < metadataSize then (none, s) else s.offer msg p

/-- `parameterSets()` with the array that it returns. -/
def parameterSets (s : CacheState) : Option ℕ × CacheState :=
  match s.cache.parameterSets with
  | none => (none, s)
  | some a => (some s.heap.next, { s with heap := s.heap.publish (s.heap.read a) })

/-- `clear()`. -/
def clear (s : CacheState) : CacheState :=
  { s with cache := { s.cache with parameterSets := none } }

/-- What can happen. -/
inductive Event
  /-- Somebody makes an array. -/
  | array (bytes : List Byte)
  /-- Somebody writes a byte of an array that is known outside. -/
  | write (a i : ℕ) (b : Byte)
  | offer (p n : ℕ)
  | parameterSets
  | clear
deriving DecidableEq, Repr

/-- One event.  An array that nobody outside has cannot be offered. -/
def step (s : CacheState) : Event → CacheState
  | .array bytes => { s with heap := s.heap.publish bytes }
  | .write a i b => { s with heap := s.heap.write a i b }
  | .offer p n => if p ∈ s.heap.known then (s.offerParsed p n).2 else s
  | .parameterSets => s.parameterSets.2
  | .clear => s.clear

end CacheState

/-- The last offer that returned true since the last `clear`: the bytes `p[20, n)` at that
moment, and the message. -/
abbrev LastOffer := Option (List Byte × VideoMessage)

/-- What an event does to the last offer. -/
def LastOffer.see (s : CacheState) (x : LastOffer) : CacheState.Event → LastOffer
  | .offer p n =>
      if p ∈ s.heap.known ∧ (s.offerParsed p n).1 = some true then
        (VideoMessage.parse (some (s.heap.read p)) n).map fun msg =>
          (((s.heap.read p).drop 20).take (n - 20), msg)
      else x
  | .clear => none
  | .array _ | .write .. | .parameterSets => x

/-- The cache beside the last offer. -/
abbrev Cached := CacheState × LastOffer

/-- The message lies in its array. -/
def Fits (x : Cached) : CacheState.Event → Prop
  | .offer p n => n ≤ (x.1.heap.read p).length
  | _ => True

instance (x : Cached) : ∀ e, Decidable (Fits x e)
  | .offer .. => inferInstanceAs (Decidable (_ ≤ _))
  | .array _ | .write .. | .parameterSets | .clear => .isTrue trivial

/-- `parameterSets()` would return the bytes of the last offer, and width and height are
those of its message. -/
structure Faithful (x : Cached) : Prop where
  bytes : x.1.parameterSets.1.map x.1.parameterSets.2.heap.read = x.2.map Prod.fst
  size : ∀ l ∈ x.2, x.1.cache.width = l.2.width ∧ x.1.cache.height = l.2.height

/-- An offer that returns false changes nothing. -/
def RefusedAlone (x : Cached) : CacheState.Event → Prop
  | .offer p n => (x.1.offerParsed p n).1 = some false → x.1.step (.offer p n) = x.1
  | _ => True

/-- The array of the cache is its own, and holds the bytes of the last offer. -/
structure Kept (x : Cached) : Prop where
  own : ∀ a ∈ x.1.cache.parameterSets, x.1.heap.Private a
  bytes : x.1.toCache.parameterSets = x.2.map Prod.fst
  size : ∀ l ∈ x.2, x.1.cache.width = l.2.width ∧ x.1.cache.height = l.2.height

variable {s : CacheState} {x : Cached}

/-! ### The calls -/

/-- A walk over an array that is long enough does not throw. -/
theorem walk_array {bytes : List Byte} {offset length : ℕ} (h : offset + length ≤ bytes.length) :
    walkRange (fun i => bytes[i]?) offset length = some (firstNalType bytes offset length) := by
  refine walk_eq (fun j _ hlt => ?_) (by omega)
  have hin : j < bytes.length := by omega
  rw [byteAt_eq_getElem hin, List.getElem?_eq_getElem hin]

namespace CacheState

/-- What `offer` does with a message that lies in its array. -/
theorem offer_eq {msg : VideoMessage} {p : ℕ}
    (hfits : msg.dataOffset + msg.dataLength ≤ (s.heap.read p).length) :
    s.offer msg p =
      if firstNalType (s.heap.read p) msg.dataOffset msg.dataLength = nalSps then
        (some true, ⟨s.heap.keep (((s.heap.read p).drop msg.dataOffset).take msg.dataLength),
          some s.heap.next, msg.width, msg.height⟩)
      else (some false, s) := by
  rw [offer, walk_array hfits]
  by_cases hsps : firstNalType (s.heap.read p) msg.dataOffset msg.dataLength = nalSps
  · simp [hsps, hfits]
  · simp [hsps]

/-- **The cache with its arrays does what the cache of bytes does.** -/
theorem offer_toCache {msg : VideoMessage} {p : ℕ}
    (hfits : msg.dataOffset + msg.dataLength ≤ (s.heap.read p).length) :
    (s.offer msg p).1 = some (s.toCache.offer msg (s.heap.read p)).1 ∧
      (s.offer msg p).2.toCache = (s.toCache.offer msg (s.heap.read p)).2 := by
  rw [offer_eq hfits, ParameterSetCache.offer]
  by_cases hsps : firstNalType (s.heap.read p) msg.dataOffset msg.dataLength = nalSps
  · simp [hsps, toCache]
  · simp [hsps]

/-- An offer of a message that lies in its array is one of `offer`, or throws because there
is no message. -/
theorem offerParsed_eq {p n : ℕ} (hfits : n ≤ (s.heap.read p).length) :
    (VideoMessage.parse (some (s.heap.read p)) n = none ∧ s.offerParsed p n = (none, s)) ∨
      ∃ msg, VideoMessage.parse (some (s.heap.read p)) n = some msg ∧ msg.dataOffset = 20 ∧
        msg.dataLength = n - 20 ∧ msg.dataOffset + msg.dataLength ≤ (s.heap.read p).length ∧
          s.offerParsed p n = s.offer msg p := by
  unfold offerParsed
  cases hparse : VideoMessage.parse (some (s.heap.read p)) n with
  | none => exact .inl ⟨rfl, rfl⟩
  | some msg =>
      obtain ⟨hoffset, hlength⟩ := VideoMessage.parse_range hparse
      rw [metadataSize] at hoffset
      have hlong : ¬ (s.heap.read p).length < metadataSize := by
        rw [metadataSize]
        omega
      refine .inr ⟨msg, rfl, hoffset, by omega, by omega, ?_⟩
      simp only [if_neg hlong]

/-- Where the array of the cache reads as before, the cache of bytes is as before. -/
theorem toCache_congr {heap : Heap Byte}
    (h : ∀ a ∈ s.cache.parameterSets, heap.read a = s.heap.read a) :
    toCache { s with heap := heap } = s.toCache := by
  simp only [toCache, ParameterSetCache.mk.injEq, and_true]
  exact Option.map_congr h

end CacheState

/-! ### The invariant -/

/-- The outside does something that leaves private arrays private and as they are. -/
theorem Kept.outside {heap : Heap Byte} (h : Kept x)
    (hown : ∀ a, x.1.heap.Private a → heap.Private a)
    (hread : ∀ a, x.1.heap.Private a → heap.read a = x.1.heap.read a) :
    Kept ({ x.1 with heap := heap }, x.2) := by
  refine ⟨fun a ha => hown a (h.own a ha), ?_, h.size⟩
  rw [CacheState.toCache_congr fun a ha => hread a (h.own a ha)]
  exact h.bytes

/-- An offer that returns true is the last one from then on. -/
theorem Kept.accepted {msg : VideoMessage} {p : ℕ}
    (hfits : msg.dataOffset + msg.dataLength ≤ (s.heap.read p).length)
    (hsps : firstNalType (s.heap.read p) msg.dataOffset msg.dataLength = nalSps) :
    Kept ((s.offer msg p).2,
      some (((s.heap.read p).drop msg.dataOffset).take msg.dataLength, msg)) := by
  have hcache := (CacheState.offer_toCache (s := s) hfits).2
  rw [ParameterSetCache.offer, if_neg (not_not.2 hsps)] at hcache
  refine ⟨fun a ha => ?_, ?_, fun l hl => ?_⟩
  · rw [CacheState.offer_eq hfits, if_pos hsps] at ha ⊢
    obtain rfl := Option.some.inj ha
    exact Heap.private_keep_next _ _
  · rw [hcache]
    rfl
  · obtain rfl := Option.some.inj hl
    exact ⟨congrArg ParameterSetCache.width hcache, congrArg ParameterSetCache.height hcache⟩

theorem Kept.offer (h : Kept x) {p n : ℕ} (hfits : n ≤ (x.1.heap.read p).length) :
    Kept (watched CacheState.step LastOffer.see x (.offer p n)) := by
  obtain ⟨s, last⟩ := x
  simp only [watched, CacheState.step, LastOffer.see]
  by_cases hknown : p ∈ s.heap.known
  · rcases CacheState.offerParsed_eq hfits with ⟨-, heq⟩ | ⟨msg, hparse, hoffset, hlength, hin, heq⟩
    · simp only [if_pos hknown, heq, reduceCtorEq, and_false, if_false]
      exact h
    · by_cases hsps : firstNalType (s.heap.read p) msg.dataOffset msg.dataLength = nalSps
      · have htrue : (s.offer msg p).1 = some true := by
          rw [CacheState.offer_eq hin, if_pos hsps]
        have haccepted := Kept.accepted hin hsps
        rw [hoffset, hlength] at haccepted
        simp only [heq, hparse, hknown, htrue, and_self, if_true, Option.map_some]
        exact haccepted
      · have hfalse : s.offer msg p = (some false, s) := by
          rw [CacheState.offer_eq hin, if_neg hsps]
        simp only [if_pos hknown, heq, hfalse, Option.some.injEq, Bool.false_eq_true, and_false,
          if_false]
        exact h
  · simp only [hknown, if_false, false_and]
    exact h

/-- **Every event keeps the array of the cache its own.** -/
theorem kept_step (e : CacheState.Event) (h : Kept x) (hfits : Fits x e) :
    Kept (watched CacheState.step LastOffer.see x e) := by
  cases e with
  | array bytes =>
      exact h.outside (fun a ha => ha.publish bytes) fun a ha => Heap.read_publish ha.lt bytes
  | write a i b => exact h.outside (fun _ ha => ha.write a i b) fun _ ha => ha.read_write a i b
  | offer p n => exact h.offer hfits
  | parameterSets =>
      simp only [watched, CacheState.step, LastOffer.see, CacheState.parameterSets]
      split
      · exact h
      · exact h.outside (fun a ha => ha.publish _) fun a ha => Heap.read_publish ha.lt _
  | clear =>
      refine ⟨fun a ha => absurd ha ?_, rfl, fun l hl => absurd hl ?_⟩
      · simp [watched, CacheState.step, CacheState.clear]
      · simp [watched, LastOffer.see]

/-- What `parameterSets()` returns holds what the cache holds. -/
theorem Kept.faithful (h : Kept x) : Faithful x := by
  refine ⟨?_, h.size⟩
  rw [← h.bytes, CacheState.toCache, CacheState.parameterSets]
  cases x.1.cache.parameterSets with
  | none => rfl
  | some a => simp

theorem refusedAlone_of_fits (e : CacheState.Event) (hfits : Fits x e) : RefusedAlone x e := by
  cases e with
  | offer p n =>
      intro hfalse
      rw [CacheState.step]
      split_ifs
      · rcases CacheState.offerParsed_eq hfits with ⟨-, heq⟩ | ⟨msg, -, -, -, hin, heq⟩
        · rw [heq]
        · rw [heq, CacheState.offer_eq hin] at hfalse ⊢
          split_ifs at hfalse ⊢
          · exact absurd hfalse (by simp)
          · rfl
      · rfl
  | array | write | parameterSets | clear => exact trivial

/-- **The cache holds what it was offered.**  For every run of offers, calls of
`parameterSets()` and `clear()`, and writes of all arrays that anybody outside has, from
any arrays: `parameterSets()` returns the bytes of the last offer since the last `clear()`
that returned true as they were then, width and height are those of its message, and an
offer that returns false changes nothing. -/
theorem faithful_run (heap : Heap Byte) (es : List CacheState.Event)
    (hfits : Along (watched CacheState.step LastOffer.see) Fits (.new heap, none) es) :
    Along (watched CacheState.step LastOffer.see)
      (fun x e => Faithful x ∧ RefusedAlone x e ∧
        Faithful (watched CacheState.step LastOffer.see x e)) (.new heap, none) es :=
  hfits.imp_of_invariant (I := Kept) (fun _ e h hf => kept_step e h hf)
    (fun _ e h hf => ⟨h.faithful, refusedAlone_of_fits e hf, (kept_step e h hf).faithful⟩)
    ⟨fun a ha => absurd ha (Option.not_mem_none a), rfl,
      fun l hl => absurd hl (Option.not_mem_none l)⟩

/-- An SPS of eight bytes in an array of thirty. -/
def spsPayload : List Byte :=
  le32 800 ++ le32 480 ++ le32 3 ++ le32 0 ++ le32 0 ++ [0, 0, 0, 1, 0x67, 0x42, 0x80, 0x1F, 9, 9]

/-- The payload array and the copy are both overwritten, and a P-slice is offered. -/
theorem faithful_overwritten :
    Along (watched CacheState.step LastOffer.see)
      (fun x e => Faithful x ∧ RefusedAlone x e ∧
        Faithful (watched CacheState.step LastOffer.see x e)) (.new .empty, none)
      [.array spsPayload, .offer 0 28, .parameterSets, .write 0 24 0x41, .write 2 4 0x41,
        .offer 0 28, .parameterSets, .clear] :=
  faithful_run .empty _ (by decide)

end Protocol
end Carlinkit
