/-
# VIDEO_DATA and the parameter set cache

`VideoMessage.java`.  The payload of a VIDEO_DATA message is

| offset | field |
| ---: | --- |
| 0 | `width` |
| 4 | `height` |
| 8 | `flags` |
| 12 | two unknown words |
| 20 | H.264, Annex-B |

and the code reads it out of an array that may be longer than the message: the
driver reuses its payload buffer.  `firstNalType` walks over the H.264 part and
returns the type of the first NAL unit; a frame whose first unit is an SPS is
kept by `ParameterSetCache.offer`, because the dongle sends SPS and PPS only
once.

Parsing, the walk and the cache look at the bytes of the message alone
(`VideoMessage.parse_take`, `firstNalType_take`,
`ParameterSetCache.offer_take`): an array and its first `length` bytes give the
same result.
-/

import Carlinkit.Framing.Words
import Mathlib.Data.Int.Notation

namespace Carlinkit
namespace Protocol

open Framing

/-- `VideoMessage.METADATA_SIZE`. -/
def metadataSize : ℕ := 20

/-- `VideoMessage.NAL_SPS`. -/
def nalSps : ℤ := 7

/-- A parsed VIDEO_DATA message: the metadata and where the H.264 data lies in
the payload array. -/
structure VideoMessage where
  width : BitVec 32
  height : BitVec 32
  flags : BitVec 32
  dataOffset : ℕ
  dataLength : ℕ
deriving DecidableEq, Repr

/-- `VideoMessage.parse`; `none` is the `null` of the code, for the payload and
for the result. -/
def VideoMessage.parse (payload : Option (List Byte)) (length : ℕ) : Option VideoMessage :=
  match payload with
  | none => none
  | some p =>
      if length ≤ metadataSize then none
      else some ⟨wordAt p 0, wordAt p 4, wordAt p 8, metadataSize, length - metadataSize⟩

/-- The loop of `firstNalType`, `n` iterations from index `i`. -/
def firstNalTypeLoop (data : List Byte) (stop : ℕ) : ℕ → ℕ → ℤ
  | 0, _ => -1
  | n + 1, i =>
      if byteAt data i = 0 ∧ byteAt data (i + 1) = 0 then
        if byteAt data (i + 2) = 1 then (byteAt data (i + 3) &&& 0x1F).toNat
        else if byteAt data (i + 2) = 0 ∧ byteAt data (i + 3) = 1 ∧ i + 4 < stop then
          (byteAt data (i + 4) &&& 0x1F).toNat
        else firstNalTypeLoop data stop n (i + 1)
      else firstNalTypeLoop data stop n (i + 1)

/-- `VideoMessage.firstNalType`: the type of the first NAL unit after a start
code, or `-1`.  The index runs while it is below `end - 4`. -/
def firstNalType (data : List Byte) (offset length : ℕ) : ℤ :=
  firstNalTypeLoop data (offset + length) (offset + length - 4 - offset) offset

/-- `VideoMessage.ParameterSetCache`. -/
structure ParameterSetCache where
  parameterSets : Option (List Byte)
  width : BitVec 32
  height : BitVec 32
deriving DecidableEq, Repr

namespace ParameterSetCache

/-- A new cache. -/
def empty : ParameterSetCache := ⟨none, 0, 0⟩

/-- `ParameterSetCache.offer`: keeps the H.264 part of a frame that starts with
an SPS. -/
def offer (c : ParameterSetCache) (msg : VideoMessage) (payload : List Byte) :
    Bool × ParameterSetCache :=
  if firstNalType payload msg.dataOffset msg.dataLength ≠ nalSps then (false, c)
  else (true, ⟨some ((payload.drop msg.dataOffset).take msg.dataLength), msg.width, msg.height⟩)

/-- `ParameterSetCache.hasParameterSets`. -/
def hasParameterSets (c : ParameterSetCache) : Bool := c.parameterSets.isSome

/-- `ParameterSetCache.clear`. -/
def clear (c : ParameterSetCache) : ParameterSetCache := { c with parameterSets := none }

end ParameterSetCache

/-- The walk looks at no byte from `stop` on. -/
theorem firstNalTypeLoop_congr {as bs : List Byte} {stop : ℕ}
    (h : ∀ i, i < stop → byteAt as i = byteAt bs i) (n i : ℕ) (hi : n = 0 ∨ i + n + 4 ≤ stop) :
    firstNalTypeLoop as stop n i = firstNalTypeLoop bs stop n i := by
  induction n generalizing i with
  | zero => rfl
  | succ n ih =>
      have hn : i + n + 5 ≤ stop := by omega
      simp only [firstNalTypeLoop, h i (by omega), h (i + 1) (by omega), h (i + 2) (by omega),
        h (i + 3) (by omega), h (i + 4) (by omega), ih (i + 1) (by omega)]

/-- **The walk stays inside the message.**  Bytes that a reused array holds
after the H.264 data do not matter. -/
theorem firstNalType_take (data : List Byte) (offset length : ℕ) :
    firstNalType (data.take (offset + length)) offset length = firstNalType data offset length :=
  firstNalTypeLoop_congr (fun _ hi => byteAt_take hi) _ _ (by omega)

/-- Parsing looks at the bytes of the message alone. -/
theorem VideoMessage.parse_take (buf : List Byte) (length : ℕ) :
    VideoMessage.parse (some (buf.take length)) length = VideoMessage.parse (some buf) length := by
  unfold VideoMessage.parse
  by_cases h : length ≤ metadataSize
  · simp only [if_pos h]
  · have h20 : 20 < length := by rw [metadataSize] at h; omega
    simp only [if_neg h, wordAt_take (show 0 + 4 ≤ length by omega),
      wordAt_take (show 4 + 4 ≤ length by omega), wordAt_take (show 8 + 4 ≤ length by omega)]

/-- The H.264 data of a parsed message is what follows the metadata. -/
theorem VideoMessage.parse_range {payload : Option (List Byte)} {length : ℕ} {vm : VideoMessage}
    (h : VideoMessage.parse payload length = some vm) :
    vm.dataOffset = metadataSize ∧ vm.dataOffset + vm.dataLength = length := by
  cases payload with
  | none => simp [VideoMessage.parse] at h
  | some p =>
      simp only [VideoMessage.parse] at h
      split at h
      · simp at h
      · obtain rfl := Option.some.inj h
        exact ⟨rfl, by show metadataSize + (length - metadataSize) = length; omega⟩

/-- What `offer` answers and keeps depends on the bytes of the message alone. -/
theorem ParameterSetCache.offer_take (c : ParameterSetCache) (vm : VideoMessage) (buf : List Byte) :
    c.offer vm (buf.take (vm.dataOffset + vm.dataLength)) = c.offer vm buf := by
  have hdata : ((buf.take (vm.dataOffset + vm.dataLength)).drop vm.dataOffset).take vm.dataLength =
      (buf.drop vm.dataOffset).take vm.dataLength := by
    rw [List.drop_take, Nat.add_sub_cancel_left, List.take_take, Nat.min_self]
  simp only [offer, firstNalType_take, hdata]

end Protocol
end Carlinkit
