/-
# Two ways to find an SPS

A frame with an SPS is known twice: `ParameterSetCache.offer` walks over the H.264 part with
`firstNalType`, which takes start codes of three and of four bytes, and
`OMXVideoCodec.mediaDecode` asks `isSps`, which looks at the fifth byte whatever stands
before it.  Only what `isSps` finds goes through `nativeSetSps`.

Behind a start code of four bytes both look at the same byte.  Behind one of three they look
at two neighbours, and `detectors_agree_iff` says when that makes no difference.
-/

import Carlinkit.App.VideoRenderer
import Carlinkit.Protocol.StartCodes

namespace Carlinkit
namespace App

open Framing Framing.AnnexB Protocol

/-- What `OMXVideoCodec` calls on the native side for a buffer. -/
inductive NativeCall
  | setSps (buf : List Byte) (len : ℕ)
  | consume (buf : List Byte) (len : ℕ)
deriving DecidableEq

/-- `isSps`; `none` is the exception of `get(4)` on a short buffer. -/
def isSps (buf : List Byte) : Option Bool := buf[4]?.map fun b => decide (lowFive b = nalSps)

/-- `mediaDecode`, with the native calls in order. -/
def mediaDecode (buf : List Byte) (len : ℕ) : Option (List NativeCall) :=
  (isSps buf).map fun sps => (if sps then [.setSps buf len] else []) ++ [.consume buf len]

/-- The H.264 part of a frame. -/
def Frame.data (f : Frame) : List Byte := (f.payload.drop f.msg.dataOffset).take f.msg.dataLength

@[simp] theorem Frame.data_length (f : Frame) : f.data.length = f.msg.dataLength := by
  have := f.inside
  rw [data, List.length_take, List.length_drop]
  omega

/-- The bytes that a buffer holds. -/
def Buffer.bytes : Buffer → List Byte
  | .frame f => f.data
  | .parameterSets bytes => bytes

/-- The native calls for a buffer; there are none where `mediaDecode` throws. -/
def Buffer.calls (b : Buffer) : List NativeCall := (mediaDecode b.bytes b.bytes.length).getD []

/-- The native calls of a codec so far. -/
def Codec.calls (c : Codec) : List NativeCall := c.handed.flatMap Buffer.calls

/-- The native calls of the codec in use. -/
def VideoRenderer.calls (r : VideoRenderer) : List NativeCall := r.codec.toList.flatMap Codec.calls

/-- `mediaDecode` treats the frame as an SPS when `onFrame` hands it over. -/
def VideoRenderer.SetsSps (r : VideoRenderer) (f : Frame) (ms : ℕ) : Prop :=
  NativeCall.setSps f.data f.msg.dataLength ∈ (r.onFrame f ms).calls.drop r.calls.length

instance (r : VideoRenderer) (f : Frame) (ms : ℕ) : Decidable (r.SetsSps f ms) :=
  inferInstanceAs (Decidable (_ ∈ _))

variable {r : VideoRenderer} {f : Frame} {code : StartCode}

/-! ### The codec -/

theorem calls_hand {c : Codec} (hcodec : r.codec = some c) (b : Buffer) :
    (r.hand b).calls = r.calls ++ b.calls := by
  simp [VideoRenderer.calls, VideoRenderer.hand, hcodec, Codec.calls]

/-- **What `onFrame` adds** to the native calls of a running decoder. -/
theorem calls_onFrame {c : Codec} (hrun : r.running = true) (hcodec : r.codec = some c)
    (f : Frame) (ms : ℕ) : (r.onFrame f ms).calls = r.calls ++ (Buffer.frame f).calls := by
  rw [← calls_hand hcodec, VideoRenderer.onFrame, if_pos ⟨hrun, by simp [hcodec]⟩]
  split_ifs
  · rfl
  · rfl

/-- The codec looks at the fifth byte. -/
theorem setsSps_iff {c : Codec} (hrun : r.running = true) (hcodec : r.codec = some c)
    (hlong : 5 ≤ f.data.length) (ms : ℕ) :
    r.SetsSps f ms ↔ lowFive (byteAt f.data 4) = nalSps := by
  have hfifth : f.data[4]? = some (byteAt f.data 4) := by
    rw [byteAt_eq_getElem (show 4 < f.data.length by omega), List.getElem?_eq_getElem]
  rw [VideoRenderer.SetsSps, calls_onFrame hrun hcodec, List.drop_left, Buffer.calls,
    Buffer.bytes, mediaDecode, isSps, hfifth, Frame.data_length]
  by_cases hsps : lowFive (byteAt f.data 4) = nalSps
  · simp [hsps]
  · simp [hsps]

/-! ### The cache -/

/-- The cache looks behind the start code. -/
theorem offer_iff (cache : ParameterSetCache) (hcode : code.bytes <+: f.data)
    (htwo : code.bytes.length + 2 ≤ f.data.length) :
    (cache.offer f.msg f.payload).1 = true ↔
      lowFive (byteAt f.data code.bytes.length) = nalSps := by
  have hlong : 5 ≤ f.data.length := by
    cases code with
    | three => exact htwo
    | four => exact Nat.le_of_succ_le htwo
  have hfollowed : Followed f.data 0 code := ⟨hcode, by omega⟩
  have hfirst : firstNalType f.payload f.msg.dataOffset f.msg.dataLength =
      lowFive (byteAt f.data code.bytes.length) := by
    have hwalk := firstNalType_of_followed hfollowed hlong
    rwa [f.data_length, Frame.data, ← firstNalType_data] at hwalk
  rw [ParameterSetCache.offer, hfirst]
  by_cases hsps : lowFive (byteAt f.data code.bytes.length) = nalSps
  · simp [hsps]
  · simp [hsps]

/-- **When the cache and the codec agree about a frame.**  Its H.264 part begins with a start
code and two bytes more, and a decoder runs: `offer` keeps it if and only if `mediaDecode`
calls `nativeSetSps` exactly when the code has four bytes, or the two bytes behind one of
three both have the type of an SPS in their low bits, or neither has. -/
theorem detectors_agree_iff (cache : ParameterSetCache) (r : VideoRenderer) (c : Codec)
    (f : Frame) (ms : ℕ) (code : StartCode) (hrun : r.running = true) (hcodec : r.codec = some c)
    (hcode : code.bytes <+: f.data) (htwo : code.bytes.length + 2 ≤ f.data.length) :
    ((cache.offer f.msg f.payload).1 = true ↔ r.SetsSps f ms) ↔
      code = .four ∨
        (lowFive (byteAt f.data 3) = nalSps ↔ lowFive (byteAt f.data 4) = nalSps) := by
  cases code with
  | three =>
      rw [offer_iff cache hcode htwo, setsSps_iff hrun hcodec htwo]
      simp only [reduceCtorEq, false_or]
      rfl
  | four =>
      rw [offer_iff cache hcode htwo, setsSps_iff hrun hcodec (Nat.le_of_succ_le htwo)]
      exact iff_of_true Iff.rfl (.inl rfl)

/-- A VIDEO_DATA payload, 800 by 480, with its H.264 part. -/
def videoPayload (data : List Byte) : List Byte :=
  le32 800 ++ le32 480 ++ le32 3 ++ le32 0 ++ le32 0 ++ data

/-- An SPS behind a start code of four bytes. -/
def longCode : Frame where
  msg := ⟨800, 480, 3, 20, 8⟩
  payload := videoPayload [0, 0, 0, 1, 0x67, 0x42, 0x80, 0x1F]
  inside := Nat.le_refl 28

/-- The same SPS behind a start code of three bytes. -/
def shortCode : Frame where
  msg := ⟨800, 480, 3, 20, 7⟩
  payload := videoPayload [0, 0, 1, 0x67, 0x42, 0x80, 0x1F]
  inside := Nat.le_refl 27

/-- A decoder that got nothing yet. -/
def decoding : VideoRenderer :=
  { VideoRenderer.new 20 with running := true, codec := some ⟨20, 0, 800, 480, false, [], false⟩ }

theorem detectors_agree_longCode :
    (ParameterSetCache.empty.offer longCode.msg longCode.payload).1 = true ↔
      decoding.SetsSps longCode 5 :=
  (detectors_agree_iff .empty decoding ⟨20, 0, 800, 480, false, [], false⟩ longCode 5 .four rfl rfl
    (by decide) (by decide)).2 (.inl rfl)

/-- **An SPS behind `00 00 01`.**  The cache keeps it, and the codec reads `42` as its type. -/
theorem not_detectors_agree_shortCode :
    ¬ ∀ (cache : ParameterSetCache) (r : VideoRenderer) (f : Frame) (n ms : ℕ) (code : StartCode),
      VideoMessage.parse (some f.payload) n = some f.msg → r.running = true → r.codec ≠ none →
        code.bytes <+: f.data → code.bytes.length + 2 ≤ f.data.length →
          ((cache.offer f.msg f.payload).1 = true ↔ r.SetsSps f ms) := by
  intro h
  have hagree := h .empty decoding shortCode 27 5 .three (by decide) rfl (by decide) (by decide)
    (by decide)
  revert hagree
  decide

end App
end Carlinkit
