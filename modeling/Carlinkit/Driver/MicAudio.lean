/-
# What the microphone sends

`CarlinkitDriver.sendMicAudio` puts a header of twelve bytes before the samples and sends
them as AUDIO_DATA.  The format has no field for the kind of a message: who reads it goes by
the length of what follows the header, and one byte is a command there, and four bytes are a
volume duration.  `sendMicAudio` takes every length all the same, so two short chunks are no
audio to the peer (`heardAsPcm_iff`).
-/

import Carlinkit.Protocol.Audio
import Carlinkit.Protocol.Header

namespace Carlinkit
namespace Driver

open Framing Protocol

/-- The header of `sendMicAudio`: `decodeType`, volume `0.0f`, audioType 3. -/
def micHeader (decodeType : BitVec 32) : List Byte :=
  [decodeType.setWidth 8, 0, 0, 0, 0, 0, 0, 0, 3, 0, 0, 0]

/-- The sum `HEADER_SIZE + len` of `int`s is negative where it leaves their range. -/
theorem headerSize_add_neg_iff {len : BitVec 32} (hpos : ¬ len.toInt ≤ 0) :
    (12 + len).toInt < 0 ↔ 2 ^ 31 ≤ 12 + len.toNat := by
  have hlen := length_lt_of_not_neg (w := len) (by omega)
  have hadd : (12 + len).toNat = 12 + len.toNat := by
    rw [BitVec.toNat_add, Nat.mod_eq_of_lt]
    · rfl
    · show 12 + len.toNat < 2 ^ 32
      omega
  rw [BitVec.toInt_eq_toNat_cond, hadd]
  split <;> omega

theorem micPayload_lt {pcm : List Byte} {len : BitVec 32} (decodeType : BitVec 32)
    (hpos : ¬ len.toInt ≤ 0) (hsum : ¬ (12 + len).toInt < 0) :
    (micHeader decodeType ++ pcm.take len.toNat).length < 2 ^ 31 := by
  rw [headerSize_add_neg_iff hpos] at hsum
  rw [List.length_append, List.length_take, show (micHeader decodeType).length = 12 from rfl]
  omega

/-- `sendMicAudio`, with the message that it hands to `send`, where it gets that far. -/
def sendMicAudio (pcm : List Byte) (len decodeType : BitVec 32) :
    Except String (Option Message) :=
  if hpos : len.toInt ≤ 0 then .ok none
  -- `HEADER_SIZE + len` is an `int`
  else if hsum : (12 + len).toInt < 0 then .error "NegativeArraySizeException"
  else if pcm.length < len.toNat then .error "ArrayIndexOutOfBoundsException"
  else .ok (some ⟨MessageType.audioData, micHeader decodeType ++ pcm.take len.toNat,
    micPayload_lt decodeType hpos hsum⟩)

/-- The peer reads the message as these samples: header, payload and the slice of the
payload. -/
def HeardAsPcm (m : Message) (samples : List Byte) (decodeType : BitVec 32) : Prop :=
  ∃ h am, fromBytes m.headerBytes 0 headerSize = .ok h ∧ h.type = MessageType.audioData ∧
    AudioMessage.parse (some m.payload) h.length = some am ∧ am.kind = .pcm ∧
      am.decodeType = decodeType ∧ am.audioType = 3 ∧
        (m.payload.drop am.pcmOffset).take am.pcmLength = samples

variable {pcm : List Byte} {len : BitVec 32}

/-! ### The two sides -/

/-- What `sendMicAudio` does with a chunk that lies in its array. -/
theorem sendMicAudio_cases (decodeType : BitVec 32) (hpos : 0 < len.toInt)
    (hlen : len.toInt ≤ pcm.length) :
    (12 + len.toNat < 2 ^ 31 ∧ ∃ m, sendMicAudio pcm len decodeType = .ok (some m) ∧
        m.type = MessageType.audioData ∧ m.payload = micHeader decodeType ++ pcm.take len.toNat) ∨
      2 ^ 31 ≤ 12 + len.toNat ∧
        sendMicAudio pcm len decodeType = .error "NegativeArraySizeException" := by
  have hnonpos : ¬ len.toInt ≤ 0 := Int.not_le.2 hpos
  have hlt := length_lt_of_not_neg (w := len) (by omega)
  have hnat : len.toInt = len.toNat := by
    rw [BitVec.toInt_eq_toNat_of_lt]
    omega
  have hinside : ¬ pcm.length < len.toNat := by omega
  rw [sendMicAudio, dif_neg hnonpos]
  by_cases hsum : (12 + len).toInt < 0
  · rw [dif_pos hsum]
    exact .inr ⟨(headerSize_add_neg_iff hnonpos).1 hsum, rfl⟩
  · rw [dif_neg hsum, if_neg hinside]
    exact .inl ⟨Nat.lt_of_not_le (mt (headerSize_add_neg_iff hnonpos).2 hsum), _, rfl, rfl, rfl⟩

/-- The words of the header. -/
theorem wordAt_micHeader (f : CaptureFormat) (samples : List Byte) :
    wordAt (micHeader f.decodeType ++ samples) 0 = f.decodeType ∧
      wordAt (micHeader f.decodeType ++ samples) 8 = 3 := by
  obtain rfl | rfl | rfl := f.cases <;> exact ⟨rfl, rfl⟩

/-- **The length says what a message is.**  Behind the header of the microphone the samples
are read as samples unless there are one or four bytes of them. -/
theorem heardAsPcm_iff {m : Message} (f : CaptureFormat) {samples : List Byte}
    (htype : m.type = MessageType.audioData)
    (hpayload : m.payload = micHeader f.decodeType ++ samples) :
    HeardAsPcm m samples f.decodeType ↔ samples.length ≠ 1 ∧ samples.length ≠ 4 := by
  obtain ⟨hdecode, haudio⟩ := wordAt_micHeader f samples
  have hread : fromBytes m.headerBytes 0 headerSize = .ok m.header := fromBytes_toBytes m.header
  have hlength : m.header.length - audioHeaderSize = samples.length := by
    rw [m.header_length, hpayload, List.length_append]
    exact Nat.add_sub_cancel_left ..
  have hlong : ¬ m.header.length < audioHeaderSize := by
    rw [m.header_length, hpayload, List.length_append]
    exact Nat.not_lt.2 (Nat.le_add_right ..)
  constructor
  · rintro ⟨h, am, hok, -, hparse, hkind, -⟩
    obtain rfl := Except.ok.inj (hread.symm.trans hok)
    simp only [AudioMessage.parse, if_neg hlong, hlength] at hparse
    split_ifs at hparse with hone hfour <;> obtain rfl := Option.some.inj hparse
    · cases hkind
    · cases hkind
    · exact ⟨hone, hfour⟩
  · rintro ⟨hone, hfour⟩
    have hparse : AudioMessage.parse (some m.payload) m.header.length =
        some ⟨f.decodeType, wordAt m.payload 4, 3, .pcm, 0, 0, 12, samples.length⟩ := by
      simp only [AudioMessage.parse, if_neg hlong, hlength, if_neg hone, if_neg hfour]
      rw [hpayload, hdecode, haudio]
      rfl
    have hslice : (m.payload.drop 12).take samples.length = samples := by
      rw [hpayload, show 12 = (micHeader f.decodeType).length from rfl, List.drop_left,
        List.take_length]
    exact ⟨m.header, _, hread, htype, hparse, rfl, rfl, rfl, hslice⟩

/-- **Which chunks are audio to the peer.**  For every array, every chunk at its front and
every format of a microphone: the message that `sendMicAudio` sends is read as these samples
exactly when they are not one byte and not four, and header and samples fit an array. -/
theorem sendMicAudio_heard_iff (pcm : List Byte) (len : BitVec 32) (f : CaptureFormat)
    (hpos : 0 < len.toInt) (hlen : len.toInt ≤ pcm.length) :
    (∃ m, sendMicAudio pcm len f.decodeType = .ok (some m) ∧
        HeardAsPcm m (pcm.take len.toNat) f.decodeType) ↔
      len ≠ 1 ∧ len ≠ 4 ∧ 12 + len.toNat < 2 ^ 31 := by
  have hnat : len.toInt = len.toNat := by
    have := length_lt_of_not_neg (w := len) (by omega)
    rw [BitVec.toInt_eq_toNat_of_lt]
    omega
  have hsamples : (pcm.take len.toNat).length = len.toNat := by
    rw [List.length_take]
    omega
  have hword : ∀ w : BitVec 32, len ≠ w ↔ (pcm.take len.toNat).length ≠ w.toNat := by
    intro w
    rw [hsamples, Ne, BitVec.toNat_eq]
  rw [hword 1, hword 4]
  rcases sendMicAudio_cases f.decodeType hpos hlen with
    ⟨hfits, m, hsent, htype, hpayload⟩ | ⟨hlong, hthrew⟩
  · have hheard := heardAsPcm_iff f htype hpayload
    constructor
    · rintro ⟨m', hsent', hm'⟩
      obtain rfl : m = m' := by
        rw [hsent] at hsent'
        exact Option.some.inj (Except.ok.inj hsent')
      obtain ⟨hone, hfour⟩ := hheard.1 hm'
      exact ⟨hone, hfour, hfits⟩
    · rintro ⟨hone, hfour, -⟩
      exact ⟨m, hsent, hheard.2 ⟨hone, hfour⟩⟩
  · refine iff_of_false ?_ fun h => absurd h.2.2 (by omega)
    rintro ⟨m, hsent, -⟩
    rw [hthrew] at hsent
    cases hsent

/-- A chunk of two samples and a half, at 16 kHz. -/
theorem heard_five_bytes :
    ∃ m, sendMicAudio [1, 2, 3, 4, 5, 6] 5 CaptureFormat.assistant.decodeType = .ok (some m) ∧
      HeardAsPcm m [1, 2, 3, 4, 5] CaptureFormat.assistant.decodeType :=
  (sendMicAudio_heard_iff [1, 2, 3, 4, 5, 6] 5 .assistant (by decide) (by decide)).2
    ⟨by decide, by decide, by decide⟩

/-- **Two samples, four bytes.**  The peer takes them for a volume duration. -/
theorem not_heard_two_samples :
    ¬ ∀ (pcm : List Byte) (len : BitVec 32) (f : CaptureFormat), 0 < len.toInt →
      len.toInt ≤ pcm.length → ∃ m, sendMicAudio pcm len f.decodeType = .ok (some m) ∧
        HeardAsPcm m (pcm.take len.toNat) f.decodeType := by
  intro h
  obtain ⟨m, hsent, hheard⟩ := h [1, 2, 3, 4] 4 .assistant (by decide) (by decide)
  obtain rfl := Option.some.inj (Except.ok.inj hsent)
  exact absurd rfl ((heardAsPcm_iff .assistant rfl rfl).1 hheard).2

end Driver
end Carlinkit
