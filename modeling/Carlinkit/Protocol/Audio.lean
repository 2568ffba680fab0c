/-
# AUDIO_DATA

`AudioMessage.java`.  The payload of an AUDIO_DATA message is

| offset | field |
| ---: | --- |
| 0 | `decodeType` |
| 4 | `volume`, a `float` |
| 8 | `audioType` |
| 12 | the content |

and the size of the content says what it is: one byte is an audio command, four
bytes are a volume duration, anything else is PCM.  A `float` is kept as its bit
pattern, since the code only hands it on.

As with video, the code reads out of a reused array; `AudioMessage.parse_take`
says that the bytes after the message do not matter.

`formatOf` is the table of formats.  A microphone takes the mono ones, each with
its own sample rate: among them the rate tells the `decodeType`
(`CaptureFormat.ext_sampleRate`).
-/

import Carlinkit.Framing.Words

namespace Carlinkit
namespace Protocol

open Framing

/-- `AudioMessage.HEADER_SIZE`. -/
def audioHeaderSize : ℕ := 12

/-- `AudioMessage.kind`: `KIND_COMMAND`, `KIND_VOLUME_DURATION`, `KIND_PCM`. -/
inductive AudioKind
  | command
  | volumeDuration
  | pcm
deriving DecidableEq, Repr

/-- A parsed AUDIO_DATA message; `pcmOffset` and `pcmLength` delimit the PCM data
in the payload array. -/
structure AudioMessage where
  decodeType : BitVec 32
  volume : BitVec 32
  audioType : BitVec 32
  kind : AudioKind
  command : BitVec 32
  volumeDuration : BitVec 32
  pcmOffset : ℕ
  pcmLength : ℕ
deriving DecidableEq, Repr

/-- `AudioMessage.parse`; the command byte is sign-extended to an `int`. -/
def AudioMessage.parse (payload : Option (List Byte)) (length : ℕ) : Option AudioMessage :=
  match payload with
  | none => none
  | some p =>
      if length < audioHeaderSize then none
      else if length - audioHeaderSize = 1 then
        some ⟨wordAt p 0, wordAt p 4, wordAt p 8, .command,
          (byteAt p audioHeaderSize).signExtend 32, 0, 0, 0⟩
      else if length - audioHeaderSize = 4 then
        some ⟨wordAt p 0, wordAt p 4, wordAt p 8, .volumeDuration, 0, wordAt p 12, 0, 0⟩
      else
        some ⟨wordAt p 0, wordAt p 4, wordAt p 8, .pcm, 0, 0, audioHeaderSize,
          length - audioHeaderSize⟩

/-- Parsing looks at the bytes of the message alone. -/
theorem AudioMessage.parse_take (buf : List Byte) (length : ℕ) :
    AudioMessage.parse (some (buf.take length)) length = AudioMessage.parse (some buf) length := by
  unfold AudioMessage.parse
  by_cases h : length < audioHeaderSize
  · simp only [if_pos h]
  · have h12 : 12 ≤ length := by rw [audioHeaderSize] at h; omega
    simp only [if_neg h, wordAt_take (show 0 + 4 ≤ length by omega),
      wordAt_take (show 4 + 4 ≤ length by omega), wordAt_take (show 8 + 4 ≤ length by omega)]
    by_cases h₁ : length - audioHeaderSize = 1
    · have hb : audioHeaderSize < length := by omega
      simp only [if_pos h₁, byteAt_take hb]
    · by_cases h₄ : length - audioHeaderSize = 4
      · have hw : 12 + 4 ≤ length := by rw [audioHeaderSize] at h₄; omega
        simp only [if_neg h₁, if_pos h₄, wordAt_take hw]
      · simp only [if_neg h₁, if_neg h₄]

/-- The PCM range of a parsed message lies inside the message. -/
theorem AudioMessage.parse_range {payload : Option (List Byte)} {length : ℕ} {am : AudioMessage}
    (h : AudioMessage.parse payload length = some am) : am.pcmOffset + am.pcmLength ≤ length := by
  cases payload with
  | none => simp [AudioMessage.parse] at h
  | some p =>
      simp only [AudioMessage.parse] at h
      split at h
      · simp at h
      · split at h
        · obtain rfl := Option.some.inj h
          exact Nat.zero_le _
        · split at h
          · obtain rfl := Option.some.inj h
            exact Nat.zero_le _
          · obtain rfl := Option.some.inj h
            show audioHeaderSize + (length - audioHeaderSize) ≤ length
            omega

/-! ### `AudioMessage.Command` -/

/-- The audio commands; `unknown` is any other value. -/
inductive AudioCommand
  | outputStart
  | outputStop
  | inputConfig
  | phonecallStart
  | phonecallStop
  | naviStart
  | naviStop
  | siriStart
  | siriStop
  | mediaStart
  | mediaStop
  | alertStart
  | alertStop
  | unknown (c : BitVec 32)
deriving DecidableEq, Repr

/-- The command of a `KIND_COMMAND` message. -/
def AudioMessage.audioCommand (am : AudioMessage) : AudioCommand :=
  match am.command.toNat with
  | 1 => .outputStart
  | 2 => .outputStop
  | 3 => .inputConfig
  | 4 => .phonecallStart
  | 5 => .phonecallStop
  | 6 => .naviStart
  | 7 => .naviStop
  | 8 => .siriStart
  | 9 => .siriStop
  | 10 => .mediaStart
  | 11 => .mediaStop
  | 12 => .alertStart
  | 13 => .alertStop
  | _ => .unknown am.command

/-! ### `AudioMessage.Format` -/

/-- `AudioMessage.Format`. -/
structure Format where
  sampleRate : ℕ
  channels : ℕ
  bitsPerSample : ℕ
deriving DecidableEq, Repr

/-- `AudioMessage.formatOf`. -/
def formatOf (decodeType : BitVec 32) : Option Format :=
  match decodeType.toNat with
  | 1 => some ⟨44100, 2, 16⟩
  | 2 => some ⟨44100, 2, 16⟩
  | 3 => some ⟨8000, 1, 16⟩
  | 4 => some ⟨48000, 2, 16⟩
  | 5 => some ⟨16000, 1, 16⟩
  | 6 => some ⟨24000, 1, 16⟩
  | 7 => some ⟨16000, 2, 16⟩
  | _ => none

/-- A format that a microphone can record in: it is known and mono. -/
structure CaptureFormat where
  decodeType : BitVec 32
  format : Format
  known : formatOf decodeType = some format
  mono : format.channels = 1
deriving DecidableEq, Repr

namespace CaptureFormat

/-- The rate of the `AudioRecord`. -/
def sampleRate (f : CaptureFormat) : ℕ := f.format.sampleRate

/-- The samples of 20 ms. -/
def chunkSamples (f : CaptureFormat) : ℕ := f.sampleRate / 50

/-- The test of a `decodeType` in `CarlinkitMicrophone.setDecodeType`. -/
def ofDecodeType (decodeType : BitVec 32) : Option CaptureFormat :=
  match h : formatOf decodeType with
  | none => none
  | some f => if hmono : f.channels = 1 then some ⟨decodeType, f, h, hmono⟩ else none

/-- decodeType 3, the format of calls. -/
def telephony : CaptureFormat := ⟨3, ⟨8000, 1, 16⟩, by decide, rfl⟩

/-- decodeType 5, the format of the assistant. -/
def assistant : CaptureFormat := ⟨5, ⟨16000, 1, 16⟩, by decide, rfl⟩

/-- The `decodeType` is the whole format. -/
theorem ext_decodeType {f g : CaptureFormat} (h : f.decodeType = g.decodeType) : f = g := by
  obtain ⟨d, ff, hf, _⟩ := f
  obtain ⟨d', fg, hg, _⟩ := g
  obtain rfl : d = d' := h
  obtain rfl : ff = fg := Option.some.inj (hf.symm.trans hg)
  rfl

@[simp] theorem ofDecodeType_decodeType (f : CaptureFormat) :
    ofDecodeType f.decodeType = some f := by
  unfold ofDecodeType
  split
  · next h => exact absurd (h.symm.trans f.known) (by simp)
  · next g h =>
      obtain rfl : g = f.format := Option.some.inj (h.symm.trans f.known)
      rw [dif_pos f.mono]

theorem decodeType_of_ofDecodeType {d : BitVec 32} {f : CaptureFormat}
    (h : ofDecodeType d = some f) : f.decodeType = d := by
  unfold ofDecodeType at h
  split at h
  · simp at h
  · split_ifs at h
    obtain rfl := Option.some.inj h
    rfl

/-- There are three of them. -/
theorem cases (f : CaptureFormat) :
    f = telephony ∨ f = assistant ∨ f = ⟨6, ⟨24000, 1, 16⟩, by decide, rfl⟩ := by
  obtain ⟨d, g, hknown, hmono⟩ := f
  have hd := hknown
  unfold formatOf at hd
  split at hd
  case h_3 heq => exact .inl (ext_decodeType (BitVec.eq_of_toNat_eq heq))
  case h_5 heq => exact .inr (.inl (ext_decodeType (BitVec.eq_of_toNat_eq heq)))
  case h_6 heq => exact .inr (.inr (ext_decodeType (BitVec.eq_of_toNat_eq heq)))
  case h_8 => simp at hd
  all_goals
    -- the stereo rows of the table
    obtain rfl := Option.some.inj hd
    simp at hmono

/-- The formats of a microphone differ in their rates. -/
theorem ext_sampleRate {f g : CaptureFormat} (h : f.sampleRate = g.sampleRate) : f = g := by
  obtain rfl | rfl | rfl := f.cases <;> obtain rfl | rfl | rfl := g.cases <;>
    first | rfl | exact absurd h (by decide)

end CaptureFormat

end Protocol
end Carlinkit
