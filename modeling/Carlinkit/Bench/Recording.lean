/-
# The recordings of the bench

`tools/session.py` writes what comes from the dongle to files: the H.264 data of every video
message to one, and the PCM data to a WAV file for each `decodeType` and `audioType`.  They are
what one listens to and looks at in place of the car.

`files_eq` compares them with what the read thread of the app hands on for the same messages:
the video is the same, and a WAV file is the same exactly when no message of its stream is a
stub (`Numbers.lean`), which the app takes for PCM and the script does not.
-/

import Carlinkit.Bench.Windows
import Carlinkit.Driver.Dispatch
import Mathlib.Algebra.Order.BigOperators.Group.List
import Mathlib.Algebra.Order.Group.Nat
import Mathlib.Tactic.IntervalCases

namespace Carlinkit
namespace Bench
namespace Recording

open Framing Machine Protocol Driver

/-- The key of a stream, `"d%d-a%d"`. -/
abbrev Stream := BitVec 32 × BitVec 32

/-- What `main` keeps for the files. -/
structure State where
  /-- `state["video"]` -/
  video : ℕ
  /-- the bytes written to `vfh` -/
  vfh : List Byte
  /-- `apcm`; a stream that is not in it has no bytes -/
  apcm : Stream → List Byte

/-- The beginning. -/
def start : State := ⟨0, [], fun _ => []⟩

/-- What `main` does with a message of the dongle. -/
def step (x : State) (m : Message) : State :=
  if m.type.toNat = 0x06 then
    { x with video := x.video + 1, vfh := x.vfh ++ m.payload.drop 20 }
  else if m.type.toNat = 0x07 ∧ 12 ≤ m.payload.length then
    let body := m.payload.drop 12
    if 4 < body.length then
      { x with apcm := fun key =>
          if key = (wordAt m.payload 0, wordAt m.payload 8) then x.apcm key ++ body
          else x.apcm key }
    else x
  else x

/-- `FORMATS`. -/
def formats (d : ℕ) : Option (ℕ × ℕ × ℕ) :=
  match d with
  | 1 => some (44100, 2, 16)
  | 2 => some (44100, 2, 16)
  | 3 => some (8000, 1, 16)
  | 4 => some (48000, 2, 16)
  | 5 => some (16000, 1, 16)
  | 6 => some (24000, 1, 16)
  | 7 => some (16000, 2, 16)
  | _ => none

/-- A WAV file. -/
structure Wav where
  nchannels : ℕ
  sampwidth : ℕ
  framerate : ℕ
  frames : List Byte
deriving DecidableEq, Repr

/-- The H.264 file, which is removed when no video came. -/
def h264 (x : State) : Option (List Byte) := if x.video = 0 then none else some x.vfh

/-- The WAV file of a stream. -/
def wav (x : State) (key : Stream) : Option Wav :=
  (formats key.1.toNat).bind fun fmt =>
    if x.apcm key = [] then none else some ⟨fmt.2.1, fmt.2.2 / 8, fmt.1, x.apcm key⟩

/-! ### What the app hands on -/

/-- The callbacks for the messages, as the Listener observes them. -/
def callbacks (ms : List Message) : List Callback :=
  ms.filterMap fun m => ownCallback m.header m.payload

/-- The H.264 data of a callback. -/
def frame : Callback → List Byte
  | .onVideoFrame _ data _ => data
  | _ => []

/-- The PCM data of a callback, for one stream. -/
def pcm (key : Stream) : Callback → List Byte
  | .onAudio am data =>
      if am.kind = .pcm ∧ (am.decodeType, am.audioType) = key then data else []
  | _ => []

/-- The PCM data of a stream, in the format the app has for it. -/
def played (key : Stream) (ms : List Message) : Option Wav :=
  (formatOf key.1).bind fun f =>
    if (callbacks ms).flatMap (pcm key) = [] then none
    else some ⟨f.channels, f.bitsPerSample / 8, f.sampleRate, (callbacks ms).flatMap (pcm key)⟩

/-- An audio message of a stream with two or three bytes behind its header. -/
def StubOf (key : Stream) (m : Message) : Prop :=
  m.type = MessageType.audioData ∧ (m.payload.length = 14 ∨ m.payload.length = 15) ∧
    (wordAt m.payload 0, wordAt m.payload 8) = key

instance (key : Stream) (m : Message) : Decidable (StubOf key m) :=
  inferInstanceAs (Decidable (_ ∧ _ ∧ _))

variable {m : Message} {key : Stream}

/-! ### One message -/

theorem videoData_toNat : m.type.toNat = 0x06 ↔ m.type = MessageType.videoData := by
  rw [← BitVec.toNat_inj]
  rfl

theorem audioData_toNat : m.type.toNat = 0x07 ↔ m.type = MessageType.audioData := by
  rw [← BitVec.toNat_inj]
  rfl

/-- What a message adds to the H.264 file. -/
def videoBytes (m : Message) : List Byte :=
  if m.type = MessageType.videoData then m.payload.drop 20 else []

/-- What a message adds to a stream. -/
def streamBytes (key : Stream) (m : Message) : List Byte :=
  if m.type = MessageType.audioData ∧ 16 < m.payload.length ∧
      (wordAt m.payload 0, wordAt m.payload 8) = key then m.payload.drop 12
  else []

theorem step_vfh (x : State) (m : Message) : (step x m).vfh = x.vfh ++ videoBytes m := by
  rw [step, videoBytes]
  simp only [videoData_toNat]
  split_ifs <;> simp

theorem step_apcm (x : State) (m : Message) (key : Stream) :
    (step x m).apcm key = x.apcm key ++ streamBytes key m := by
  rw [step, streamBytes]
  simp only [videoData_toNat, audioData_toNat, List.length_drop]
  by_cases haudio : m.type = MessageType.audioData
  · rw [if_neg (by rw [haudio]; decide)]
    by_cases hlong : 16 < m.payload.length
    · rw [if_pos ⟨haudio, by omega⟩, if_pos (by omega)]
      by_cases hkey : key = (wordAt m.payload 0, wordAt m.payload 8)
      · simp only [haudio, hlong, hkey, if_true, true_and]
      · simp only [hkey, Ne.symm hkey, if_false, and_false, List.append_nil]
    · rw [if_neg (c := m.type = MessageType.audioData ∧ 16 < m.payload.length ∧ _)
        (fun h => hlong h.2.1), List.append_nil]
      split_ifs
      · omega
      · rfl
      · rfl
  · simp only [haudio, false_and, if_false, List.append_nil]
    split_ifs <;> rfl

/-- The payload as the read thread has it. -/
def payloadOf (m : Message) : Option (List Byte) := if m.payload = [] then none else some m.payload

/-- The callback of a video message. -/
theorem ownCallback_video (h : m.type = MessageType.videoData) :
    ∃ isParams : VideoMessage → Bool, ownCallback m.header m.payload =
      (VideoMessage.parse (payloadOf m) m.payload.length).map fun vm =>
        Callback.observed (.onVideoFrame vm ((payloadOf m).getD []) (isParams vm)) := by
  refine ⟨fun vm => (Reader.init.paramCache.offer vm ((payloadOf m).getD [])).1, ?_⟩
  have htype : m.header.type = MessageType.videoData := h
  rw [ownCallback, ← payloadOf, dispatch, if_pos htype]
  cases hvm : VideoMessage.parse (payloadOf m) m.header.length <;>
    rw [Message.header_length] at hvm <;> rw [hvm] <;> rfl

/-- The callback of an audio message. -/
theorem ownCallback_audio (h : m.type = MessageType.audioData) :
    ownCallback m.header m.payload =
      (AudioMessage.parse (payloadOf m) m.payload.length).map fun am =>
        Callback.observed (.onAudio am ((payloadOf m).getD [])) := by
  have htype : m.header.type = MessageType.audioData := h
  rw [ownCallback, ← payloadOf, dispatch, if_neg (by rw [htype]; decide), if_pos htype]
  cases ham : AudioMessage.parse (payloadOf m) m.header.length <;>
    rw [Message.header_length] at ham <;> rw [ham] <;> rfl

/-- The callbacks of the other messages have neither video nor PCM data. -/
theorem ownCallback_other (hvideo : m.type ≠ MessageType.videoData)
    (haudio : m.type ≠ MessageType.audioData) {c : Callback}
    (hc : c ∈ ownCallback m.header m.payload) : frame c = [] ∧ pcm key c = [] := by
  have hvideo' : m.header.type ≠ MessageType.videoData := hvideo
  have haudio' : m.header.type ≠ MessageType.audioData := haudio
  rw [ownCallback, ← payloadOf, dispatch, if_neg hvideo', if_neg haudio'] at hc
  split_ifs at hc
  · cases hc
    exact ⟨rfl, rfl⟩
  · cases hc
    exact ⟨rfl, rfl⟩
  · cases hfirst : firstInt (payloadOf m) m.header.length with
    | none =>
        rw [hfirst] at hc
        cases hc
    | some command =>
        rw [hfirst] at hc
        cases hc
        exact ⟨rfl, rfl⟩
  · cases hc
    exact ⟨rfl, rfl⟩

theorem payloadOf_of_nil (h : m.payload = []) : payloadOf m = none := if_pos h

theorem payloadOf_of_ne_nil (h : m.payload ≠ []) : payloadOf m = some m.payload := if_neg h

/-- Callbacks without data. -/
theorem flatMap_toList_eq_nil {f : Callback → List Byte} {c : Option Callback}
    (h : ∀ x ∈ c, f x = []) : c.toList.flatMap f = [] := by
  cases c with
  | none => rfl
  | some x => rw [Option.toList_some, List.flatMap_singleton, h x rfl]

/-- The app's frame of a message. -/
theorem frame_ownCallback (m : Message) :
    (ownCallback m.header m.payload).toList.flatMap frame = videoBytes m := by
  rw [videoBytes]
  by_cases hvideo : m.type = MessageType.videoData
  · obtain ⟨isParams, hcallback⟩ := ownCallback_video hvideo
    rw [if_pos hvideo, hcallback]
    by_cases hempty : m.payload = []
    · rw [payloadOf_of_nil hempty, hempty]
      rfl
    · rw [payloadOf_of_ne_nil hempty]
      by_cases hshort : m.payload.length ≤ 20
      · rw [show VideoMessage.parse (some m.payload) m.payload.length = none from if_pos hshort,
          List.drop_eq_nil_of_le hshort]
        rfl
      · rw [show VideoMessage.parse (some m.payload) m.payload.length =
          some ⟨_, _, _, 20, m.payload.length - 20⟩ from if_neg hshort]
        simp [Callback.observed, frame]
  · rw [if_neg hvideo]
    by_cases haudio : m.type = MessageType.audioData
    · rw [ownCallback_audio haudio]
      cases AudioMessage.parse (payloadOf m) m.payload.length <;> rfl
    · exact flatMap_toList_eq_nil fun c hc =>
        (@ownCallback_other m (0, 0) hvideo haudio c hc).1

/-- The app's PCM data of a message: what the script records, or a stub. -/
theorem pcm_ownCallback (key : Stream) (m : Message) :
    (ownCallback m.header m.payload).toList.flatMap (pcm key) =
      if StubOf key m then m.payload.drop 12 else streamBytes key m := by
  by_cases haudio : m.type = MessageType.audioData
  · rw [ownCallback_audio haudio]
    -- a message without PCM data
    have hquiet : m.payload.length ≤ 13 ∨ m.payload.length = 16 →
        (if StubOf key m then m.payload.drop 12 else streamBytes key m) = [] := fun h => by
      rw [if_neg fun hstub => by have := hstub.2.1; omega, streamBytes,
        if_neg fun hlong => by have := hlong.2.1; omega]
    by_cases hempty : m.payload = []
    · rw [payloadOf_of_nil hempty, hquiet (.inl (by rw [hempty]; exact Nat.zero_le _))]
      rfl
    · rw [payloadOf_of_ne_nil hempty]
      have hparse : AudioMessage.parse (some m.payload) m.payload.length =
          if m.payload.length < 12 then none
          else if m.payload.length - 12 = 1 then
            some ⟨wordAt m.payload 0, wordAt m.payload 4, wordAt m.payload 8, .command, _, 0, 0, 0⟩
          else if m.payload.length - 12 = 4 then
            some ⟨wordAt m.payload 0, wordAt m.payload 4, wordAt m.payload 8, .volumeDuration, 0, _,
              0, 0⟩
          else
            some ⟨wordAt m.payload 0, wordAt m.payload 4, wordAt m.payload 8, .pcm, 0, 0, 12,
              m.payload.length - 12⟩ := rfl
      rw [hparse]
      by_cases hshort : m.payload.length < 12
      · rw [if_pos hshort, hquiet (by omega)]
        rfl
      rw [if_neg hshort]
      by_cases hone : m.payload.length - 12 = 1
      · rw [if_pos hone, hquiet (by omega)]
        simp [Callback.observed, pcm]
      rw [if_neg hone]
      by_cases hfour : m.payload.length - 12 = 4
      · rw [if_pos hfour, hquiet (by omega)]
        simp [Callback.observed, pcm]
      rw [if_neg hfour]
      have hdata : (m.payload.drop 12).take (m.payload.length - 12) = m.payload.drop 12 :=
        List.take_of_length_le (by rw [List.length_drop])
      simp only [Option.map_some, Option.toList_some, List.flatMap_singleton, Callback.observed,
        Option.getD_some, pcm, true_and, hdata]
      by_cases hkey : (wordAt m.payload 0, wordAt m.payload 8) = key
      · rw [if_pos hkey]
        by_cases hstub : m.payload.length = 14 ∨ m.payload.length = 15
        · rw [if_pos ⟨haudio, hstub, hkey⟩]
        · rw [if_neg fun h => hstub h.2.1, streamBytes]
          by_cases hlong : 16 < m.payload.length
          · rw [if_pos ⟨haudio, hlong, hkey⟩]
          · rw [if_neg fun h => hlong h.2.1]
            exact List.drop_eq_nil_of_le (by omega)
      · rw [if_neg hkey, if_neg fun h => hkey h.2.2, streamBytes, if_neg fun h => hkey h.2.2]
  · rw [if_neg fun h => haudio h.1, streamBytes, if_neg fun h => haudio h.1]
    by_cases hvideo : m.type = MessageType.videoData
    · obtain ⟨isParams, hcallback⟩ := ownCallback_video hvideo
      rw [hcallback]
      cases VideoMessage.parse (payloadOf m) m.payload.length <;> rfl
    · exact flatMap_toList_eq_nil fun c hc => (ownCallback_other hvideo haudio hc).2

/-! ### All messages -/

theorem flatMap_callbacks (f : Callback → List Byte) (ms : List Message) :
    (callbacks ms).flatMap f =
      ms.flatMap fun m => (ownCallback m.header m.payload).toList.flatMap f := by
  induction ms with
  | nil => rfl
  | cons m ms ih =>
      rw [callbacks, List.filterMap_cons, List.flatMap_cons, ← ih]
      cases ownCallback m.header m.payload with
      | none => rfl
      | some c => simp [callbacks]

theorem vfh_run (x : State) (ms : List Message) :
    (run step x ms).vfh = x.vfh ++ (callbacks ms).flatMap frame := by
  rw [flatMap_callbacks]
  induction ms generalizing x with
  | nil => exact (List.append_nil _).symm
  | cons m ms ih =>
      rw [run_cons, ih, step_vfh, List.flatMap_cons, frame_ownCallback, List.append_assoc]

theorem apcm_run (x : State) (ms : List Message) (key : Stream) :
    (run step x ms).apcm key = x.apcm key ++ ms.flatMap (streamBytes key) := by
  induction ms generalizing x with
  | nil => exact (List.append_nil _).symm
  | cons m ms ih => rw [run_cons, ih, step_apcm, List.flatMap_cons, List.append_assoc]

theorem video_run (x : State) (ms : List Message) :
    (run step x ms).video = x.video + ms.countP (·.type = MessageType.videoData) := by
  induction ms generalizing x with
  | nil => rfl
  | cons m ms ih =>
      have hstep : (step x m).video =
          x.video + if m.type = MessageType.videoData then 1 else 0 := by
        rw [step]
        simp only [videoData_toNat]
        split_ifs <;> rfl
      rw [run_cons, ih, hstep, List.countP_cons]
      simp only [decide_eq_true_eq]
      omega

/-- **The same bytes, or a stub.** -/
theorem apcm_eq_iff (ms : List Message) (key : Stream) :
    ms.flatMap (streamBytes key) = (callbacks ms).flatMap (pcm key) ↔
      ∀ m ∈ ms, ¬ StubOf key m := by
  rw [flatMap_callbacks]
  simp only [pcm_ownCallback]
  constructor
  · intro h m hm hstub
    -- a stub makes the stream of the app longer
    have hlength := congrArg List.length h
    rw [List.length_flatMap, List.length_flatMap] at hlength
    refine absurd hlength (Nat.ne_of_lt (List.sum_lt_sum _ _ (fun m' _ => ?_) ⟨m, hm, ?_⟩))
    · split_ifs with hstub'
      · rw [streamBytes, if_neg fun hlong => by have := hlong.2.1; have := hstub'.2.1; omega]
        exact Nat.zero_le _
      · exact le_rfl
    · rw [if_pos hstub, streamBytes,
        if_neg fun hlong => by have := hlong.2.1; have := hstub.2.1; omega, List.length_drop]
      have := hstub.2.1
      show 0 < m.payload.length - 12
      omega
  · intro h
    exact List.flatMap_congr fun m hm => (if_neg (h m hm)).symm

/-- The script and the app have one table of formats. -/
theorem formats_eq (d : BitVec 32) :
    formats d.toNat = (formatOf d).map fun f => (f.sampleRate, f.channels, f.bitsPerSample) := by
  unfold formats formatOf
  generalize d.toNat = n
  -- below eight both tables are read off, and from eight on neither has a row
  rcases Nat.lt_or_ge n 8 with hrow | hnone
  · interval_cases n <;> rfl
  · obtain ⟨k, rfl⟩ := Nat.exists_eq_add_of_le' hnone
    rfl

/-- **The files of a session.**  The H.264 file is what the app hands to its renderer, one frame
after another, and is there when a video message came.  The WAV file of a stream is what the app
plays of it, in the same format, exactly when the stream has no stub; or there is none, because
the format is not known. -/
theorem files_eq (ms : List Message) :
    (h264 (run step start ms) =
      if ∃ m ∈ ms, m.type = MessageType.videoData then some ((callbacks ms).flatMap frame)
      else none) ∧
      ∀ key, wav (run step start ms) key = played key ms ↔
        formatOf key.1 = none ∨ ∀ m ∈ ms, ¬ StubOf key m := by
  constructor
  · rw [h264, vfh_run, video_run]
    by_cases hvideo : ∃ m ∈ ms, m.type = MessageType.videoData
    · have hcount : 0 < ms.countP (·.type = MessageType.videoData) :=
        List.countP_pos_iff.2 (by simpa using hvideo)
      rw [if_pos hvideo, if_neg (by simp only [start]; omega)]
      rfl
    · have hcount : ms.countP (·.type = MessageType.videoData) = 0 :=
        List.countP_eq_zero.2 (by simpa using hvideo)
      rw [if_neg hvideo, hcount]
      rfl
  · intro key
    rw [wav, played, formats_eq, apcm_run, start, List.nil_append, ← apcm_eq_iff]
    cases formatOf key.1 with
    | none => simp
    | some f =>
        simp only [Option.map_some, Option.bind_some, reduceCtorEq, false_or]
        constructor
        · intro h
          split_ifs at h with hrecorded hplayed hplayed
          · rw [hrecorded, hplayed]
          · injection h with h
            injection h
        · intro h
          rw [h]

/-- Music in stream 4, with a stub in between. -/
def music (n : ℕ) (h : 12 + n < 2 ^ 31) : Message :=
  ⟨MessageType.audioData, [4, 0, 0, 0, 0, 0, 0, 0, 1, 0, 0, 0] ++ List.replicate n 7, by
    rw [List.length_append, List.length_replicate]
    exact h⟩

/-- The two bytes of the stub are played and not recorded. -/
example :
    played (4, 1) [music 5 (by decide), music 2 (by decide)] =
        some ⟨2, 2, 48000, List.replicate 7 7⟩ ∧
      wav (run step start [music 5 (by decide), music 2 (by decide)]) (4, 1) =
        some ⟨2, 2, 48000, List.replicate 5 7⟩ := by
  decide

end Recording
end Bench
end Carlinkit
