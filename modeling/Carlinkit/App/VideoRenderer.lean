/-
# The video renderer

`CarlinkitVideoRenderer` on top of `OMXVideoCodec`.  It holds at most one codec;
every codec is bound to one Surface and takes one buffer after another.  Its
methods are `synchronized`, so each of them is one step for every other thread.

What the native side and the Surface do is part of the call (`Started`): whether
the Surface is valid, its size, and how `setSurface` and `init` came out.  A codec
that the renderer let go of stays in `retired`, and `deleted` says whether
`shutdown` ran.  `cached` is a note for the proofs: whether the parameter set cache
held something when the codec was made.

The dongle sends SPS and PPS once, so what matters for a codec is the first buffer
it gets: `Codec.Right`.  `right_onFrame_iff` says when handing over a frame is wrong:
when the codec is `Bare` and the frame does not start with an SPS.
-/

import Carlinkit.Protocol.Video

namespace Carlinkit
namespace App

open Framing Protocol

/-- A video frame as the driver hands it over: the H.264 part lies in the array. -/
structure Frame where
  msg : VideoMessage
  payload : List Byte
  inside : msg.dataOffset + msg.dataLength ≤ payload.length
deriving DecidableEq

/-- The frame starts with an SPS. -/
def Frame.StartsWithSps (f : Frame) : Prop :=
  firstNalType f.payload f.msg.dataOffset f.msg.dataLength = nalSps

instance (f : Frame) : Decidable f.StartsWithSps := inferInstanceAs (Decidable (_ = _))

/-- `firstNalType` finds an SPS only behind a start code and with its own byte. -/
theorem Frame.StartsWithSps.five_le {f : Frame} (h : f.StartsWithSps) :
    5 ≤ f.msg.dataLength := by
  by_contra hlt
  have hzero : f.msg.dataOffset + f.msg.dataLength - 4 - f.msg.dataOffset = 0 := by omega
  simp [Frame.StartsWithSps, firstNalType, hzero, firstNalTypeLoop, nalSps] at h

/-- What `mediaDecode` gets. -/
inductive Buffer
  | frame (f : Frame)
  | parameterSets (bytes : List Byte)
deriving DecidableEq

/-- A decoder can start with this buffer. -/
def Buffer.Opens : Buffer → Prop
  | .frame f => f.StartsWithSps
  | .parameterSets _ => True

instance : ∀ b : Buffer, Decidable b.Opens
  | .frame f => inferInstanceAs (Decidable f.StartsWithSps)
  | .parameterSets _ => .isTrue trivial

/-- An `OMXVideoCodec`. -/
structure Codec where
  fps : ℕ
  surface : ℕ
  width : ℕ
  height : ℕ
  cached : Bool
  handed : List Buffer
  deleted : Bool
deriving DecidableEq

/-- The first buffer of a codec that was made while SPS and PPS were known. -/
def Codec.Right (c : Codec) : Prop := c.cached = true → ∀ b ∈ c.handed.head?, b.Opens

instance (c : Codec) : Decidable c.Right := inferInstanceAs (Decidable (_ → _))

/-- How `setSurface` and `init` come out. -/
inductive Init
  | ok
  | refused
  | threw
deriving DecidableEq, Repr

/-- The Surface and the native side at a call of `start`. -/
structure Started where
  valid : Bool
  width : ℕ
  height : ℕ
  init : Init
deriving DecidableEq, Repr

/-- `CarlinkitVideoRenderer`. -/
structure VideoRenderer where
  fps : ℕ
  surfaceView : Option ℕ
  codec : Option Codec
  running : Bool
  frames : ℕ
  decodeMaxMs : ℕ
  decodeSlowCount : ℕ
  decodeTotalMs : ℕ
  decodeStatsLastFrames : ℕ
  retired : List Codec
deriving DecidableEq

namespace VideoRenderer

/-- `DECODE_SLOW_MS`. -/
def decodeSlowMs : ℕ := 40

/-- `new CarlinkitVideoRenderer(fps)`. -/
def new (fps : ℕ) : VideoRenderer := ⟨fps, none, none, false, 0, 0, 0, 0, 0, []⟩

/-- `setSurfaceView`. -/
def setSurfaceView (view : Option ℕ) (r : VideoRenderer) : VideoRenderer :=
  { r with surfaceView := view }

/-- `start`. -/
def start (cached : Bool) (o : Started) (r : VideoRenderer) : Bool × VideoRenderer :=
  match r.surfaceView with
  | none => (false, r)
  | some view =>
      if o.valid = false then (false, r)
      else if r.running then (true, r)
      else
        let codec : Codec := ⟨r.fps, view, o.width, o.height, cached, [], false⟩
        if o.init = .ok then
          (true, { r with codec := some codec, running := true, frames := 0 })
        else
          -- refused or threw: the codec is dropped without a `shutdown`
          (false, { r with codec := none, retired := r.retired ++ [codec] })

/-- `stop`. -/
def stop (r : VideoRenderer) : VideoRenderer :=
  if r.running then
    { r with
      running := false
      codec := none
      retired := r.retired ++ r.codec.toList.map fun c => { c with deleted := true } }
  else r

/-- `mediaDecode`: hands the buffer to the codec. -/
def hand (b : Buffer) (r : VideoRenderer) : VideoRenderer :=
  { r with codec := r.codec.map fun c => { c with handed := c.handed ++ [b] } }

/-- What `onFrame` notes of a decode that took `ms` milliseconds. -/
def record (ms : ℕ) (r : VideoRenderer) : VideoRenderer :=
  { r with
    decodeMaxMs := max r.decodeMaxMs ms
    decodeSlowCount := if decodeSlowMs ≤ ms then r.decodeSlowCount + 1 else r.decodeSlowCount
    decodeTotalMs := r.decodeTotalMs + ms
    frames := r.frames + 1 }

/-- `onFrame`, with a decode that takes `ms` milliseconds. -/
def onFrame (f : Frame) (ms : ℕ) (r : VideoRenderer) : VideoRenderer :=
  if r.running ∧ r.codec ≠ none then
    -- `isSps` throws on a buffer of less than five bytes
    if f.msg.dataLength < 5 then hand (.frame f) r else record ms (hand (.frame f) r)
  else r

/-- `reinjectParameterSets`. -/
def reinjectParameterSets (parameterSets : Option (List Byte)) (r : VideoRenderer) :
    VideoRenderer :=
  match parameterSets with
  | none => r
  | some bytes =>
      if r.running ∧ r.codec ≠ none ∧ 5 ≤ bytes.length then hand (.parameterSets bytes) r else r

/-- `drainDecodeStats`: the line for the heartbeat, and the counters of the next one. -/
def drainDecodeStats (r : VideoRenderer) : Option String × VideoRenderer :=
  (if r.frames ≤ r.decodeStatsLastFrames then none
    else some ("max=" ++ toString r.decodeMaxMs ++ "ms slow=" ++ toString r.decodeSlowCount ++
      " avg=" ++ toString (r.decodeTotalMs / (r.frames - r.decodeStatsLastFrames)) ++ "ms"),
    { r with
      decodeStatsLastFrames := r.frames
      decodeMaxMs := 0
      decodeSlowCount := 0
      decodeTotalMs := 0 })

/-! ## What a codec gets first -/

/-- Every codec that the renderer ever made got the right buffer first. -/
structure Right (r : VideoRenderer) : Prop where
  codec : ∀ c ∈ r.codec, c.Right
  retired : ∀ c ∈ r.retired, c.Right

instance (r : VideoRenderer) : Decidable r.Right :=
  decidable_of_iff ((∀ c ∈ r.codec, c.Right) ∧ ∀ c ∈ r.retired, c.Right)
    ⟨fun h => ⟨h.1, h.2⟩, fun h => ⟨h.codec, h.retired⟩⟩

/-- There is a codec that was made while SPS and PPS were known, and it got nothing
so far. -/
def Bare (r : VideoRenderer) : Prop :=
  r.running = true ∧ ∃ c ∈ r.codec, c.cached = true ∧ c.handed = []

instance (r : VideoRenderer) : Decidable r.Bare :=
  inferInstanceAs (Decidable (_ ∧ ∃ c ∈ r.codec, _))

variable {r : VideoRenderer}

theorem right_new (fps : ℕ) : (new fps).Right := ⟨by simp [new], by simp [new]⟩

theorem Right.setSurfaceView (h : r.Right) (view : Option ℕ) : (r.setSurfaceView view).Right :=
  ⟨h.codec, h.retired⟩

/-- A new codec got nothing yet. -/
theorem Right.start (h : r.Right) (cached : Bool) (o : Started) : (r.start cached o).2.Right := by
  unfold VideoRenderer.start
  split
  · exact h
  · split_ifs
    · exact h
    · exact h
    · exact ⟨by simp [Codec.Right], h.retired⟩
    · refine ⟨by simp, ?_⟩
      intro c hc
      rcases List.mem_append.1 hc with hc | hc
      · exact h.retired c hc
      · obtain rfl := List.mem_singleton.1 hc
        simp [Codec.Right]

theorem Right.stop (h : r.Right) : r.stop.Right := by
  unfold VideoRenderer.stop
  split_ifs
  · refine ⟨by simp, ?_⟩
    intro c hc
    rcases List.mem_append.1 hc with hc | hc
    · exact h.retired c hc
    · obtain ⟨c', hc', rfl⟩ := List.mem_map.1 hc
      exact h.codec c' (by simpa using hc')
  · exact h

/-- A buffer is the first one of a codec, or the first one stays. -/
theorem head?_hand (c : Codec) (b : Buffer) :
    (c.handed ++ [b]).head? = if c.handed = [] then some b else c.handed.head? := by
  cases c.handed <;> simp

/-- Handing over is wrong only for the first buffer. -/
theorem right_hand_iff (h : r.Right) (hrun : r.running = true) (b : Buffer) :
    (r.hand b).Right ↔ (r.Bare → b.Opens) := by
  constructor
  · rintro ⟨hright, -⟩ ⟨-, c, hc, hcached, hnil⟩
    have hc' := hright { c with handed := c.handed ++ [b] } (by simp [hand, Option.mem_def.1 hc])
    exact hc' hcached b (by simp [hnil])
  · intro hopens
    refine ⟨?_, h.retired⟩
    intro c' hc'
    obtain ⟨c, hc, rfl⟩ : ∃ c, r.codec = some c ∧ { c with handed := c.handed ++ [b] } = c' := by
      simpa [hand] using hc'
    intro hcached b' hb'
    rw [head?_hand] at hb'
    split_ifs at hb' with hnil
    · obtain rfl : b = b' := by simpa using hb'
      exact hopens ⟨hrun, c, hc, hcached, hnil⟩
    · exact h.codec c hc hcached b' hb'

theorem right_record {ms : ℕ} : (r.record ms).Right ↔ r.Right :=
  ⟨fun h => ⟨h.codec, h.retired⟩, fun h => ⟨h.codec, h.retired⟩⟩

/-- **A frame goes wrong only at the front.**  The codec was made while SPS and PPS
were known, it got nothing so far, and the frame has no SPS. -/
theorem right_onFrame_iff (h : r.Right) (f : Frame) (ms : ℕ) :
    (r.onFrame f ms).Right ↔ (r.Bare → f.StartsWithSps) := by
  unfold onFrame
  split_ifs with hrun
  · exact right_hand_iff h hrun.1 (.frame f)
  · rw [right_record]
    exact right_hand_iff h hrun.1 (.frame f)
  · have hbare : ¬ r.Bare := by
      rintro ⟨hr, c, hc, -⟩
      exact hrun ⟨hr, by simp [Option.mem_def.1 hc]⟩
    exact ⟨fun _ hb => absurd hb hbare, fun _ => h⟩

/-- The parameter sets are always right. -/
theorem Right.reinjectParameterSets (h : r.Right) (parameterSets : Option (List Byte)) :
    (r.reinjectParameterSets parameterSets).Right := by
  unfold VideoRenderer.reinjectParameterSets
  split
  · exact h
  · split_ifs with hrun
    · exact (right_hand_iff h hrun.1 _).2 fun _ => trivial
    · exact h

/-! ## When a codec is bare -/

/-- What was handed over is no longer to be handed over first. -/
theorem not_bare_hand (r : VideoRenderer) (b : Buffer) : ¬ (r.hand b).Bare := by
  rintro ⟨-, c', hc', -, hnil⟩
  obtain ⟨c, -, rfl⟩ : ∃ c, r.codec = some c ∧ { c with handed := c.handed ++ [b] } = c' := by
    simpa [hand] using hc'
  simp at hnil

theorem not_bare_onFrame (r : VideoRenderer) (f : Frame) (ms : ℕ) : ¬ (r.onFrame f ms).Bare := by
  unfold onFrame
  split_ifs with hrun
  · exact not_bare_hand r _
  · exact not_bare_hand r _
  · rintro ⟨hr, c, hc, -⟩
    exact hrun ⟨hr, by simp [Option.mem_def.1 hc]⟩

theorem not_bare_stop (r : VideoRenderer) : ¬ r.stop.Bare := by
  unfold stop
  split_ifs with hrun
  · simp [Bare]
  · simp [Bare, hrun]

/-- Parameter sets of five bytes or more reach a bare codec. -/
theorem not_bare_reinjectParameterSets (r : VideoRenderer) {bytes : List Byte}
    (h : 5 ≤ bytes.length) : ¬ (r.reinjectParameterSets (some bytes)).Bare := by
  simp only [reinjectParameterSets]
  split_ifs with hrun
  · exact not_bare_hand r _
  · rintro ⟨hr, c, hc, -⟩
    exact hrun ⟨hr, by simp [Option.mem_def.1 hc], h⟩

theorem bare_of_reinjectParameterSets {parameterSets : Option (List Byte)}
    (h : (r.reinjectParameterSets parameterSets).Bare) : r.Bare := by
  unfold reinjectParameterSets at h
  split at h
  · exact h
  · split_ifs at h
    · exact absurd h (not_bare_hand r _)
    · exact h

/-- A call of `start` that leaves a bare codec found it, or made it while SPS and PPS
were known. -/
theorem bare_start {cached : Bool} {o : Started} (h : (r.start cached o).2.Bare) :
    r.Bare ∨ (cached = true ∧ r.running = false ∧ (r.start cached o).1 = true) := by
  unfold start at h ⊢
  split at h
  · exact .inl h
  · split_ifs at h ⊢ with hvalid hrun hinit
    · exact .inl h
    · exact .inl h
    · obtain ⟨-, c, hc, hcached, -⟩ := h
      obtain rfl := Option.some.inj hc
      exact .inr ⟨hcached, by simpa using hrun, rfl⟩
    · simp [Bare] at h

end VideoRenderer
end App
end Carlinkit
