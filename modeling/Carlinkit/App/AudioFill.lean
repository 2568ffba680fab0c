/-
# How far the audio is ahead of the speaker

`CarlinkitAudioPlayer`: `fillFrames`, `adoptFormat`, `recordFill`, `resetFrames` and
`trackFrames`, under what the worker does, one item after another (`Fill.step`).

An `AudioTrack` tells how many frames it rendered since it was made or last flushed, in
32 bits, and the worker counts how many frames it wrote to it since then.  `written` and
`rendered` are the two numbers as they really are.

* A track renders between two items (`FillEvent.render`) and between the write of an item
  and the reading of the head after it (`FillEvent.pcm`).  Elsewhere in an item it makes
  no difference: a track that was flushed has nothing to render.
* No call of a track throws; one that is new may not initialise.
* `play` and `pause` do not concern the counters, and are left out.

`fillTold_iff` says when `fillFrames` tells the right number: not around a multiple of
2^32, although it has a branch for it.  `counters_run` says that below 2^32 frames between
flushes the counters of all tracks are right after every item.
-/

import Carlinkit.App.AudioPlayer

namespace Carlinkit
namespace App
namespace Audio

open Framing Protocol Machine

/-! ### `fillFrames` -/

/-- `FILL_DESYNC`, which is `Long.MIN_VALUE`. -/
def fillDesync : ℤ := -2 ^ 63

/-- `fillFrames`. -/
def fillFrames (written head : ℤ) : ℤ :=
  let diff := written % 2 ^ 32 - head
  if 0 ≤ diff then diff
  else if 0xF0000000 < written % 2 ^ 32 then diff + 2 ^ 32
  else fillDesync

/-- `fillFrames` tells what is left of `W` written frames when `H` are rendered, or that
there cannot be as many. -/
structure FillTold (W H : ℕ) : Prop where
  fill : H ≤ W → fillFrames W (H % 2 ^ 32 : ℕ) = W - H
  desync : W < H → fillFrames W (H % 2 ^ 32 : ℕ) = fillDesync
  small : fillFrames W (H % 2 ^ 32 : ℕ) < 2 ^ 28

/-- Nothing wraps before 2^32. -/
theorem fillFrames_of_lt {W H : ℕ} (hHW : H ≤ W) (hW : W < 2 ^ 32) :
    fillFrames W (H % 2 ^ 32 : ℕ) = W - H := by
  have hw : ((W : ℤ) % 2 ^ 32) = W := by omega
  have hh : ((H % 2 ^ 32 : ℕ) : ℤ) = H := by omega
  rw [fillFrames, hw, hh, if_pos (by omega)]

/-- **When a fill is told right.**  The frames written and the frames rendered have to be in
the same 2^32 frames; and when more are rendered than were written, the written ones must
not be at the top of them. -/
theorem fillTold_iff {W H : ℕ} (hW : W < H + 2 ^ 28) (hH : H < W + 2 ^ 28) :
    FillTold W H ↔
      (H ≤ W → W / 2 ^ 32 = H / 2 ^ 32) ∧ (W < H → W % 2 ^ 32 ≤ 0xF0000000) := by
  have hcases : fillFrames W (H % 2 ^ 32 : ℕ) =
      if H % 2 ^ 32 ≤ W % 2 ^ 32 then ((W % 2 ^ 32 : ℕ) : ℤ) - (H % 2 ^ 32 : ℕ)
      else if 0xF0000000 < W % 2 ^ 32 then ((W % 2 ^ 32 : ℕ) : ℤ) - (H % 2 ^ 32 : ℕ) + 2 ^ 32
      else fillDesync := by
    simp only [fillFrames]
    split_ifs <;> omega
  constructor
  · intro h
    constructor
    · intro hHW
      have hfill := h.fill hHW
      rw [hcases] at hfill
      by_contra hne
      rw [if_neg (by omega), if_neg (by omega), fillDesync] at hfill
      omega
    · intro hWH
      have hsmall := h.small
      rw [hcases] at hsmall
      by_contra htop
      split_ifs at hsmall <;> omega
  · rintro ⟨hfill, hdesync⟩
    have hright : fillFrames W (H % 2 ^ 32 : ℕ) =
        if H ≤ W then (W : ℤ) - H else fillDesync := by
      rw [hcases]
      by_cases hHW : H ≤ W
      · have hblock := hfill hHW
        rw [if_pos (by omega), if_pos hHW]
        omega
      · have htop := hdesync (by omega)
        rw [if_neg (by omega), if_neg (by omega), if_neg hHW]
    refine ⟨fun hHW => by rw [hright, if_pos hHW], fun hWH => ?_, ?_⟩
    · rw [hright, if_neg (by omega)]
    · rw [hright, fillDesync]
      split_ifs <;> omega

/-- Shortly after both numbers passed 2^32. -/
theorem fillTold_iff_wrapped : FillTold (2 ^ 32 + 960) (2 ^ 32 + 480) ↔
    (2 ^ 32 + 480 ≤ 2 ^ 32 + 960 → (2 ^ 32 + 960) / 2 ^ 32 = (2 ^ 32 + 480) / 2 ^ 32) ∧
      (2 ^ 32 + 960 < 2 ^ 32 + 480 → (2 ^ 32 + 960) % 2 ^ 32 ≤ 0xF0000000) :=
  fillTold_iff (by decide) (by decide)

/-- With 2^32 frames written and all but one rendered, the code sees a desync; with all but one
written and 2^32 rendered, it sees 2^32 - 1 frames. -/
theorem not_fillTold_wrap :
    (¬ FillTold (2 ^ 32) (2 ^ 32 - 1) ∧ fillFrames (2 ^ 32) (2 ^ 32 - 1) = fillDesync) ∧
      ¬ FillTold (2 ^ 32 - 1) (2 ^ 32) ∧ fillFrames (2 ^ 32 - 1) 0 = 2 ^ 32 - 1 := by
  refine ⟨⟨fun h => ?_, by decide⟩, fun h => ?_, by decide⟩
  · exact absurd (h.fill (by decide)) (by decide)
  · exact absurd (h.desync (by decide)) (by decide)

/-! ### The counters -/

/-- The size of a frame in bytes. -/
def frameSize (f : Format) : ℕ := f.channels * (f.bitsPerSample / 8)

/-- The tracks of the worker with its counters, and what every `AudioTrack` is in truth. -/
structure Fill where
  tracks : Tracks
  trackFrames : BitVec 32 → Option ℕ
  currentFrameBytes : ℕ
  currentSampleRate : ℕ
  audioFillLastMs : ℤ
  audioFillMinMs : ℤ
  audioFillResyncCount : ℕ
  /-- The bytes of a frame of a track. -/
  frameBytes : ℕ → ℕ
  /-- The frames written to a track since it was made or last flushed. -/
  written : ℕ → ℕ
  /-- The frames of them that were rendered. -/
  rendered : ℕ → ℕ

/-- What comes to the worker, and what a track does by itself.

For PCM, `muted` is what the worker reads in `writePcm`; `ok` is that a new track initialises;
`write` takes `frames`, and `progress` are rendered before the head is read. -/
inductive FillEvent
  | pcm (decodeType : BitVec 32) (pcmLength : ℕ) (muted ok : Bool) (frames progress : ℕ)
  | command (c : AudioCommand) (decodeType : BitVec 32)
  | mute (muted : Bool)
  /-- `releaseTrack`, by the worker on its way out. -/
  | release
  /-- A track renders. -/
  | render (a frames : ℕ)
deriving DecidableEq, Repr

namespace Fill

/-- A new player. -/
def new : Fill where
  tracks := .new
  trackFrames _ := none
  currentFrameBytes := 0
  currentSampleRate := 0
  audioFillLastMs := -1
  audioFillMinMs := -1
  audioFillResyncCount := 0
  frameBytes _ := 0
  written _ := 0
  rendered _ := 0

/-- `adoptFormat`. -/
def adoptFormat (s : Fill) (decodeType : BitVec 32) : Fill :=
  match formatOf decodeType with
  | none => { s with currentFrameBytes := 0, currentSampleRate := 0 }
  | some f =>
      { s with
        currentFrameBytes := frameSize f
        currentSampleRate := f.sampleRate
        trackFrames :=
          if s.trackFrames decodeType = none then
            Function.update s.trackFrames decodeType (some 0)
          else s.trackFrames }

/-- `new AudioTrack`, with its format. -/
def create (s : Fill) (decodeType : BitVec 32) (f : Format) : Fill :=
  let a := s.tracks.made
  { s with
    tracks := { s.tracks.put decodeType a with made := a + 1 }
    frameBytes := Function.update s.frameBytes a (frameSize f)
    written := Function.update s.written a 0
    rendered := Function.update s.rendered a 0 }

/-- `ensureTrack`, with what it returns. -/
def ensureTrack (s : Fill) (decodeType : BitVec 32) (ok : Bool) : Bool × Fill :=
  match s.tracks.current decodeType with
  | some _ => (true, s)
  | none =>
      match s.tracks.get decodeType with
      | some a =>
          (true, { s with tracks := s.tracks.adopt decodeType a }.adoptFormat decodeType)
      | none =>
          match formatOf decodeType with
          | none => (false, s)
          | some f =>
              if ok then (true, (s.create decodeType f).adoptFormat decodeType) else (false, s)

/-- `AudioTrack.write`, which takes `frames`. -/
def write (s : Fill) (a frames : ℕ) : Fill :=
  { s with written := Function.update s.written a (s.written a + frames) }

/-- A track renders, but no more than it has. -/
def render (s : Fill) (a frames : ℕ) : Fill :=
  { s with rendered := Function.update s.rendered a (min (s.rendered a + frames) (s.written a)) }

/-- `AudioTrack.flush`. -/
def flush (s : Fill) (a : ℕ) : Fill :=
  { s with
    written := Function.update s.written a 0
    rendered := Function.update s.rendered a 0 }

/-- `getPlaybackHeadPosition() & 0xFFFFFFFFL`. -/
def head (s : Fill) (a : ℕ) : ℕ := s.rendered a % 2 ^ 32

/-- `recordFill`. -/
def recordFill (s : Fill) (bytes : ℕ) : Fill :=
  match s.tracks.track, s.trackFrames s.tracks.currentDecodeType with
  | some a, some box =>
      if s.currentFrameBytes = 0 ∨ s.currentSampleRate = 0 then s
      else
        let box := box + bytes / s.currentFrameBytes
        let frames := fillFrames box (s.head a)
        if frames = fillDesync then
          { s with
            trackFrames :=
              Function.update s.trackFrames s.tracks.currentDecodeType (some (s.head a))
            audioFillResyncCount := s.audioFillResyncCount + 1 }
        else
          let fillMs := (frames * 1000).tdiv s.currentSampleRate
          { s with
            trackFrames := Function.update s.trackFrames s.tracks.currentDecodeType (some box)
            audioFillLastMs := fillMs
            audioFillMinMs :=
              if s.audioFillMinMs < 0 ∨ fillMs < s.audioFillMinMs then fillMs
              else s.audioFillMinMs }
  | _, _ => s

/-- `track.write` and `recordWrite`. -/
def writeTrack (s : Fill) (frames progress : ℕ) : Fill :=
  match s.tracks.track with
  | some a =>
      let n := frames * s.frameBytes a
      let s := (s.write a frames).render a progress
      if 0 < n then s.recordFill n else s
  | none => s

/-- `writePcm`. -/
def writePcm (s : Fill) (decodeType : BitVec 32) (pcmLength : ℕ) (muted ok : Bool)
    (frames progress : ℕ) : Fill :=
  if muted ∨ pcmLength = 0 then s
  else
    let (ready, s) := s.ensureTrack decodeType ok
    if ready then s.writeTrack frames progress else s

/-- `resetFrames`. -/
def resetFrames (s : Fill) (decodeType : BitVec 32) : Fill :=
  { s with
    trackFrames :=
      Function.update s.trackFrames decodeType ((s.trackFrames decodeType).map fun _ => 0) }

/-- `handleCommand`. -/
def handleCommand (s : Fill) (c : AudioCommand) (decodeType : BitVec 32) : Fill :=
  match if isStop c then s.tracks.get decodeType else none with
  | some a => (s.flush a).resetFrames decodeType
  | none => s

/-- The reset of every counter. -/
def resetAll (s : Fill) : Fill :=
  { s with
    trackFrames := fun d => (s.trackFrames d).map fun _ => 0
    audioFillLastMs := -1
    audioFillMinMs := -1 }

/-- `applyMuted`. -/
def applyMuted (s : Fill) (muted : Bool) : Fill :=
  if muted then (s.tracks.values.foldl flush s).resetAll else s

/-- `releaseTrack`. -/
def releaseTrack (s : Fill) : Fill :=
  { s with
    tracks := s.tracks.clear
    trackFrames := fun _ => none
    audioFillLastMs := -1
    audioFillMinMs := -1 }

/-- One item, or one progress of a track. -/
def step (s : Fill) : FillEvent → Fill
  | .pcm decodeType pcmLength muted ok frames progress =>
      s.writePcm decodeType pcmLength muted ok frames progress
  | .command c decodeType => s.handleCommand c decodeType
  | .mute muted => s.applyMuted muted
  | .release => s.releaseTrack
  | .render a frames => s.render a frames

/-! ### Every counter is right -/

/-- The counters are right, and no track has 2^32 frames. -/
structure Counted (s : Fill) : Prop where
  keyed : ∀ d, s.trackFrames d = (s.tracks.get d).map s.written
  known : ∀ d a, s.tracks.get d = some a → a < s.tracks.made ∧
    ∃ f, formatOf d = some f ∧ s.frameBytes a = frameSize f
  one : ∀ d e a, s.tracks.get d = some a → s.tracks.get e = some a → d = e
  current : ∀ a, s.tracks.track = some a →
    s.tracks.get s.tracks.currentDecodeType = some a ∧
      ∃ f, formatOf s.tracks.currentDecodeType = some f ∧
        s.currentFrameBytes = frameSize f ∧ s.currentSampleRate = f.sampleRate
  rendered : ∀ a, s.rendered a ≤ s.written a
  synced : s.audioFillResyncCount = 0

/-- Fewer than 2^32 frames were written to the current track. -/
def Fits (s : Fill) : Prop := ∀ a ∈ s.tracks.track, s.written a < 2 ^ 32

theorem counted_new : new.Counted where
  keyed _ := rfl
  known _ _ h := by cases h
  one _ _ _ h := by cases h
  current _ h := by cases h
  rendered _ := le_rfl
  synced := rfl

variable {s : Fill}

/-- The formats have frames, and a rate. -/
theorem frameSize_pos {d : BitVec 32} {f : Format} (h : formatOf d = some f) :
    0 < frameSize f ∧ 0 < f.sampleRate := by
  unfold formatOf at h
  split at h <;> first | (cases h; decide) | cases h

theorem get_put (ts : Tracks) (d e : BitVec 32) (a : ℕ) :
    (ts.put d a).get e = (ts.get e).or (if e = d then some a else none) := by
  show (ts.tracks ++ [(d, a)]).lookup e = _
  rw [List.lookup_append, Tracks.get]
  by_cases h : e = d
  · rw [h, if_pos rfl, List.lookup_cons_self]
  · have hne : (e == d) = false := beq_eq_false_iff_ne.2 h
    simp only [List.lookup_cons, hne, List.lookup_nil, if_neg h]

/-- The tracks of the map are the values of it. -/
theorem mem_values {ts : Tracks} {d : BitVec 32} {a : ℕ} (h : ts.get d = some a) :
    a ∈ ts.values := by
  obtain ⟨l, m, hl, -⟩ := List.lookup_eq_some_iff.1 h
  rw [Tracks.values, hl]
  simp

theorem adoptFormat_eq {d : BitVec 32} {f : Format} (hf : formatOf d = some f) :
    s.adoptFormat d =
      { s with
        currentFrameBytes := frameSize f
        currentSampleRate := f.sampleRate
        trackFrames :=
          if s.trackFrames d = none then Function.update s.trackFrames d (some 0)
          else s.trackFrames } := by
  rw [adoptFormat, hf]

theorem track_of_current {ts : Tracks} {d : BitVec 32} {a : ℕ} (ha : ts.current d = some a) :
    ts.track = some a ∧ ts.currentDecodeType = d := by
  unfold Tracks.current at ha
  split_ifs at ha with hd
  exact ⟨ha, hd⟩

/-- A track that exists becomes the current one. -/
theorem Counted.adopt (h : s.Counted) {d : BitVec 32} {a : ℕ} (ha : s.tracks.get d = some a) :
    ({ s with tracks := s.tracks.adopt d a }.adoptFormat d).Counted := by
  obtain ⟨f, hf, -⟩ := (h.known d a ha).2
  have hbox : s.trackFrames d ≠ none := by rw [h.keyed, ha]; simp
  rw [adoptFormat_eq hf]
  simp only [if_neg hbox]
  refine ⟨h.keyed, h.known, h.one, ?_, h.rendered, h.synced⟩
  intro b hb
  obtain rfl : a = b := Option.some.inj hb
  exact ⟨ha, f, hf, rfl, rfl⟩

/-- A new track starts with a counter at zero. -/
theorem Counted.create (h : s.Counted) {d : BitVec 32} {f : Format} (hf : formatOf d = some f)
    (hnone : s.tracks.get d = none) : ((s.create d f).adoptFormat d).Counted := by
  have hbox : s.trackFrames d = none := by rw [h.keyed, hnone, Option.map_none]
  have hget : ∀ e, (s.tracks.put d s.tracks.made).get e =
      if e = d then some s.tracks.made else s.tracks.get e := by
    intro e
    rw [get_put]
    by_cases he : e = d
    · rw [if_pos he, if_pos he, he, hnone, Option.none_or]
    · rw [if_neg he, if_neg he, Option.or_none]
  have hold : ∀ e b, s.tracks.get e = some b → b ≠ s.tracks.made := fun e b hb =>
    Nat.ne_of_lt (h.known e b hb).1
  rw [adoptFormat_eq hf, if_pos (show (s.create d f).trackFrames d = none from hbox)]
  refine ⟨fun e => ?_, fun e b hb => ?_, fun e e' b hb hb' => ?_, fun b hb => ?_, fun b => ?_,
    h.synced⟩
  · show Function.update s.trackFrames d (some 0) e =
      ((s.tracks.put d s.tracks.made).get e).map (Function.update s.written s.tracks.made 0)
    rw [hget]
    by_cases he : e = d
    · rw [if_pos he, he, Function.update_self, Option.map_some, Function.update_self]
    · rw [if_neg he, Function.update_of_ne he, h.keyed]
      refine Option.map_congr fun b hb => ?_
      rw [Function.update_of_ne (hold e b hb)]
  · replace hb : (s.tracks.put d s.tracks.made).get e = some b := hb
    rw [hget] at hb
    by_cases he : e = d
    · rw [if_pos he] at hb
      obtain rfl : s.tracks.made = b := Option.some.inj hb
      exact ⟨Nat.lt_succ_self _, f, he ▸ hf, Function.update_self ..⟩
    · rw [if_neg he] at hb
      obtain ⟨hlt, g, hg, hsize⟩ := h.known e b hb
      refine ⟨Nat.lt_succ_of_lt hlt, g, hg, ?_⟩
      show Function.update s.frameBytes s.tracks.made (frameSize f) b = _
      rw [Function.update_of_ne (hold e b hb), hsize]
  · replace hb : (s.tracks.put d s.tracks.made).get e = some b := hb
    replace hb' : (s.tracks.put d s.tracks.made).get e' = some b := hb'
    rw [hget] at hb hb'
    by_cases he : e = d <;> by_cases he' : e' = d
    · rw [he, he']
    · rw [if_pos he] at hb
      rw [if_neg he'] at hb'
      exact absurd (Option.some.inj hb).symm (hold e' b hb')
    · rw [if_neg he] at hb
      rw [if_pos he'] at hb'
      exact absurd (Option.some.inj hb').symm (hold e b hb)
    · rw [if_neg he] at hb
      rw [if_neg he'] at hb'
      exact h.one e e' b hb hb'
  · obtain rfl : s.tracks.made = b := Option.some.inj hb
    refine ⟨?_, f, hf, rfl, rfl⟩
    show (s.tracks.put d s.tracks.made).get d = _
    rw [hget, if_pos rfl]
  · show Function.update s.rendered s.tracks.made 0 b ≤ Function.update s.written s.tracks.made 0 b
    by_cases hb : b = s.tracks.made
    · rw [hb, Function.update_self, Function.update_self]
    · rw [Function.update_of_ne hb, Function.update_of_ne hb]
      exact h.rendered b

/-- `ensureTrack` keeps the counters, and when it is ready the track for the type is the current
one. -/
theorem Counted.ensureTrack (h : s.Counted) (d : BitVec 32) (ok : Bool) :
    (s.ensureTrack d ok).2.Counted ∧
      ((s.ensureTrack d ok).1 = true → ∃ a, (s.ensureTrack d ok).2.tracks.track = some a ∧
        (s.ensureTrack d ok).2.tracks.currentDecodeType = d) := by
  unfold Fill.ensureTrack
  cases hcurrent : s.tracks.current d with
  | some a => exact ⟨h, fun _ => ⟨a, track_of_current hcurrent⟩⟩
  | none =>
      cases hget : s.tracks.get d with
      | some a =>
          have hnext := h.adopt hget
          obtain ⟨f, hf, -⟩ := (h.known d a hget).2
          refine ⟨hnext, fun _ => ⟨a, ?_⟩⟩
          simp only [adoptFormat_eq hf]
          exact ⟨rfl, rfl⟩
      | none =>
          cases hf : formatOf d with
          | none => exact ⟨h, fun hready => absurd hready Bool.false_ne_true⟩
          | some f =>
              cases ok with
              | false => exact ⟨h, fun hready => absurd hready Bool.false_ne_true⟩
              | true =>
                  refine ⟨h.create hf hget, fun _ => ⟨s.tracks.made, ?_⟩⟩
                  simp only [if_true, adoptFormat_eq hf]
                  exact ⟨rfl, rfl⟩

/-- `recordFill` counts the frames of the write before it, and finds what the track has left. -/
theorem recordFill_eq {a box frames : ℕ} {f : Format} (ha : s.tracks.track = some a)
    (hf : formatOf s.tracks.currentDecodeType = some f)
    (hbox : s.trackFrames s.tracks.currentDecodeType = some box)
    (hsize : s.currentFrameBytes = frameSize f) (hrate : s.currentSampleRate = f.sampleRate)
    (hwritten : s.written a = box + frames) (hrendered : s.rendered a ≤ s.written a)
    (hfits : s.written a < 2 ^ 32) :
    ∃ fillMin, s.recordFill (frames * frameSize f) =
      { s with
        trackFrames :=
          Function.update s.trackFrames s.tracks.currentDecodeType (some (s.written a))
        audioFillLastMs := ((s.written a - s.rendered a) * 1000 / f.sampleRate : ℕ)
        audioFillMinMs := fillMin } := by
  obtain ⟨hsize_pos, hrate_pos⟩ := frameSize_pos hf
  have hframes : box + frames * frameSize f / frameSize f = s.written a := by
    rw [Nat.mul_div_cancel _ hsize_pos, hwritten]
  have hfill : fillFrames (s.written a) (s.head a) = (s.written a - s.rendered a : ℕ) := by
    rw [head, fillFrames_of_lt hrendered hfits, Int.ofNat_sub hrendered]
  have hsync : ((s.written a - s.rendered a : ℕ) : ℤ) ≠ fillDesync := by
    rw [fillDesync]
    omega
  have hms : (((s.written a - s.rendered a : ℕ) : ℤ) * 1000).tdiv f.sampleRate =
      ((s.written a - s.rendered a) * 1000 / f.sampleRate : ℕ) := by
    rw [Int.tdiv_eq_ediv_of_nonneg (by omega)]
    rfl
  simp only [recordFill, ha, hbox, hsize, hrate]
  rw [if_neg (by omega), hframes, hfill, if_neg hsync, hms]
  exact ⟨_, rfl⟩

/-- `recordFill` concerns neither the tracks nor their frames. -/
theorem frame_recordFill (s : Fill) (bytes : ℕ) :
    (s.recordFill bytes).tracks = s.tracks ∧ (s.recordFill bytes).written = s.written := by
  unfold recordFill
  cases s.tracks.track with
  | none => exact ⟨rfl, rfl⟩
  | some a =>
      cases s.trackFrames s.tracks.currentDecodeType with
      | none => exact ⟨rfl, rfl⟩
      | some box =>
          simp only
          split_ifs <;> exact ⟨rfl, rfl⟩

/-- A write concerns the frames of the current track. -/
theorem frame_writeTrack {a : ℕ} (ha : s.tracks.track = some a) (frames progress : ℕ) :
    (s.writeTrack frames progress).tracks = s.tracks ∧
      (s.writeTrack frames progress).written a = s.written a + frames := by
  have hwritten : ((s.write a frames).render a progress).written a = s.written a + frames :=
    Function.update_self ..
  simp only [writeTrack, ha]
  split_ifs
  · obtain ⟨htracks, hsame⟩ := frame_recordFill ((s.write a frames).render a progress)
      (frames * s.frameBytes a)
    exact ⟨htracks, (congrFun hsame a).trans hwritten⟩
  · exact ⟨rfl, hwritten⟩

/-- What the counters say does not depend on how much a track rendered. -/
theorem Counted.render (h : s.Counted) (a frames : ℕ) : (s.render a frames).Counted := by
  refine ⟨h.keyed, h.known, h.one, h.current, fun b => ?_, h.synced⟩
  show Function.update s.rendered a _ b ≤ s.written b
  by_cases hb : b = a
  · rw [hb, Function.update_self]
    exact min_le_right ..
  · rw [Function.update_of_ne hb]
    exact h.rendered b

/-- The counters after a number of frames of one track changed, and with it the counter of that
track. -/
theorem Counted.setWritten (h : s.Counted) {d : BitVec 32} {a n m : ℕ}
    (ha : s.tracks.get d = some a) (hm : m ≤ n) :
    { s with
      trackFrames := Function.update s.trackFrames d (some n)
      written := Function.update s.written a n
      rendered := Function.update s.rendered a m }.Counted := by
  refine ⟨fun e => ?_, h.known, h.one, h.current, fun b => ?_, h.synced⟩
  · show Function.update s.trackFrames d (some n) e =
      (s.tracks.get e).map (Function.update s.written a n)
    by_cases he : e = d
    · rw [he, Function.update_self, ha, Option.map_some, Function.update_self]
    · rw [Function.update_of_ne he, h.keyed]
      refine Option.map_congr fun b hb => ?_
      have hne : b ≠ a := fun hba => he (h.one e d a (hba ▸ hb) ha)
      rw [Function.update_of_ne hne]
  · show Function.update s.rendered a m b ≤ Function.update s.written a n b
    by_cases hb : b = a
    · rw [hb, Function.update_self, Function.update_self]
      exact hm
    · rw [Function.update_of_ne hb, Function.update_of_ne hb]
      exact h.rendered b

/-- The counters do not depend on what the last fill was. -/
theorem Counted.setFill (h : s.Counted) (last least : ℤ) :
    { s with audioFillLastMs := last, audioFillMinMs := least }.Counted :=
  ⟨h.keyed, h.known, h.one, h.current, h.rendered, h.synced⟩

/-- A write to the current track, and what `recordWrite` makes of it. -/
theorem Counted.writeTrack (h : s.Counted) {a : ℕ} (ha : s.tracks.track = some a)
    (frames progress : ℕ) (hfits : s.written a + frames < 2 ^ 32) :
    (s.writeTrack frames progress).Counted ∧ (0 < frames → ∃ f,
      formatOf s.tracks.currentDecodeType = some f ∧
      (s.writeTrack frames progress).audioFillLastMs =
        (((s.writeTrack frames progress).written a -
          (s.writeTrack frames progress).rendered a) * 1000 / f.sampleRate : ℕ)) := by
  obtain ⟨hget, f, hf, hsize, hrate⟩ := h.current a ha
  obtain ⟨-, g, hg, hbytes⟩ := h.known _ a hget
  obtain rfl : g = f := Option.some.inj (hg.symm.trans hf)
  obtain ⟨hpos, -⟩ := frameSize_pos hf
  have hbox : s.trackFrames s.tracks.currentDecodeType = some (s.written a) := by
    rw [h.keyed, hget, Option.map_some]
  have hwritten : ((s.write a frames).render a progress).written a = s.written a + frames :=
    Function.update_self ..
  have hless : min (s.rendered a + progress) ((s.write a frames).written a) ≤
      s.written a + frames := hwritten ▸ min_le_right ..
  obtain rfl | hframes := Nat.eq_zero_or_pos frames
  · have hnone : s.writeTrack 0 progress = s.render a progress := by
      have hwrite : s.write a 0 = s := by
        rw [write, Nat.add_zero, Function.update_eq_self]
      simp [Fill.writeTrack, ha, hwrite]
    rw [hnone]
    exact ⟨h.render a progress, fun hpos => absurd hpos (Nat.lt_irrefl 0)⟩
  · have hn : 0 < frames * frameSize g := Nat.mul_pos hframes hpos
    have hrendered : ((s.write a frames).render a progress).rendered a ≤
        ((s.write a frames).render a progress).written a := by
      rw [hwritten]
      show Function.update s.rendered a _ a ≤ _
      rw [Function.update_self]
      exact hless
    obtain ⟨fillMin, heq⟩ := recordFill_eq (s := (s.write a frames).render a progress) ha hf hbox
      hsize hrate hwritten hrendered (hwritten ▸ hfits)
    have hstep : s.writeTrack frames progress =
        ((s.write a frames).render a progress).recordFill (frames * frameSize g) := by
      simp only [Fill.writeTrack, ha, hbytes, if_pos hn]
    rw [hstep, heq]
    refine ⟨?_, fun _ => ⟨g, hf, rfl⟩⟩
    simp only [hwritten]
    exact (h.setWritten hget hless).setFill _ fillMin

/-! ### Flushes -/

/-- `flush` of several tracks. -/
theorem foldl_flush (l : List ℕ) (s : Fill) :
    l.foldl flush s =
      { s with
        written := fun a => if a ∈ l then 0 else s.written a
        rendered := fun a => if a ∈ l then 0 else s.rendered a } := by
  induction l generalizing s with
  | nil => simp
  | cons b l ih =>
      rw [List.foldl_cons, ih]
      simp only [flush, Function.update_apply, List.mem_cons]
      congr 1 <;> funext a <;> by_cases ha : a = b <;> simp [ha]

theorem Counted.handleCommand (h : s.Counted) (c : AudioCommand) (d : BitVec 32) :
    (s.handleCommand c d).Counted := by
  unfold Fill.handleCommand
  split
  · next a ha =>
      split_ifs at ha
      have hbox : (s.trackFrames d).map (fun _ => 0) = some 0 := by
        rw [h.keyed, ha]
        rfl
      simp only [resetFrames, flush, hbox]
      exact h.setWritten ha le_rfl
  · exact h

/-- A mute resets what it flushes. -/
theorem Counted.applyMuted (h : s.Counted) (muted : Bool) : (s.applyMuted muted).Counted := by
  cases muted with
  | false => exact h
  | true =>
      simp only [Fill.applyMuted, if_true, resetAll, foldl_flush]
      refine ⟨fun d => ?_, h.known, h.one, h.current, fun a => ?_, h.synced⟩
      · simp only [h.keyed, Option.map_map]
        exact Option.map_congr fun a ha => (if_pos (mem_values ha)).symm
      · show (if a ∈ s.tracks.values then 0 else s.rendered a) ≤
          if a ∈ s.tracks.values then 0 else s.written a
        split_ifs
        · exact le_rfl
        · exact h.rendered a

/-- `releaseTrack` forgets the tracks and their counters together. -/
theorem Counted.releaseTrack (h : s.Counted) : s.releaseTrack.Counted where
  keyed _ := rfl
  known _ _ hget := by cases hget
  one _ _ _ hget := by cases hget
  current _ htrack := by cases htrack
  rendered := h.rendered
  synced := h.synced

/-! ### Runs -/

/-- After a write `audioFillLastMs` is what the current track has left, in its own rate. -/
def FillRight (s : Fill) : FillEvent → Prop
  | .pcm d pcmLength muted ok frames progress =>
      muted = false → 0 < pcmLength → 0 < frames → (s.ensureTrack d ok).1 = true →
        ∃ a f, (s.step (.pcm d pcmLength muted ok frames progress)).tracks.track = some a ∧
          (s.step (.pcm d pcmLength muted ok frames progress)).tracks.get d = some a ∧
          formatOf d = some f ∧
          (s.step (.pcm d pcmLength muted ok frames progress)).audioFillLastMs =
            (((s.step (.pcm d pcmLength muted ok frames progress)).written a -
              (s.step (.pcm d pcmLength muted ok frames progress)).rendered a) * 1000 /
                f.sampleRate : ℕ)
  | _ => True

/-- What one item keeps, and that the fill is right after it. -/
theorem Counted.step (h : s.Counted) (e : FillEvent) (hfits : (s.step e).Fits) :
    (s.step e).Counted ∧ s.FillRight e := by
  cases e with
  | command c d => exact ⟨h.handleCommand c d, trivial⟩
  | mute muted => exact ⟨h.applyMuted muted, trivial⟩
  | release => exact ⟨h.releaseTrack, trivial⟩
  | render a frames => exact ⟨h.render a frames, trivial⟩
  | pcm d pcmLength muted ok frames progress =>
      by_cases hnone : muted = true ∨ pcmLength = 0
      · have hstep : s.step (.pcm d pcmLength muted ok frames progress) = s := by
          rw [Fill.step, writePcm, if_pos hnone]
        rw [hstep]
        refine ⟨h, fun hmuted hlength => ?_⟩
        rcases hnone with htrue | hzero
        · exact absurd (hmuted.symm.trans htrue) Bool.false_ne_true
        · omega
      · obtain ⟨hcounted, htrack⟩ := h.ensureTrack d ok
        have hstep : s.step (.pcm d pcmLength muted ok frames progress) =
            if (s.ensureTrack d ok).1 then (s.ensureTrack d ok).2.writeTrack frames progress
            else (s.ensureTrack d ok).2 := by
          rw [Fill.step, writePcm, if_neg hnone]
        by_cases hready : (s.ensureTrack d ok).1 = true
        · obtain ⟨a, ha, hd⟩ := htrack hready
          rw [if_pos hready] at hstep
          obtain ⟨htracks, hwritten⟩ := frame_writeTrack ha frames progress
          have hroom : (s.ensureTrack d ok).2.written a + frames < 2 ^ 32 := by
            rw [← hwritten]
            exact (hstep ▸ hfits) a (by rw [htracks, ha]; rfl)
          obtain ⟨hnext, hfill⟩ := hcounted.writeTrack ha frames progress hroom
          simp only [FillRight, hstep]
          refine ⟨hnext, fun _ _ hframes _ => ?_⟩
          obtain ⟨f, hf, hms⟩ := hfill hframes
          have hget := (hcounted.current a ha).1
          rw [hd] at hf hget
          exact ⟨a, f, by rw [htracks, ha], by rw [htracks, hget], hf, hms⟩
        · rw [if_neg hready] at hstep
          rw [hstep]
          exact ⟨hcounted, fun _ _ _ hready' => absurd hready' hready⟩

/-- **Every counter is right, after every item.**  As long as fewer than 2^32 frames are
written to a track between its flushes, the counter of every live track is what was written
to it, no write sees a desync, and the fill after a write is that of the current track. -/
theorem counters_run {es : List FillEvent} (h : Along step (fun s e => (s.step e).Fits) new es) :
    (∀ d a, (run step new es).tracks.get d = some a →
      (run step new es).trackFrames d = some ((run step new es).written a)) ∧
    (run step new es).audioFillResyncCount = 0 ∧ Along step FillRight new es := by
  have hcounted : (run step new es).Counted :=
    h.invariant (fun s e hs hfits => (hs.step e hfits).1) counted_new
  refine ⟨fun d a ha => ?_, hcounted.synced, ?_⟩
  · rw [hcounted.keyed, ha, Option.map_some]
  · exact h.imp_of_invariant (I := Counted) (fun s e hs hfits => (hs.step e hfits).1)
      (fun s e hs hfits => (hs.step e hfits).2) counted_new

/-- Music, a navigation prompt over it, a stop of the music and a mute. -/
def drive : List FillEvent :=
  [.pcm 4 3840 false true 960 0, .render 0 400, .pcm 5 640 false true 320 100,
    .pcm 4 3840 false true 500 60, .command .mediaStop 4, .pcm 4 3840 false true 960 240,
    .mute true, .release]

instance (s : Fill) : Decidable s.Fits :=
  inferInstanceAs (Decidable (∀ a ∈ s.tracks.track, s.written a < 2 ^ 32))

theorem counters_run_drive : (run step new (drive.take 6)).trackFrames 4 = some 960 ∧
    (run step new (drive.take 6)).audioFillLastMs = 15 ∧
    (∀ d a, (run step new drive).tracks.get d = some a →
      (run step new drive).trackFrames d = some ((run step new drive).written a)) ∧
    (run step new drive).audioFillResyncCount = 0 ∧ Along step FillRight new drive :=
  ⟨by decide, by decide, counters_run (by decide)⟩

end Fill
end Audio
end App
end Carlinkit
