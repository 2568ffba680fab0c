/-
# The decode timing of the heartbeat

`onFrame` measures every decode, and the heartbeat drains maximum, slow count and average
with `drainDecodeStats`.  The number of frames is not a counter of its own: the drain takes
`frames` less `decodeStatsLastFrames`, what `frames` was at the drain before.

`start` sets `frames` back to zero and leaves `decodeStatsLastFrames` alone.  `Interval` is
what was decoded since the last drain, and `frames_since_iff` says that the drain divides by the
right number exactly when no counted frame was forgotten so (`restarted`).
-/

import Carlinkit.App.CodecLeaks

namespace Carlinkit
namespace App
namespace VideoRenderer

open Framing Machine

/-- What was decoded since the last drain: how long each decode took, and whether a new
decoder set `frames` back after frames had been counted. -/
structure Interval where
  decoded : List ℕ
  restarted : Bool
deriving DecidableEq

/-- Just after a drain. -/
def Interval.none : Interval := ⟨[], false⟩

/-- A `start` that makes a decoder. -/
def Makes (r : VideoRenderer) (o : Started) : Prop :=
  r.surfaceView ≠ Option.none ∧ o.valid = true ∧ r.running = false ∧ o.init = .ok

instance (r : VideoRenderer) (o : Started) : Decidable (r.Makes o) :=
  inferInstanceAs (Decidable (_ ∧ _ ∧ _ ∧ _))

/-- A frame that the decoder takes. -/
def Decodes (r : VideoRenderer) (f : Frame) : Prop :=
  r.running = true ∧ r.codec ≠ Option.none ∧ 5 ≤ f.msg.dataLength

instance (r : VideoRenderer) (f : Frame) : Decidable (r.Decodes f) :=
  inferInstanceAs (Decidable (_ ∧ _ ∧ _))

/-- The interval after a call. -/
def Interval.see (r : VideoRenderer) (i : Interval) : Call → Interval
  | .start _ o => { i with restarted := i.restarted || decide (r.Makes o ∧ r.frames ≠ 0) }
  | .onFrame f ms => if r.Decodes f then { i with decoded := i.decoded ++ [ms] } else i
  | .drainDecodeStats => .none
  | .stop | .setSurfaceView _ | .reinjectParameterSets _ => i

/-- What the heartbeat should print of an interval. -/
def Interval.report (i : Interval) : Option String :=
  if i.decoded = [] then Option.none
  else some ("max=" ++ toString (i.decoded.foldl max 0) ++ "ms slow=" ++
    toString (i.decoded.countP fun ms => decide (decodeSlowMs ≤ ms)) ++
      " avg=" ++ toString (i.decoded.sum / i.decoded.length) ++ "ms")

/-- A renderer beside its interval. -/
abbrev Timed := VideoRenderer × Interval

/-- A drain prints what was decoded since the last one. -/
def Reported (x : Timed) : Call → Prop
  | .drainDecodeStats => x.1.drainDecodeStats.1 = x.2.report
  | _ => True

instance (x : Timed) : ∀ c, Decidable (Reported x c)
  | .drainDecodeStats => inferInstanceAs (Decidable (_ = _))
  | .start .. | .stop | .setSurfaceView _ | .onFrame .. | .reinjectParameterSets _ =>
      .isTrue trivial

/-- At a drain no counted frame was forgotten, or nothing was decoded. -/
def Kept (x : Timed) : Call → Prop
  | .drainDecodeStats => x.2.restarted = false ∨ x.2.decoded = []
  | _ => True

instance (x : Timed) : ∀ c, Decidable (Kept x c)
  | .drainDecodeStats => inferInstanceAs (Decidable (_ ∨ _))
  | .start .. | .stop | .setSurfaceView _ | .onFrame .. | .reinjectParameterSets _ =>
      .isTrue trivial

/-- The counters are those of the interval, and `frames` is ahead of the last drain by its
length, or by less once it was set back. -/
structure Counted (r : VideoRenderer) (i : Interval) : Prop where
  longest : r.decodeMaxMs = i.decoded.foldl max 0
  slow : r.decodeSlowCount = i.decoded.countP fun ms => decide (decodeSlowMs ≤ ms)
  total : r.decodeTotalMs = i.decoded.sum
  ahead : i.restarted = false → r.frames = r.decodeStatsLastFrames + i.decoded.length
  behind : i.restarted = true → r.frames < r.decodeStatsLastFrames + i.decoded.length

variable {r : VideoRenderer} {i : Interval}

/-! ## One call -/

/-- A call that touches no counter. -/
theorem Counted.congr {r' : VideoRenderer} (h : Counted r i)
    (hmax : r'.decodeMaxMs = r.decodeMaxMs) (hslow : r'.decodeSlowCount = r.decodeSlowCount)
    (htotal : r'.decodeTotalMs = r.decodeTotalMs) (hframes : r'.frames = r.frames)
    (hlast : r'.decodeStatsLastFrames = r.decodeStatsLastFrames) : Counted r' i := by
  constructor
  · rw [hmax, h.longest]
  · rw [hslow, h.slow]
  · rw [htotal, h.total]
  · intro hkept
    rw [hframes, hlast, h.ahead hkept]
  · intro hrestarted
    rw [hframes, hlast]
    exact h.behind hrestarted

/-- A new decoder starts at zero, and that is short of the last drain unless nothing was
counted. -/
theorem Counted.restart {codec : Option Codec} (h : Counted r i) :
    Counted { r with codec := codec, running := true, frames := 0 }
      { i with restarted := i.restarted || decide (r.frames ≠ 0) } := by
  refine ⟨h.longest, h.slow, h.total, ?_, ?_⟩
  · intro hkept
    obtain ⟨hearlier, hzero⟩ := Bool.or_eq_false_iff.1 hkept
    have hframes := h.ahead hearlier
    have : r.frames = 0 := by simpa using hzero
    show 0 = r.decodeStatsLastFrames + i.decoded.length
    omega
  · intro hrestarted
    show 0 < r.decodeStatsLastFrames + i.decoded.length
    rcases hearlier : i.restarted with _ | _
    · have hframes := h.ahead hearlier
      have : r.frames ≠ 0 := by simpa [hearlier] using hrestarted
      omega
    · have hbehind := h.behind hearlier
      omega

theorem Counted.start (h : Counted r i) (cached : Bool) (o : Started) :
    Counted (r.call (.start cached o)) (i.see r (.start cached o)) := by
  have hidle : ¬ r.Makes o →
      { i with restarted := i.restarted || decide (r.Makes o ∧ r.frames ≠ 0) } = i := by
    intro hnot
    simp [hnot]
  simp only [call, Interval.see, VideoRenderer.start]
  cases hview : r.surfaceView with
  | none =>
      rw [hidle (by simp [Makes, hview])]
      exact h
  | some view =>
      simp only
      split_ifs with hvalid hrunning hinit
      · rw [hidle (by simp [Makes, hvalid])]
        exact h
      · rw [hidle (by simp [Makes, hrunning])]
        exact h
      · have hmakes : r.Makes o :=
          ⟨by simp [hview], by simpa using hvalid, by simpa using hrunning, hinit⟩
        simp only [hmakes, true_and]
        rw [← hview]
        exact h.restart
      · rw [hidle (by simp [Makes, hinit])]
        exact h.congr rfl rfl rfl rfl rfl

/-- One more decode, in every counter. -/
theorem Counted.record (h : Counted r i) (ms : ℕ) :
    Counted (r.record ms) { i with decoded := i.decoded ++ [ms] } := by
  constructor
  · show max r.decodeMaxMs ms = (i.decoded ++ [ms]).foldl max 0
    rw [List.foldl_append, h.longest]
    rfl
  · show (if decodeSlowMs ≤ ms then _ else _) = _
    rw [List.countP_append, h.slow, List.countP_singleton]
    simp only [decide_eq_true_eq]
    split_ifs <;> rfl
  · show r.decodeTotalMs + ms = (i.decoded ++ [ms]).sum
    rw [List.sum_append, h.total, List.sum_singleton]
  · intro hkept
    show r.frames + 1 = r.decodeStatsLastFrames + (i.decoded ++ [ms]).length
    rw [h.ahead hkept, List.length_append, List.length_singleton, Nat.add_assoc]
  · intro hrestarted
    have hbehind := h.behind hrestarted
    show r.frames + 1 < r.decodeStatsLastFrames + (i.decoded ++ [ms]).length
    rw [List.length_append, List.length_singleton]
    exact Nat.succ_lt_succ hbehind

theorem Counted.onFrame (h : Counted r i) (f : Frame) (ms : ℕ) :
    Counted (r.call (.onFrame f ms)) (i.see r (.onFrame f ms)) := by
  have hhand : Counted (r.hand (.frame f)) i := h.congr rfl rfl rfl rfl rfl
  simp only [call, Interval.see, VideoRenderer.onFrame]
  split_ifs with hrun hshort hdecodes hdecodes hdecodes
  · exact absurd hdecodes.2.2 (by omega)
  · exact hhand
  · exact hhand.record ms
  · exact absurd ⟨hrun.1, hrun.2, Nat.le_of_not_lt hshort⟩ hdecodes
  · exact absurd ⟨hdecodes.1, hdecodes.2.1⟩ hrun
  · exact h

/-- A drain begins a new interval. -/
theorem counted_drain (r : VideoRenderer) : Counted r.drainDecodeStats.2 .none :=
  ⟨rfl, rfl, rfl, fun _ => rfl, fun h => absurd h Bool.false_ne_true⟩

/-- **Every call keeps the counters in step with the interval.** -/
theorem counted_call (h : Counted r i) (c : Call) : Counted (r.call c) (i.see r c) := by
  cases c with
  | start cached o => exact h.start cached o
  | stop =>
      simp only [call, Interval.see, stop]
      split_ifs
      · exact h.congr rfl rfl rfl rfl rfl
      · exact h
  | setSurfaceView view => exact h.congr rfl rfl rfl rfl rfl
  | onFrame f ms => exact h.onFrame f ms
  | reinjectParameterSets parameterSets =>
      simp only [call, Interval.see, reinjectParameterSets]
      split
      · exact h
      · split_ifs
        · exact h.congr rfl rfl rfl rfl rfl
        · exact h
  | drainDecodeStats => exact counted_drain r

/-! ## What the drain prints -/

/-- **By what the drain divides.**  It is the number of frames decoded since the last drain
exactly when no counted frame was forgotten, or nothing was decoded; else it is less. -/
theorem frames_since_iff (h : Counted r i) :
    r.frames - r.decodeStatsLastFrames = i.decoded.length ↔
      i.restarted = false ∨ i.decoded = [] := by
  rw [← List.length_eq_zero_iff]
  rcases hrestarted : i.restarted with _ | _
  · have hahead := h.ahead hrestarted
    simp only [true_or, iff_true]
    omega
  · have hbehind := h.behind hrestarted
    simp only [Bool.true_eq_false, false_or]
    omega

/-- With the right number of frames, the line is that of the interval. -/
theorem drain_eq_report (h : Counted r i)
    (hlength : r.frames - r.decodeStatsLastFrames = i.decoded.length) :
    r.drainDecodeStats.1 = i.report := by
  have hempty : r.frames ≤ r.decodeStatsLastFrames ↔ i.decoded = [] := by
    rw [← List.length_eq_zero_iff]
    omega
  rw [drainDecodeStats, Interval.report, ← h.longest, ← h.slow, ← h.total, hlength]
  simp only [hempty]

theorem reported_of_kept (x : Timed) (c : Call) (h : Counted x.1 x.2) (hkept : Kept x c) :
    Reported x c := by
  cases c with
  | drainDecodeStats => exact drain_eq_report h ((frames_since_iff h).2 hkept)
  | start | stop | setSurfaceView | onFrame | reinjectParameterSets => exact trivial

/-- **The timing of an interval.**  In every run of calls, a drain returns nothing exactly
when nothing was decoded since the last one, and otherwise maximum, slow decodes and average
of just these frames, as long as no decoder is made after counted frames in an interval in
which something is decoded. -/
theorem reported_of_no_restart (fps : ℕ) (cs : List Call)
    (hkept : Along (watched call Interval.see) Kept (new fps, .none) cs) :
    Along (watched call Interval.see) Reported (new fps, .none) cs :=
  hkept.imp_of_invariant (I := fun x : Timed => Counted x.1 x.2)
    (fun _ c h _ => counted_call h c) reported_of_kept (counted_drain (new fps))

/-- A frame of five bytes. -/
def fiveBytes : Frame where
  msg := ⟨800, 480, 0, 0, 5⟩
  payload := [0, 0, 0, 1, 0x41]
  inside := Nat.le_refl 5

/-- The surface is there, and the codec takes it. -/
def willing : Started := ⟨true, 800, 480, .ok⟩

/-- Two decoders, with a drain before the first one goes and one before the second decodes. -/
theorem reported_two_decoders :
    Along (watched call Interval.see) Reported (new 20, .none)
      [.setSurfaceView (some 0), .start false willing, .onFrame fiveBytes 10,
        .onFrame fiveBytes 50, .drainDecodeStats, .stop, .start false willing,
        .drainDecodeStats, .onFrame fiveBytes 30, .drainDecodeStats] :=
  reported_of_no_restart 20 _ (by decide)

/-- **Two frames, a drain, a new decoder and one frame.**  The next drain returns nothing. -/
theorem not_reported_after_return :
    ¬ ∀ fps cs, Along (watched call Interval.see) Reported (new fps, .none) cs := by
  intro h
  have hreported := h 20
    [.setSurfaceView (some 0), .start false willing, .onFrame fiveBytes 10,
      .onFrame fiveBytes 50, .drainDecodeStats, .stop, .start false willing,
      .onFrame fiveBytes 10, .drainDecodeStats]
  revert hreported
  decide

end VideoRenderer
end App
end Carlinkit
