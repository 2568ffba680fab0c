/-
# The video stall

`checkVideoStall` runs with every heartbeat of the session.  The dongle may keep the session
and stop sending video, so it compares the count of the frames received with the count of
the beat before, and asks for a keyframe when the count has stood still for
`VIDEO_STALL_MS`.  It counts only beats that are eligible: there is a session, the phone is
connected, and the screen is ours.

Three fields do this: the last count, how long it has stood still, and whether that was
reported.  `Tracks` says that they are the streak of the counts (`Machine.streak`), and
`requested_iff` that each block of at least five eligible beats with one count has exactly
one request, on its fifth beat.
-/

import Mathlib.Data.Int.Notation
import Carlinkit.Machine.Run
import Carlinkit.Machine.Streaks

namespace Carlinkit
namespace App
namespace VideoStall

open Machine

/-- `HEARTBEAT_MS`. -/
def heartbeatMs : ℕ := 5000

/-- `VIDEO_STALL_MS`. -/
def videoStallMs : ℕ := 20000

/-- The session as a beat finds it. -/
structure Session where
  isScreenTakenByHeadUnit : Bool
  videoFramesReceived : ℕ
deriving DecidableEq, Repr

/-- What a beat finds. -/
structure Tick where
  sess : Option Session
  phoneConnected : Bool
deriving DecidableEq, Repr

/-- The fields of the Activity. -/
structure State where
  lastBeatFrames : ℤ
  stalledMs : ℕ
  stallReported : Bool
deriving DecidableEq, Repr

/-- What is written to the log. -/
inductive Report
  /-- `video stalled for .. s with the phone connected (rx frozen at ..)`; the keyframe is
  requested next. -/
  | stalled (seconds frames : ℕ)
  /-- `video recovered after .. s stalled`. -/
  | recovered (seconds : ℕ)
deriving DecidableEq, Repr

/-- `requestKeyFrame` is called. -/
def Report.Requests : Report → Prop
  | .stalled .. => True
  | .recovered _ => False

namespace State

/-- The fields of a new Activity. -/
def created : State := ⟨-1, 0, false⟩

/-- `checkVideoStall` with a session whose picture should be moving. -/
def beat (s : State) (frames : ℕ) : State × Option Report :=
  if 0 ≤ s.lastBeatFrames ∧ (frames : ℤ) = s.lastBeatFrames then
    let stalledMs := s.stalledMs + heartbeatMs
    if videoStallMs ≤ stalledMs ∧ !s.stallReported then
      (⟨frames, stalledMs, true⟩, some (.stalled (stalledMs / 1000) frames))
    else ({ s with lastBeatFrames := frames, stalledMs := stalledMs }, none)
  else
    (⟨frames, 0, false⟩, if s.stallReported then some (.recovered (s.stalledMs / 1000)) else none)

/-- `checkVideoStall`. -/
def checkVideoStall (s : State) (t : Tick) : State × Option Report :=
  match t.sess with
  | none => (⟨-1, 0, false⟩, none)
  | some sess =>
      if !t.phoneConnected || sess.isScreenTakenByHeadUnit then (⟨-1, 0, false⟩, none)
      else s.beat sess.videoFramesReceived

/-- One step. -/
def step (s : State) (t : Tick) : State := (s.checkVideoStall t).1

end State

/-- The count of an eligible beat. -/
def Tick.frames (t : Tick) : Option ℕ :=
  t.sess.bind fun sess =>
    if t.phoneConnected = true ∧ sess.isScreenTakenByHeadUnit = false then
      some sess.videoFramesReceived
    else none

/-- The counts of the eligible beats of a run, and nothing at the others and after the run. -/
def counts (ticks : List Tick) (i : ℕ) : Option ℕ := ticks[i]?.bind Tick.frames

/-- The beat `i` of a run requests a keyframe. -/
def Requested (ticks : List Tick) (i : ℕ) : Prop :=
  ∃ t, ticks[i]? = some t ∧
    ∃ r, ((run State.step State.created (ticks.take i)).checkVideoStall t).2 = some r ∧ r.Requests

namespace State

/-- The fields are those of a streak of `n` beats that ends with the count `last`. -/
structure Tracks (s : State) (last : Option ℕ) (n : ℕ) : Prop where
  frames : s.lastBeatFrames = last.elim (-1) (fun c => (c : ℤ))
  stalled : s.stalledMs = heartbeatMs * (n - 1)
  reported : s.stallReported = decide (5 ≤ n)

theorem tracks_created : created.Tracks none 0 := ⟨rfl, rfl, rfl⟩

variable {s : State} {last : Option ℕ} {n frames : ℕ} {t : Tick}

theorem checkVideoStall_none (h : t.frames = none) :
    s.checkVideoStall t = (created, none) := by
  unfold Tick.frames at h
  unfold checkVideoStall
  cases hsess : t.sess with
  | none => rfl
  | some sess =>
      rw [hsess] at h
      refine if_pos ?_
      cases hphone : t.phoneConnected <;> cases htaken : sess.isScreenTakenByHeadUnit <;>
        simp_all

theorem checkVideoStall_some (h : t.frames = some frames) :
    s.checkVideoStall t = s.beat frames := by
  unfold Tick.frames at h
  unfold checkVideoStall
  cases hsess : t.sess with
  | none => simp [hsess] at h
  | some sess =>
      rw [hsess] at h
      simp only [Option.bind_some, Option.ite_none_right_eq_some, Option.some.injEq] at h
      obtain ⟨⟨hphone, htaken⟩, rfl⟩ := h
      simp [hphone, htaken]

/-- The beat compares its count with that of the streak. -/
theorem Tracks.compare (h : s.Tracks last n) :
    (0 ≤ s.lastBeatFrames ∧ (frames : ℤ) = s.lastBeatFrames) ↔ last = some frames := by
  rw [h.frames]
  cases last with
  | none => simp
  | some c =>
      have hcount : (frames : ℤ) = c ↔ c = frames := by omega
      simpa using hcount

/-- A count of its own begins a streak. -/
theorem Tracks.beat_other (h : s.Tracks last n) (hother : last ≠ some frames) :
    (s.beat frames).1.Tracks (some frames) 1 ∧
      ∀ r, (s.beat frames).2 = some r → ¬ r.Requests := by
  rw [beat, if_neg (mt h.compare.1 hother)]
  refine ⟨⟨rfl, rfl, rfl⟩, fun r hr => ?_⟩
  simp only [Option.ite_none_right_eq_some, Option.some.injEq] at hr
  rw [← hr.2]
  exact id

/-- The same count goes on with it, and the fifth beat requests. -/
theorem Tracks.beat_same (h : s.Tracks (some frames) n) (hpos : 0 < n) :
    (s.beat frames).1.Tracks (some frames) (n + 1) ∧
      ((∃ r, (s.beat frames).2 = some r ∧ r.Requests) ↔ n + 1 = 5) := by
  have hms : s.stalledMs + heartbeatMs = heartbeatMs * (n + 1 - 1) := by
    rw [h.stalled, ← Nat.mul_succ]
    congr 1
    omega
  have htime : videoStallMs ≤ heartbeatMs * n ↔ 4 ≤ n := by
    simp only [videoStallMs, heartbeatMs]
    omega
  rw [Nat.add_sub_cancel] at hms
  simp only [beat, if_pos (h.compare.2 rfl), hms, h.reported, htime]
  by_cases hfifth : n = 4
  · rw [if_pos (by simp [hfifth])]
    exact ⟨⟨rfl, rfl, by simp [hfifth]⟩, iff_of_true ⟨_, rfl, trivial⟩ (by omega)⟩
  · rw [if_neg (by simp; omega)]
    refine ⟨⟨rfl, rfl, ?_⟩, iff_of_false (by simp) (by omega)⟩
    rw [decide_eq_decide]
    omega

/-- **One beat.**  The fields go on with the streak, and a keyframe is requested when its
length becomes five. -/
theorem Tracks.step (h : s.Tracks last n) (hpos : last ≠ none → 0 < n) (t : Tick) :
    (s.step t).Tracks t.frames (grow last n t.frames) ∧
      ((∃ r, (s.checkVideoStall t).2 = some r ∧ r.Requests) ↔ grow last n t.frames = 5) := by
  unfold State.step
  cases hframes : t.frames with
  | none =>
      rw [checkVideoStall_none hframes]
      exact ⟨tracks_created, iff_of_false (by simp) (by simp)⟩
  | some frames =>
      rw [checkVideoStall_some hframes]
      by_cases hsame : last = some frames
      · subst hsame
        rw [grow_same]
        exact h.beat_same (hpos (by simp))
      · obtain ⟨htracks, hquiet⟩ := h.beat_other hsame
        rw [grow_of_ne hsame]
        refine ⟨htracks, iff_of_false ?_ (by omega)⟩
        rintro ⟨r, hr, hrequests⟩
        exact hquiet r hr hrequests

end State

variable {ticks : List Tick} {i : ℕ}

/-- Before each beat of a run the fields are those of the streak. -/
theorem tracks_run (ticks : List Tick) (hi : i ≤ ticks.length) :
    (run State.step State.created (ticks.take i)).Tracks (prev (counts ticks) i)
      (streak (counts ticks) i) := by
  induction i with
  | zero => exact State.tracks_created
  | succ i ih =>
      have htracks := ih (by omega)
      have htick : counts ticks i = ticks[i].frames := by
        rw [counts, List.getElem?_eq_getElem hi, Option.bind_some]
      rw [List.take_succ_eq_append_getElem hi, run_append]
      show State.Tracks _ (counts ticks i) (grow _ _ (counts ticks i))
      rw [htick]
      exact (htracks.step streak_pos ticks[i]).1

/-- A beat requests when the streak becomes five. -/
theorem requested_iff_streak (ticks : List Tick) (i : ℕ) :
    Requested ticks i ↔ streak (counts ticks) (i + 1) = 5 := by
  rcases Nat.lt_or_ge i ticks.length with hi | hi
  · have hstep := ((tracks_run ticks (Nat.le_of_lt hi)).step streak_pos ticks[i]).2
    have htick : counts ticks i = ticks[i].frames := by
      rw [counts, List.getElem?_eq_getElem hi, Option.bind_some]
    rw [streak, htick, ← hstep, Requested, List.getElem?_eq_getElem hi]
    simp
  · have hnone : ticks[i]? = none := List.getElem?_eq_none hi
    rw [streak, counts, hnone]
    simp [Requested, hnone]

/-- **The keyframe is requested once for each stall.**  In a block of eligible beats with one
count, the fifth beat requests a keyframe and no other does; and every request is on the
fifth beat of such a block. -/
theorem requested_iff (ticks : List Tick) :
    (∀ a n c, IsBlock (counts ticks) a n c → ∀ k < n, Requested ticks (a + k) ↔ k = 4) ∧
    ∀ i, Requested ticks i → ∃ a n c, IsBlock (counts ticks) a n c ∧ 5 ≤ n ∧ i = a + 4 := by
  have hblock : ∀ a n c, IsBlock (counts ticks) a n c → ∀ k < n,
      (Requested ticks (a + k) ↔ k = 4) := fun a n c h k hk => by
    rw [requested_iff_streak, h.streak_eq hk]
    omega
  refine ⟨hblock, fun i hi => ?_⟩
  obtain ⟨c, hc⟩ : ∃ c, counts ticks i = some c := by
    rw [← Option.ne_none_iff_exists']
    intro hnone
    rw [requested_iff_streak, streak, hnone] at hi
    cases hi
  -- a block ends at the latest with the run
  have hends : ∃ j, i < j ∧ counts ticks j ≠ some c :=
    ⟨i + 1 + ticks.length, by omega, by simp [counts]⟩
  obtain ⟨a, k, n, h, hk, rfl⟩ := exists_isBlock hc hends
  obtain rfl := (hblock a n c h k hk).1 hi
  exact ⟨a, n, c, h, hk, rfl⟩

end VideoStall
end App
end Carlinkit
