/-
# The end of a capture

`stop` only clears `running`: the capture thread sees it when its iteration is over, and
leaves the loop.  `CapturePc.left` counts the actions that a thread has left then, and
every one of them brings it closer to its end (`winds_step`), also the change of source
that it may be in.

The second half says what a calling thread can do to a microphone that is stopped:
nothing, unless it goes through `startLocked` (`stopped_callerStep`).
-/

import Carlinkit.App.CaptureThreads

namespace Carlinkit
namespace App
namespace Capture

open Protocol Machine

/-- The most actions that a thread has left with source `i` open and `running` false. -/
def CapturePc.left (i : ℕ) : CapturePc → ℕ
  | .unborn | .dead => 0
  | .ended => 1
  | .finish => 2
  | .check | .switching => 3
  | .begin | .sending _ _ => 4
  | .reading _ => 5
  | .load => 6
  -- two for each source that it may still try
  | .making => 2 * (sourceCount - i) + 4
  | .opening => 2 * (sourceCount - i) + 5

/-- A later source leaves less to do. -/
theorem CapturePc.left_anti (pc : CapturePc) {i j : ℕ} (h : i ≤ j) : pc.left j ≤ pc.left i := by
  cases pc with
  | making | opening =>
      show 2 * (sourceCount - j) + _ ≤ 2 * (sourceCount - i) + _
      omega
  | _ => exact le_rfl

namespace State

/-- What thread `t` has left. -/
def left (s : State) (t : ℕ) : ℕ := (s.captures t).left s.sourceIndex

/-- From `s` to `s'` no thread was born, and each that moved came closer to its end. -/
def Winds (s s' : State) : Prop :=
  s'.threads = s.threads ∧
    ∀ t, s'.left t ≤ s.left t ∧ (s'.captures t = s.captures t ∨ s'.left t < s.left t)

theorem Winds.refl (s : State) : s.Winds s := ⟨rfl, fun _ => ⟨le_rfl, .inl rfl⟩⟩

variable {s : State}

/-- One thread moves, and has less to do. -/
theorem winds_of_update {s' : State} {t : ℕ} {q : CapturePc} (hthreads : s'.threads = s.threads)
    (hcaptures : s'.captures = Function.update s.captures t q)
    (hindex : s.sourceIndex ≤ s'.sourceIndex)
    (hless : q.left s'.sourceIndex < (s.captures t).left s.sourceIndex) : s.Winds s' := by
  refine ⟨hthreads, fun t' => ?_⟩
  by_cases ht' : t' = t
  · subst ht'
    have hlt : s'.left t' < s.left t' := by
      rw [left, hcaptures, Function.update_self]
      exact hless
    exact ⟨Nat.le_of_lt hlt, .inr hlt⟩
  · have hsame : s'.captures t' = s.captures t' := by rw [hcaptures, Function.update_of_ne ht']
    refine ⟨?_, .inl hsame⟩
    rw [left, hsame]
    exact CapturePc.left_anti _ hindex

/-- The next source, or the end. -/
theorem winds_nextSource {t : ℕ} (h : 2 * (sourceCount - s.sourceIndex) + 3 <
    (s.captures t).left s.sourceIndex) : s.Winds (s.nextSource t) := by
  refine winds_of_update rfl rfl (Nat.le_succ _) (lt_of_le_of_lt ?_ h)
  show CapturePc.left (s.sourceIndex + 1) _ ≤ _
  split_ifs with hmore
  · show 2 * (sourceCount - (s.sourceIndex + 1)) + 5 ≤ _
    omega
  · show 2 ≤ _
    omega

/-- A capture thread winds down, all but the return of `read`. -/
theorem winds_captureStep (hrun : s.running = false) (t : ℕ) (ok : Bool) :
    (s.captureStep t ok).running = false ∧ s.Winds (s.captureStep t ok) := by
  unfold captureStep
  cases hpc : s.captures t with
  | unborn | reading r | dead => exact ⟨hrun, .refl s⟩
  | begin | ended =>
      exact ⟨hrun, winds_of_update rfl rfl le_rfl (by simp [hpc, CapturePc.left])⟩
  | check =>
      simp only [hrun, Bool.false_eq_true, if_false]
      exact ⟨hrun, winds_of_update rfl rfl le_rfl (by simp [hpc, CapturePc.left])⟩
  | load =>
      cases s.record with
      | none => exact ⟨hrun, winds_of_update rfl rfl le_rfl (by simp [hpc, CapturePc.left])⟩
      | some r => exact ⟨hrun, winds_of_update rfl rfl le_rfl (by simp [hpc, CapturePc.left])⟩
  | switching =>
      simp only [hrun, Bool.false_eq_true, if_false]
      exact ⟨hrun, winds_of_update rfl rfl le_rfl (by simp [hpc, CapturePc.left])⟩
  | opening =>
      cases ok with
      | true =>
          refine ⟨hrun, winds_of_update (q := .making) rfl rfl le_rfl ?_⟩
          rw [hpc]
          exact Nat.lt_succ_self _
      | false =>
          refine ⟨hrun, winds_nextSource ?_⟩
          rw [hpc]
          show _ < 2 * (sourceCount - s.sourceIndex) + 5
          omega
  | making =>
      cases ok with
      | true =>
          refine ⟨hrun, winds_of_update (q := .check) rfl rfl le_rfl ?_⟩
          rw [hpc]
          show 3 < 2 * (sourceCount - s.sourceIndex) + 4
          omega
      | false =>
          refine ⟨hrun, winds_nextSource (s := s.releaseRecord) ?_⟩
          rw [show s.releaseRecord.captures t = _ from hpc]
          exact Nat.lt_succ_self _
  | sending r length =>
      refine ⟨hrun, winds_of_update (q := if ok then .check else .finish) rfl rfl le_rfl ?_⟩
      rw [hpc]
      split_ifs <;> simp [CapturePc.left]
  | finish =>
      have hended : ∀ s' : State, s'.captures = Function.update s.captures t .ended →
          s'.threads = s.threads → s'.sourceIndex = s.sourceIndex → s.Winds s' :=
        fun s' hcaptures hthreads hindex =>
          winds_of_update hthreads hcaptures (le_of_eq hindex.symm) (by simp [hpc, CapturePc.left])
      simp only
      split_ifs
      · exact ⟨rfl, hended _ rfl rfl rfl⟩
      · exact ⟨hrun, hended _ rfl rfl rfl⟩
      · exact ⟨hrun, .refl s⟩

/-- A capture thread winds down when `read` returns. -/
theorem winds_readStep (hrun : s.running = false) (t : ℕ) (result : Option ℤ) (peak : ℕ) :
    (s.readStep t result peak).running = false ∧ s.Winds (s.readStep t result peak) := by
  unfold readStep
  cases hpc : s.captures t with
  | reading r =>
      have hmoved : ∀ q : CapturePc, q.left s.sourceIndex < 5 → ∀ s' : State,
          s'.captures = Function.update s.captures t q → s'.threads = s.threads →
          s'.sourceIndex = s.sourceIndex → s.Winds s' := by
        intro q hq s' hcaptures hthreads hindex
        refine winds_of_update hthreads hcaptures (le_of_eq hindex.symm) ?_
        rw [hpc, hindex]
        exact hq
      cases result with
      | none => exact ⟨hrun, hmoved .finish (by simp [CapturePc.left]) _ rfl rfl rfl⟩
      | some n =>
          simp only
          split_ifs
          · exact ⟨hrun, hmoved .finish (by simp [CapturePc.left]) _ rfl rfl rfl⟩
          · exact ⟨hrun, hmoved .check (by simp [CapturePc.left]) _ rfl rfl rfl⟩
          · unfold account
            simp only
            split_ifs
            · exact ⟨hrun, hmoved .switching (by simp [CapturePc.left]) _ rfl rfl rfl⟩
            · exact ⟨hrun, hmoved (.sending r n) (by simp [CapturePc.left]) _ rfl rfl rfl⟩
            · exact ⟨hrun, hmoved (.sending r n) (by simp [CapturePc.left]) _ rfl rfl rfl⟩
  | _ => exact ⟨hrun, .refl s⟩

/-- **Once `running` is false every action of a capture thread brings it closer to its end.** -/
theorem winds_step (hrun : s.running = false) {e : Event} (he : e.captureThread.isSome) :
    (s.step e).running = false ∧ s.Winds (s.step e) ∧ (s.step e).callers = s.callers ∧
      (s.step e).monitor = s.monitor := by
  cases e with
  | capture t ok =>
      obtain ⟨hcallers, hmonitor, -⟩ := s.frame_captureStep t ok
      obtain ⟨hstop, hwinds⟩ := winds_captureStep hrun t ok
      exact ⟨hstop, hwinds, hcallers, hmonitor⟩
  | read t result peak =>
      obtain ⟨hcallers, hmonitor, -⟩ := s.frame_readStep t result peak
      obtain ⟨hstop, hwinds⟩ := winds_readStep hrun t result peak
      exact ⟨hstop, hwinds, hcallers, hmonitor⟩
  | _ => simp [Event.captureThread] at he

/-! ### The calling threads -/

/-- A calling thread moves alone. -/
theorem callers_callerStep {i j : ℕ} (hij : j ≠ i) (ok : Bool) :
    (s.callerStep i ok).callers j = s.callers j := by
  unfold callerStep
  cases s.callers i with
  | idle => rfl
  | start =>
      simp only [startStep]
      split_ifs
      · simp [leave, hij]
      · cases s.captureThread with
        | none => simp [setCaller, hij]
        | some t =>
            simp only
            split_ifs <;> simp [setCaller, hij]
      · rfl
  | opening | making =>
      simp only [nextStart]
      split_ifs <;> simp [setCaller, leave, make, releaseRecord, hij]
  | launching => cases ok <;> simp [launch, leave, setCapture, hij]
  | setDecodeType type =>
      simp only [setDecodeTypeStep]
      split_ifs
      · cases CaptureFormat.ofDecodeType type with
        | none => simp [leave, hij]
        | some f =>
            simp only
            split_ifs <;> simp [setCaller, leave, hij]
      · rfl
  | settingRate f => simp [setCaller, hij]
  | join t | startLocked | stop restart | settingChunk f =>
      simp only
      split_ifs <;> simp [setCaller, leave, hij]

/-- A stopped microphone stays stopped under a thread that does not go through
`startLocked`. -/
theorem stopped_callerStep (hrun : s.running = false) {i : ℕ} (hi : ¬ (s.callers i).Starting)
    (henter : s.callers i = .startLocked → s.monitor ≠ none) (ok : Bool) :
    (s.callerStep i ok).running = false ∧ ¬ ((s.callerStep i ok).callers i).Starting := by
  unfold callerStep
  cases hpc : s.callers i with
  | idle => exact ⟨hrun, hi⟩
  | opening | making | launching => exact absurd (by rw [hpc]; trivial) hi
  | start =>
      simp only [startStep]
      split_ifs
      · simp [leave, hrun, CallerPc.Starting]
      · cases s.captureThread with
        | none => simp [setCaller, hrun, CallerPc.Starting]
        | some t =>
            simp only
            split_ifs <;> simp [setCaller, hrun, CallerPc.Starting]
      · exact ⟨hrun, hi⟩
  | startLocked =>
      simp only [henter hpc, if_false]
      exact ⟨hrun, hi⟩
  | setDecodeType type =>
      simp only [setDecodeTypeStep]
      split_ifs
      · cases CaptureFormat.ofDecodeType type with
        | none => simp [leave, hrun, CallerPc.Starting]
        | some f =>
            simp only
            split_ifs <;> simp [setCaller, leave, hrun, CallerPc.Starting]
      · exact ⟨hrun, hi⟩
  | settingRate f => simp [setCaller, hrun, CallerPc.Starting]
  | join t =>
      simp only
      split_ifs <;> simp [setCaller, leave, hrun, CallerPc.Starting]
  | stop restart =>
      simp only
      split_ifs
      · simp [setCaller, CallerPc.Starting]
      · simp [leave, CallerPc.Starting]
      · exact ⟨hrun, hi⟩
  | settingChunk f => simp [leave, hrun, CallerPc.Starting]

end State
end Capture
end App
end Carlinkit
