/-
# The owner of the microphone device

The capture thread alone reads, closes and reopens the `AudioRecord`, and
`captureThread` names it.  `start` waits for the thread it finds there, outside the
monitor, and `startLocked` does not look at `captureThread` again: another thread may
have started a capture meanwhile, and a third one may have stopped it.

`exclusive_of_rechecks` says that nothing else goes wrong: the device has one owner as
long as `startLocked` finds no capture thread alive where it finds `running` false.
-/

import Carlinkit.App.CaptureThreads

namespace Carlinkit
namespace App
namespace Capture

open Protocol Machine

namespace State

/-- The event releases the `AudioRecord` in `record`, or puts another one there. -/
def Replaces (s : State) (e : Event) : Prop := s.record ≠ none ∧ (s.step e).record ≠ s.record

/-- The device has one owner: at most one thread is in `captureLoop`, and the event neither
releases nor replaces the `AudioRecord` under another one. -/
def Exclusive (s : State) (e : Event) : Prop :=
  (∀ t t', (s.captures t).InLoop → (s.captures t').InLoop → t = t') ∧
    (s.Replaces e → ∀ t, (s.captures t).InLoop → e.captureThread = some t)

/-- `startLocked` finds no capture thread alive where it finds `running` false. -/
def Rechecks (s : State) : Event → Prop
  | .caller i _ => s.callers i = .startLocked → s.monitor = none → s.running = false →
      ∀ t ∈ s.captureThread, ¬ (s.captures t).Alive
  | _ => True

instance (s : State) : ∀ e : Event, Decidable (s.Rechecks e)
  | .caller i _ => inferInstanceAs (Decidable (s.callers i = .startLocked → s.monitor = none →
      s.running = false → ∀ t ∈ s.captureThread, _))
  | .call .. | .capture .. | .read .. => .isTrue trivial

/-- What holds as long as every `startLocked` finds the device free. -/
structure Owned (s : State) : Prop where
  owner : OwnerOf s.captureThread CapturePc.InLoop s.captures
  inLoop : ∀ t ∈ s.captureThread, (s.captures t).InLoop
  unborn : ∀ t, s.threads ≤ t → s.captures t = .unborn
  alone : ∀ i, (s.callers i).Starting → ∀ t, ¬ (s.captures t).InLoop

theorem owned_new : new.Owned where
  owner _ h := absurd h id
  inLoop := by simp [new]
  unborn _ _ := rfl
  alone _ h := absurd h id

variable {s : State}

/-! ### One step -/

/-- A calling thread that starts no capture thread. -/
theorem Owned.caller (h : s.Owned) {s' : State} {i : ℕ} {q : CallerPc}
    (hcallers : s'.callers = Function.update s.callers i q) (hcaptures : s'.captures = s.captures)
    (hthread : s'.captureThread = s.captureThread) (hthreads : s'.threads = s.threads)
    (hstarting : q.Starting → ∀ t, ¬ (s.captures t).InLoop) : s'.Owned where
  owner := by
    rw [hcaptures, hthread]
    exact h.owner
  inLoop := by
    rw [hcaptures, hthread]
    exact h.inLoop
  unborn := by
    rw [hcaptures, hthreads]
    exact h.unborn
  alone j hj := by
    rw [hcallers] at hj
    rw [hcaptures]
    by_cases hij : j = i
    · subst hij
      exact hstarting (by rwa [Function.update_self] at hj)
    · exact h.alone j (by rwa [Function.update_of_ne hij] at hj)

/-- A capture thread that stays in its loop, or out of it. -/
theorem Owned.capture (h : s.Owned) {s' : State} {t : ℕ} {q : CapturePc}
    (hcaptures : s'.captures = Function.update s.captures t q) (hcallers : s'.callers = s.callers)
    (hthread : s'.captureThread = s.captureThread) (hthreads : s'.threads = s.threads)
    (hborn : s.captures t ≠ .unborn)
    (hloop : q.InLoop ↔ (s.captures t).InLoop) : s'.Owned where
  owner := by
    intro t' ht'
    rw [hcaptures] at ht'
    rw [hthread]
    exact h.owner t' ((region_update_iff hloop t').1 ht')
  inLoop t' ht' := by
    rw [hcaptures]
    exact (region_update_iff hloop t').2 (h.inLoop t' (hthread ▸ ht'))
  unborn t' ht' := by
    rw [hthreads] at ht'
    have hne : t' ≠ t := by
      rintro rfl
      exact hborn (h.unborn t' ht')
    rw [hcaptures, Function.update_of_ne hne]
    exact h.unborn t' ht'
  alone i hi t' ht' := by
    rw [hcaptures] at ht'
    exact h.alone i (hcallers ▸ hi) t' ((region_update_iff hloop t').1 ht')

/-- The owner's last block. -/
theorem Owned.finish (h : s.Owned) {t : ℕ} (hpc : s.captures t = .finish) :
    { s.setCapture t .ended with
      running := false, captureThread := none, record := none }.Owned where
  owner := h.owner.leaves (a := .ended) (by rw [hpc]; trivial) rfl id
  inLoop := by simp
  unborn t' ht' := by
    have hne : t' ≠ t := by
      rintro rfl
      exact absurd (h.unborn t' ht') (by simp [hpc])
    exact (Function.update_of_ne hne ..).trans (h.unborn t' ht')
  alone i hi t' ht' := h.alone i hi t' (of_region_update (p := CapturePc.InLoop) id ht').2

/-- The end of `startLocked`. -/
theorem Owned.launch (h : s.Owned) (hheld : s.Held) {i : ℕ} (hpc : s.callers i = .launching)
    (ok : Bool) : (s.launch i ok).Owned := by
  have hi : (s.callers i).Starting := by rw [hpc]; trivial
  have hnone : ∀ t, ¬ (s.captures t).InLoop := h.alone i hi
  -- nobody else is in `startLocked`
  have hleft : ∀ j, ¬ (Function.update s.callers i .idle j).Starting := fun j hj =>
    have ⟨hne, hj⟩ := of_region_update (p := CallerPc.Starting) id hj
    hne (hheld.unique hj.holding hi.holding)
  cases ok with
  | false =>
      exact ⟨.of_empty none hnone, by simp [State.launch], h.unborn, fun _ _ => hnone⟩
  | true =>
      refine ⟨.enters hnone rfl rfl, ?_, fun t ht => ?_,
        fun j hj => absurd hj (hleft j)⟩
      · simp [State.launch, setCapture, CapturePc.InLoop]
      · have ht : s.threads + 1 ≤ t := ht
        have hne : t ≠ s.threads := by omega
        exact (Function.update_of_ne hne ..).trans (h.unborn t (by omega))

/-- A source did not open in `startLocked`. -/
theorem Owned.nextStart (h : s.Owned) {i : ℕ} (hi : (s.callers i).Starting) :
    (s.nextStart i).Owned := by
  unfold State.nextStart
  split_ifs
  · exact h.caller (q := .opening) rfl rfl rfl rfl fun _ => h.alone i hi
  · exact h.caller (q := .idle) rfl rfl rfl rfl False.elim

theorem Owned.startStep (h : s.Owned) (i : ℕ) : (s.startStep i).Owned := by
  unfold State.startStep
  split_ifs
  · exact h.caller (q := .idle) rfl rfl rfl rfl False.elim
  · cases s.captureThread with
    | none => exact h.caller (q := .startLocked) rfl rfl rfl rfl False.elim
    | some t =>
        simp only
        split_ifs
        · exact h.caller (q := .join t) rfl rfl rfl rfl False.elim
        · exact h.caller (q := .startLocked) rfl rfl rfl rfl False.elim

theorem Owned.setDecodeTypeStep (h : s.Owned) (i : ℕ) (type : BitVec 32) :
    (s.setDecodeTypeStep i type).Owned := by
  unfold State.setDecodeTypeStep
  cases CaptureFormat.ofDecodeType type with
  | none => exact h.caller (q := .idle) rfl rfl rfl rfl False.elim
  | some f =>
      simp only
      split_ifs
      · exact h.caller (q := .idle) rfl rfl rfl rfl False.elim
      · exact h.caller (q := .settingRate f) rfl rfl rfl rfl False.elim

/-- A calling thread, where `startLocked` finds no capture thread alive. -/
theorem Owned.callerStep (h : s.Owned) (hheld : s.Held) (i : ℕ) (ok : Bool)
    (he : s.Rechecks (.caller i ok)) : (s.callerStep i ok).Owned := by
  unfold State.callerStep
  cases hpc : s.callers i with
  | idle => exact h
  | start =>
      simp only
      split_ifs
      · exact h.startStep i
      · exact h
  | join t =>
      simp only
      split_ifs
      · exact h.caller (q := .idle) rfl rfl rfl rfl False.elim
      · exact h.caller (q := .startLocked) rfl rfl rfl rfl False.elim
  | startLocked =>
      simp only
      split_ifs with hfree hrun
      · exact h.caller (q := .idle) rfl rfl rfl rfl False.elim
      · -- the device is free: its owner, if there is one, is not alive
        have hdead := he hpc hfree (by simpa using hrun)
        exact h.caller (q := .opening) rfl rfl rfl rfl
          fun _ => h.owner.empty fun t ht hloop => hdead t ht hloop.alive
      · exact h
  | opening =>
      have hi : (s.callers i).Starting := by rw [hpc]; trivial
      cases ok with
      | true =>
          exact h.caller (q := .making) rfl rfl rfl rfl fun _ => h.alone i hi
      | false => exact h.nextStart hi
  | making =>
      have hi : (s.callers i).Starting := by rw [hpc]; trivial
      cases ok with
      | true =>
          exact h.caller (q := .launching) rfl rfl rfl rfl fun _ => h.alone i hi
      | false => exact Owned.nextStart (s := s.releaseRecord) { h with } hi
  | launching => exact h.launch hheld hpc ok
  | stop restart =>
      simp only
      split_ifs
      · exact h.caller (q := .start) rfl rfl rfl rfl False.elim
      · exact h.caller (q := .idle) rfl rfl rfl rfl False.elim
      · exact h
  | setDecodeType type =>
      simp only
      split_ifs
      · exact h.setDecodeTypeStep i type
      · exact h
  | settingRate f => exact h.caller (q := .settingChunk f) rfl rfl rfl rfl False.elim
  | settingChunk f =>
      simp only
      split_ifs
      · exact h.caller (q := .stop true) rfl rfl rfl rfl False.elim
      · exact h.caller (q := .idle) rfl rfl rfl rfl False.elim

/-- A capture thread goes on in its loop. -/
theorem Owned.inside (h : s.Owned) {s' : State} {t : ℕ} {q : CapturePc}
    (ht : (s.captures t).InLoop) (hpc : q.InLoop)
    (hcaptures : s'.captures = Function.update s.captures t q) (hcallers : s'.callers = s.callers)
    (hthread : s'.captureThread = s.captureThread) (hthreads : s'.threads = s.threads) :
    s'.Owned := by
  refine h.capture hcaptures hcallers hthread hthreads (fun hunborn => ?_)
    (iff_of_true hpc ht)
  rw [hunborn] at ht
  exact ht

theorem Owned.nextSource (h : s.Owned) {t : ℕ} (ht : (s.captures t).InLoop) :
    (s.nextSource t).Owned := by
  refine h.inside ht (q := if s.sourceIndex + 1 < sourceCount then .opening else .finish) ?_ rfl
    rfl rfl rfl
  split_ifs <;> trivial

/-- A capture thread. -/
theorem Owned.captureStep (h : s.Owned) (t : ℕ) (ok : Bool) : (s.captureStep t ok).Owned := by
  have hin : ∀ q, s.captures t = q → q.InLoop → (s.captures t).InLoop := fun _ heq hpc =>
    heq ▸ hpc
  unfold State.captureStep
  cases hpc : s.captures t with
  | unborn | reading r | dead => exact h
  | begin => exact h.inside (hin _ hpc trivial) (q := .check) trivial rfl rfl rfl rfl
  | check =>
      refine h.inside (hin _ hpc trivial) (q := if s.running then .load else .finish) ?_ rfl rfl
        rfl rfl
      split_ifs <;> trivial
  | load =>
      cases s.record with
      | none => exact h.inside (hin _ hpc trivial) (q := .finish) trivial rfl rfl rfl rfl
      | some r => exact h.inside (hin _ hpc trivial) (q := .reading r) trivial rfl rfl rfl rfl
  | switching =>
      simp only
      split_ifs
      · exact h.nextSource (hin _ hpc trivial)
      · exact h.inside (hin _ hpc trivial) (q := .finish) trivial rfl rfl rfl rfl
  | opening =>
      cases ok with
      | true => exact h.inside (hin _ hpc trivial) (q := .making) trivial rfl rfl rfl rfl
      | false => exact h.nextSource (hin _ hpc trivial)
  | making =>
      cases ok with
      | true => exact h.inside (hin _ hpc trivial) (q := .check) trivial rfl rfl rfl rfl
      | false => exact Owned.nextSource (s := s.releaseRecord) { h with } (hin _ hpc trivial)
  | sending r length =>
      refine h.inside (hin _ hpc trivial) (q := if ok then .check else .finish) ?_ rfl rfl rfl
        rfl
      split_ifs <;> trivial
  | finish =>
      simp only
      split_ifs with hfree howner
      · exact h.finish hpc
      · -- a thread in its loop is the owner
        exact absurd (h.owner t (hin _ hpc trivial)) howner
      · exact h
  | ended =>
      exact h.capture (t := t) (q := .dead) rfl rfl rfl rfl (by simp [hpc])
        (by rw [hpc]; exact Iff.rfl)

theorem Owned.readStep (h : s.Owned) (t : ℕ) (result : Option ℤ) (peak : ℕ) :
    (s.readStep t result peak).Owned := by
  unfold State.readStep
  cases hpc : s.captures t with
  | reading r =>
      have ht : (s.captures t).InLoop := by rw [hpc]; trivial
      cases result with
      | none => exact h.inside ht (q := .finish) trivial rfl rfl rfl rfl
      | some n =>
          simp only
          split_ifs
          · exact h.inside ht (q := .finish) trivial rfl rfl rfl rfl
          · exact h.inside ht (q := .check) trivial rfl rfl rfl rfl
          · unfold State.account
            simp only
            split_ifs
            · exact h.inside ht (q := .switching) trivial rfl rfl rfl rfl
            · exact h.inside ht (q := .sending r n) trivial rfl rfl rfl rfl
            · exact h.inside ht (q := .sending r n) trivial rfl rfl rfl rfl
  | _ => exact h

/-- **Every event keeps the owner**, if `startLocked` finds the device free. -/
theorem Owned.step (h : s.Owned) (hheld : s.Held) (e : Event) (he : s.Rechecks e) :
    (s.step e).Owned := by
  cases e with
  | call i c =>
      simp only [State.step]
      split_ifs
      · cases c with
        | start => exact h.caller (q := .start) rfl rfl rfl rfl False.elim
        | stop => exact h.caller (q := .stop false) rfl rfl rfl rfl False.elim
        | setDecodeType type =>
            exact h.caller (q := .setDecodeType type) rfl rfl rfl rfl False.elim
      · exact h
  | caller i ok => exact h.callerStep hheld i ok he
  | capture t ok => exact h.captureStep t ok
  | read t result peak => exact h.readStep t result peak

/-- An owned device is exclusive. -/
theorem Owned.exclusive (h : s.Owned) (e : Event) : s.Exclusive e := by
  refine ⟨fun _ _ ht ht' => h.owner.unique ht ht', fun ⟨_, hchange⟩ t ht => ?_⟩
  cases e with
  | call i c =>
      refine absurd ?_ hchange
      simp only [State.step]
      split_ifs
      · cases c <;> rfl
      · rfl
  | caller i ok =>
      by_cases hi : (s.callers i).Starting
      · exact absurd ht (h.alone i hi t)
      · exact absurd ((s.frame_callerStep i ok).2.2.1 hi) hchange
  | capture t' ok =>
      by_cases ht' : (s.captures t').InLoop
      · exact congrArg some (h.owner.unique ht' ht)
      · exact absurd ((s.frame_captureStep t' ok).2.2.2.2.2 ht') hchange
  | read t' result peak =>
      exact absurd (s.frame_readStep t' result peak).2.2.2.2.2.1 hchange

/-! ### And nothing less -/

/-- **Where `startLocked` does not find the device free it makes a second owner.** -/
theorem Owned.doomed (h : s.Owned) {e : Event} (he : ¬ s.Rechecks e) :
    ∃ es, ¬ Along State.step Exclusive s es := by
  cases e with
  | caller i ok =>
      simp only [Rechecks, not_forall, not_not] at he
      obtain ⟨hpc, hfree, hrun, t, ht, -⟩ := he
      have hloop := h.inLoop t ht
      have hne : t ≠ s.threads := by
        rintro rfl
        rw [h.unborn _ le_rfl] at hloop
        exact hloop
      refine ⟨List.replicate 4 (.caller i true) ++ [.call i .stop], fun hall => hne ?_⟩
      -- both threads are in the loop when the last event comes
      obtain ⟨hunique, -⟩ := ((along_append s _ _).1 hall).2.1
      have hcaptures := (run_startLocked hpc hfree hrun).2.2.1
      refine hunique t s.threads ?_ ?_
      · rw [hcaptures, Function.update_of_ne hne]
        exact hloop
      · rw [hcaptures, Function.update_self]
        trivial
  | _ => exact absurd trivial he

/-- **When the device has one owner.**  Over every interleaving of any number of threads that
call `start`, `stop` and `setDecodeType` with the capture threads, where every `join` may
run out of time, the device has one owner in every state, if every `startLocked` that finds
`running` false finds no capture thread alive.  From a state where one finds a capture
thread alive, there is a run with two owners. -/
theorem exclusive_of_rechecks (es : List Event) :
    (Along step Rechecks new es → Along step Exclusive new es) ∧
      (Along step Rechecks new es → ∀ e, ¬ (run step new es).Rechecks e →
        ∃ fs, ¬ Along step Exclusive (run step new es) fs) := by
  have hstep : ∀ s e, Held s ∧ Owned s → s.Rechecks e → (s.step e).Held ∧ (s.step e).Owned :=
    fun _ e h he => ⟨h.1.step e, h.2.step h.1 e he⟩
  have hnew : new.Held ∧ new.Owned := ⟨held_new, owned_new⟩
  exact ⟨fun h => h.imp_of_invariant hstep (fun _ e hs _ => hs.2.exclusive e) hnew,
    fun h _ he => (h.invariant hstep hnew).2.doomed he⟩

/-- A capture that is stopped and started again, the second `start` after a first one that
gave up waiting; and the state before `not_exclusive_stale` goes wrong. -/
theorem exclusive_of_rechecks_restarted :
    Along step Exclusive new
        ([Event.call 0 .start] ++ List.replicate 5 (Event.caller 0 true) ++
          [Event.capture 0 true, .capture 0 true, .call 1 .stop, .caller 1 true, .call 0 .start,
            .caller 0 true, .caller 0 true, .capture 0 true, .capture 0 true, .capture 0 true,
            .capture 0 true, .capture 0 true, .call 0 .start] ++
          List.replicate 5 (Event.caller 0 true)) ∧
      ∃ fs, ¬ Along step Exclusive
        (run step new ([Event.call 0 .start, .caller 0 true, .call 1 .start] ++
          List.replicate 5 (Event.caller 1 true) ++ [Event.call 1 .stop, .caller 1 true])) fs :=
  ⟨(exclusive_of_rechecks _).1 (by decide),
    (exclusive_of_rechecks _).2 (by decide) (.caller 0 true) (by decide)⟩

/-- A starter finds no capture thread, another one starts a capture and stops it, and the
first one closes the device under it. -/
theorem not_exclusive_stale :
    ¬ Along step Exclusive new
      ([Event.call 0 .start, .caller 0 true, .call 1 .start, .caller 1 true] ++
        List.replicate 4 (Event.caller 1 true) ++
        [Event.capture 0 true, .capture 0 true, .call 1 .stop, .caller 1 true] ++
        List.replicate 4 (Event.caller 0 true) ++ [Event.capture 0 true]) := by
  intro hall
  have hlast := ((along_append (P := Exclusive) _ _ _).1 hall).2.1
  exact absurd (hlast.1 0 1 (by decide) (by decide)) (by decide)

end State
end Capture
end App
end Carlinkit
