/-
# One worker at a time

`stop` does not wait for a worker that is blocked in `AudioTrack.write`, and a worker may
die anywhere.  What keeps a second one from the same tracks is `audioThread`: `start` goes
on only when the worker it finds there is not alive, under a lock that the worker takes
only after `releaseTrack`.

`exclusive_run` says that this is enough: a worker that is in `run`, and not past
`releaseTrack`, is the one in `audioThread` (`Solo`).
-/

import Carlinkit.App.AudioPlayer

namespace Carlinkit
namespace App
namespace Audio

open Protocol Machine

/-- The thread has `lifecycleLock`. -/
def CallerPc.Holding : CallerPc → Prop
  | .startTest | .startClear | .startRecycle _ | .startReset | .startRunning | .startThread
  | .startLaunch _ | .stopClear | .stopRecycle _ | .stopInterrupt => True
  | _ => False

/-- The thread is in `start`, past the wait for the previous worker. -/
def CallerPc.Launching : CallerPc → Prop
  | .startClear | .startRecycle _ | .startReset | .startRunning | .startThread
  | .startLaunch _ => True
  | _ => False

theorem CallerPc.Launching.holding {pc : CallerPc} (h : pc.Launching) : pc.Holding := by
  cases pc <;> trivial

theorem WorkerPc.InRun.alive {pc : WorkerPc} (h : pc.InRun) : pc.Alive := by
  cases pc <;> trivial

/-- A worker that is at a call of a track is in `run`. -/
theorem WorkerPc.inRun_of_uses {pc : WorkerPc} {a : ℕ} (h : pc.uses = some a) : pc.InRun := by
  cases pc <;> trivial

namespace State

/-- At most one thread is in a block of `lifecycleLock` of several actions, and it has the
lock. -/
def Held (s : State) : Prop := OwnerOf s.lock CallerPc.Holding s.callers

theorem held_new : new.Held := fun _ h => absurd h id

/-- A worker in `run` is the one in `audioThread`; there is none while `start` is past its
wait. -/
structure Solo (s : State) : Prop where
  worker : OwnerOf s.audioThread WorkerPc.InRun s.workers
  unborn : ∀ t, s.threads ≤ t → s.workers t = .unborn
  alone : ∀ i, (s.callers i).Launching → ∀ t, ¬ (s.workers t).InRun
  launch : ∀ i t, s.callers i = .startLaunch t → s.audioThread = some t ∧ t < s.threads

theorem solo_new : new.Solo where
  worker _ h := absurd h id
  unborn _ _ := rfl
  alone _ h := absurd h id
  launch _ _ h := by simp [new] at h

variable {s : State}

/-! ### The other threads -/

/-- The read thread concerns the queue, the arrays and itself. -/
theorem frame_readStep (s : State) (missed : Bool) :
    (s.readStep missed).callers = s.callers ∧ (s.readStep missed).workers = s.workers ∧
      (s.readStep missed).audioThread = s.audioThread ∧ (s.readStep missed).lock = s.lock ∧
      (s.readStep missed).threads = s.threads := by
  unfold readStep
  cases s.reader with
  | check m said =>
      simp only
      split
      · cases m.kind with
        | pcm =>
            simp only
            split_ifs <;> exact ⟨rfl, rfl, rfl, rfl, rfl⟩
        | _ => exact ⟨rfl, rfl, rfl, rfl, rfl⟩
      · exact ⟨rfl, rfl, rfl, rfl, rfl⟩
  | copy m said array =>
      simp only
      cases slice s.payload m <;> exact ⟨rfl, rfl, rfl, rfl, rfl⟩
  | _ => exact ⟨rfl, rfl, rfl, rfl, rfl⟩

/-- From `s` to `s'` worker `t` moved to `q`, and the other threads, `audioThread` and the lock
are as they were. -/
structure Moved (s s' : State) (t : ℕ) (q : WorkerPc) : Prop where
  workers : s'.workers = Function.update s.workers t q
  callers : s'.callers = s.callers
  audioThread : s'.audioThread = s.audioThread
  lock : s'.lock = s.lock
  threads : s'.threads = s.threads

theorem moved_refl {t : ℕ} {q : WorkerPc} (h : s.workers t = q) : s.Moved s t q :=
  ⟨by rw [← h, Function.update_eq_self], rfl, rfl, rfl, rfl⟩

/-- A worker moves, but not into `run`, and before the end of its thread it moves alone. -/
theorem moved_workerStep {t : ℕ} (hpc : s.workers t ≠ .ending) (ok : Bool) :
    ∃ q, s.Moved (s.workerStep t ok) t q ∧ (q.InRun → (s.workers t).InRun) ∧
      (s.workers t = .unborn → q = .unborn) := by
  unfold workerStep
  cases h : s.workers t with
  | unborn | dead => exact ⟨_, moved_refl h, id, id⟩
  | ending => exact absurd h hpc
  | ended => exact ⟨.dead, ⟨rfl, rfl, rfl, rfl, rfl⟩, False.elim, nofun⟩
  | poll =>
      simp only
      split
      · exact ⟨_, ⟨rfl, rfl, rfl, rfl, rfl⟩, fun _ => trivial, nofun⟩
      · cases s.buffers.poll <;> exact ⟨_, ⟨rfl, rfl, rfl, rfl, rfl⟩, fun _ => trivial, nofun⟩
  | ensure p =>
      simp only [ensureStep]
      cases s.tracks.current p.decodeType with
      | some a => exact ⟨_, ⟨rfl, rfl, rfl, rfl, rfl⟩, fun _ => trivial, nofun⟩
      | none =>
          cases s.tracks.get p.decodeType <;>
            exact ⟨_, ⟨rfl, rfl, rfl, rfl, rfl⟩, fun _ => trivial, nofun⟩
  | create p =>
      simp only [createStep]
      split_ifs <;> exact ⟨_, ⟨rfl, rfl, rfl, rfl, rfl⟩, fun _ => trivial, nofun⟩
  | command c decodeType =>
      simp only [commandStep]
      split <;> exact ⟨_, ⟨rfl, rfl, rfl, rfl, rfl⟩, fun _ => trivial, nofun⟩
  | playFresh p a | pause a rest | stopTrack a rest =>
      simp only
      split <;> exact ⟨_, ⟨rfl, rfl, rfl, rfl, rfl⟩, fun _ => trivial, nofun⟩
  | catching =>
      simp only
      split
      · exact ⟨_, ⟨rfl, rfl, rfl, rfl, rfl⟩, fun _ => trivial, nofun⟩
      · exact ⟨_, moved_refl h, fun _ => trivial, nofun⟩
  | _ => exact ⟨_, ⟨rfl, rfl, rfl, rfl, rfl⟩, fun _ => trivial, nofun⟩

/-- An exception moves a worker, but not into `run`. -/
theorem moved_throwStep (s : State) (t : ℕ) :
    ∃ q, s.Moved (s.throwStep t) t q ∧ (q.InRun → (s.workers t).InRun) ∧
      (s.workers t = .unborn → q = .unborn) := by
  unfold throwStep
  cases h : s.workers t with
  | unborn | dead => exact ⟨_, moved_refl h, id, id⟩
  | ending | ended => exact ⟨.dead, ⟨rfl, rfl, rfl, rfl, rfl⟩, False.elim, nofun⟩
  | _ => exact ⟨_, ⟨rfl, rfl, rfl, rfl, rfl⟩, fun _ => trivial, nofun⟩

/-! ### The lock -/

/-- `clearQueueAndRecycle` moves the thread, and concerns the queue otherwise. -/
theorem clearStep_cases (s : State) (i : ℕ) (again : CallerPc) (recycle : ℕ → CallerPc)
    (done : CallerPc) : ∃ buffers q,
      s.clearStep i again recycle done = { s with buffers := buffers }.setCaller i q ∧
        (q = again ∨ (∃ array, q = recycle array) ∨ q = done) := by
  unfold clearStep
  match s.buffers.poll with
  | none => exact ⟨s.buffers, done, rfl, .inr (.inr rfl)⟩
  | some (.pcm p, buffers) => exact ⟨buffers, recycle p.array, rfl, .inr (.inl ⟨p.array, rfl⟩)⟩
  | some (.control _, buffers) => exact ⟨buffers, again, rfl, .inl rfl⟩

theorem Held.callerStep (h : s.Held) (i : ℕ) (ok missed : Bool) :
    (s.callerStep i ok missed).Held := by
  have hin : ∀ pc, s.callers i = pc → pc.Holding → (s.callers i).Holding := fun _ heq hpc =>
    heq ▸ hpc
  unfold State.callerStep
  cases hpc : s.callers i with
  | idle => exact h
  | start =>
      simp only
      split_ifs with hfree
      · exact h.outside (a := .idle) rfl rfl id
      · exact .enters (a := .startTest) (h.free hfree) rfl rfl
      · exact h
  | startTest =>
      simp only
      split
      · refine h.leaves (a := if ok then .startWait else .idle) (hin _ hpc trivial) rfl ?_
        cases ok <;> exact id
      · exact h.inside (a := .startClear) (hin _ hpc trivial) rfl rfl
  | startWait =>
      simp only
      split_ifs with hfree
      · exact .enters (a := .startTest) (h.free hfree) rfl rfl
      · exact h.outside (a := .idle) rfl rfl id
      · exact h
  | startClear =>
      obtain ⟨buffers, q, hstep, -⟩ := s.clearStep_cases i .startClear .startRecycle .startReset
      simp only [hstep]
      exact h.inside (hin _ hpc trivial) rfl rfl
  | stopClear =>
      obtain ⟨buffers, q, hstep, -⟩ := s.clearStep_cases i .stopClear .stopRecycle .stopInterrupt
      simp only [hstep]
      exact h.inside (hin _ hpc trivial) rfl rfl
  | startRecycle array | startReset | startRunning | startThread | stopRecycle array =>
      exact h.inside (hin _ hpc trivial) rfl rfl
  | startLaunch t =>
      cases ok <;> exact h.leaves (a := .idle) (hin _ hpc trivial) rfl id
  | stop =>
      simp only
      split_ifs with hfree
      · exact h.outside (a := .idle) rfl rfl id
      · exact .enters (a := .stopClear) (h.free hfree) rfl rfl
      · exact h
  | stopInterrupt =>
      cases s.audioThread with
      | none => exact h.leaves (a := .idle) (hin _ hpc trivial) rfl id
      | some t => exact h.leaves (a := .join t) (hin _ hpc trivial) rfl id
  | join t => exact h.outside (a := .settle t) rfl rfl id
  | settle t =>
      simp only
      split_ifs
      · exact h.outside (a := .idle) rfl rfl id
      · exact h.outside (a := .idle) rfl rfl id
      · exact h
  | mute muted => exact h.outside (a := .muteCheck muted) rfl rfl id
  | muteCheck muted =>
      refine h.outside (a := if s.running then .control (.mute muted) (.enter muted) else .idle)
        rfl rfl ?_
      split_ifs <;> exact id
  | control c pc =>
      have hout : ∀ next : Option ControlPc, ¬ (next.elim .idle (CallerPc.control c)).Holding := by
        intro next
        cases next <;> exact id
      exact h.outside rfl rfl (hout _)

/-- **Every event keeps the lock.** -/
theorem Held.step (h : s.Held) (e : Event) : (s.step e).Held := by
  have hframe : ∀ {s' : State}, s'.callers = s.callers → s'.lock = s.lock → s'.Held := by
    intro s' hcallers hlock
    rw [Held, hcallers, hlock]
    exact h
  cases e with
  | receive payload =>
      simp only [State.step]
      split_ifs <;> exact h
  | onAudio m =>
      cases m with
      | none => exact h
      | some m =>
          simp only [State.step]
          split_ifs <;> exact h
  | read missed =>
      obtain ⟨hcallers, -, -, hlock, -⟩ := s.frame_readStep missed
      exact hframe hcallers hlock
  | call i c =>
      simp only [State.step]
      split_ifs
      · cases c <;> exact h.outside rfl rfl id
      · exact h
  | caller i ok missed => exact h.callerStep i ok missed
  | worker t ok =>
      by_cases hpc : s.workers t = .ending
      · simp only [State.step, State.workerStep, hpc]
        split_ifs <;> exact h
      · obtain ⟨q, hmoved, -⟩ := moved_workerStep hpc ok
        exact hframe hmoved.callers hmoved.lock
  | throw t =>
      obtain ⟨q, hmoved, -⟩ := s.moved_throwStep t
      exact hframe hmoved.callers hmoved.lock

/-! ### The worker -/

/-- A worker moves, but not into `run`. -/
theorem Solo.moves (h : s.Solo) {s' : State} {t : ℕ} {q : WorkerPc} (hmoved : s.Moved s' t q)
    (hin : q.InRun → (s.workers t).InRun) (hunborn : s.workers t = .unborn → q = .unborn) :
    s'.Solo where
  worker := h.worker.stays hmoved.workers hmoved.audioThread hin
  unborn t' ht' := by
    rw [hmoved.threads] at ht'
    rw [hmoved.workers]
    by_cases heq : t' = t
    · subst heq
      rw [Function.update_self, hunborn (h.unborn t' ht')]
    · rw [Function.update_of_ne heq, h.unborn t' ht']
  alone i hi t' ht' := by
    rw [hmoved.callers] at hi
    rw [hmoved.workers] at ht'
    exact h.alone i hi t' (of_region_update_of_imp hin ht')
  launch i t' hi := by
    rw [hmoved.callers] at hi
    rw [hmoved.audioThread, hmoved.threads]
    exact h.launch i t' hi

/-- A calling thread moves, but to no `start()` of a worker. -/
theorem Solo.caller (h : s.Solo) {s' : State} {i : ℕ} {q : CallerPc}
    (hcallers : s'.callers = Function.update s.callers i q) (hworkers : s'.workers = s.workers)
    (hthread : s'.audioThread = s.audioThread) (hthreads : s'.threads = s.threads)
    (hlaunching : q.Launching → ∀ t, ¬ (s.workers t).InRun) (hlaunch : ∀ t, q ≠ .startLaunch t) :
    s'.Solo where
  worker := by
    rw [hthread, hworkers]
    exact h.worker
  unborn := by
    rw [hthreads, hworkers]
    exact h.unborn
  alone j hj := by
    rw [hcallers] at hj
    rw [hworkers]
    by_cases hij : j = i
    · subst hij
      exact hlaunching (by rwa [Function.update_self] at hj)
    · exact h.alone j (by rwa [Function.update_of_ne hij] at hj)
  launch j t hj := by
    rw [hcallers] at hj
    rw [hthread, hthreads]
    exact h.launch j t (of_region_update (p := (· = CallerPc.startLaunch t)) (hlaunch t) hj).2

/-- The worker that `startThread` makes is in `audioThread`, and not yet in `run`. -/
theorem Solo.startThread (h : s.Solo) (hheld : s.Held) {i : ℕ} (hpc : s.callers i = .startThread) :
    { s.setCaller i (.startLaunch s.threads) with
      audioThread := some s.threads, threads := s.threads + 1 }.Solo := by
  have hi : (s.callers i).Launching := by rw [hpc]; trivial
  have hnone : ∀ t, ¬ (s.workers t).InRun := h.alone i hi
  refine ⟨.of_empty _ hnone, fun t ht => h.unborn t (Nat.le_of_succ_le ht), fun _ _ => hnone,
    fun j t hj => ?_⟩
  by_cases hij : j = i
  · subst hij
    have ht : s.threads = t := by simpa [setCaller] using hj
    exact ⟨congrArg some ht, ht ▸ Nat.lt_succ_self _⟩
  · -- nobody else is in that block
    have hj : s.callers j = .startLaunch t := by simpa [setCaller, hij] using hj
    exact absurd (hheld.unique (by rw [hj]; trivial) hi.holding) hij

/-- `t.start()`: the worker in `audioThread` goes into `run`, where nobody is. -/
theorem Solo.startLaunch (h : s.Solo) (hheld : s.Held) {i t : ℕ}
    (hpc : s.callers i = .startLaunch t) :
    ({ s.setCaller i .idle with lock := none }.setWorker t .checkRunning).Solo := by
  obtain ⟨hthread, hborn⟩ := h.launch i t hpc
  have hi : (s.callers i).Launching := by rw [hpc]; trivial
  -- nobody else is past the wait of `start`
  have hleft : ∀ j, ¬ (Function.update s.callers i .idle j).Launching := fun j hj =>
    have ⟨hne, hj⟩ := of_region_update (p := CallerPc.Launching) id hj
    hne (hheld.unique hj.holding hi.holding)
  refine ⟨.enters (a := .checkRunning) (h.alone i hi) rfl hthread, fun t' ht' => ?_,
    fun j hj => absurd hj (hleft j), fun j t' hj => ?_⟩
  · have ht' : s.threads ≤ t' := ht'
    have hne : t' ≠ t := by omega
    exact (Function.update_of_ne hne ..).trans (h.unborn t' ht')
  · have hj : Function.update s.callers i .idle j = .startLaunch t' := hj
    exact absurd (by rw [hj]; trivial) (hleft j)

/-- The end of a worker, and the second block of `stop`: `audioThread` is cleared with nobody
in `run`. -/
theorem Solo.clears (h : s.Solo) (hheld : s.Held) (hfree : s.lock = none) {t : ℕ}
    (hthread : s.audioThread = some t) (ht : ¬ (s.workers t).InRun) :
    { s with audioThread := none }.Solo := by
  have hnone : ∀ t', ¬ (s.workers t').InRun := h.worker.empty fun t' ht' => by
    rw [hthread] at ht'
    exact Option.some.inj ht' ▸ ht
  exact ⟨.of_empty none hnone, h.unborn, fun _ _ => hnone,
    fun i t' hi => absurd (by rw [hi]; trivial) (hheld.free hfree i)⟩

/-- A calling thread. -/
theorem Solo.callerStep (h : s.Solo) (hheld : s.Held) (i : ℕ) (ok missed : Bool) :
    (s.callerStep i ok missed).Solo := by
  have hin : ∀ pc, s.callers i = pc → pc.Launching → ∀ t, ¬ (s.workers t).InRun :=
    fun _ heq hpc => h.alone i (heq ▸ hpc)
  unfold State.callerStep
  cases hpc : s.callers i with
  | idle => exact h
  | start =>
      simp only
      split_ifs
      · exact h.caller (q := .idle) rfl rfl rfl rfl False.elim nofun
      · exact h.caller (q := .startTest) rfl rfl rfl rfl False.elim nofun
      · exact h
  | startTest =>
      simp only
      split
      · refine h.caller (q := if ok then .startWait else .idle) rfl rfl rfl rfl ?_ ?_
        · cases ok <;> exact False.elim
        · cases ok <;> exact nofun
      · -- a worker in `run` would be in `audioThread`, and alive
        rename_i hdead
        refine h.caller (q := .startClear) rfl rfl rfl rfl (fun _ => ?_) nofun
        exact h.worker.empty fun t ht hrun => hdead ⟨t, ht, hrun.alive⟩
  | startWait =>
      simp only
      split_ifs
      · exact h.caller (q := .startTest) rfl rfl rfl rfl False.elim nofun
      · exact h.caller (q := .idle) rfl rfl rfl rfl False.elim nofun
      · exact h
  | startClear =>
      obtain ⟨buffers, q, hstep, hq⟩ := s.clearStep_cases i .startClear .startRecycle .startReset
      simp only [hstep]
      refine h.caller (q := q) rfl rfl rfl rfl (fun _ => hin _ hpc trivial) ?_
      rcases hq with rfl | ⟨array, rfl⟩ | rfl <;> exact nofun
  | stopClear =>
      obtain ⟨buffers, q, hstep, hq⟩ := s.clearStep_cases i .stopClear .stopRecycle .stopInterrupt
      simp only [hstep]
      refine h.caller (q := q) rfl rfl rfl rfl ?_ ?_
      · rcases hq with rfl | ⟨array, rfl⟩ | rfl <;> exact False.elim
      · rcases hq with rfl | ⟨array, rfl⟩ | rfl <;> exact nofun
  | startRecycle array =>
      exact h.caller (q := .startClear) rfl rfl rfl rfl (fun _ => hin _ hpc trivial) nofun
  | startReset =>
      exact h.caller (q := .startRunning) rfl rfl rfl rfl (fun _ => hin _ hpc trivial) nofun
  | startRunning =>
      exact h.caller (q := .startThread) rfl rfl rfl rfl (fun _ => hin _ hpc trivial) nofun
  | startThread => exact h.startThread hheld hpc
  | startLaunch t =>
      cases ok with
      | true => exact h.startLaunch hheld hpc
      | false => exact h.caller (q := .idle) rfl rfl rfl rfl False.elim nofun
  | stop =>
      simp only
      split_ifs
      · exact h.caller (q := .idle) rfl rfl rfl rfl False.elim nofun
      · exact h.caller (q := .stopClear) rfl rfl rfl rfl False.elim nofun
      · exact h
  | stopRecycle array => exact h.caller (q := .stopClear) rfl rfl rfl rfl False.elim nofun
  | stopInterrupt =>
      cases s.audioThread with
      | none => exact h.caller (q := .idle) rfl rfl rfl rfl False.elim nofun
      | some t => exact h.caller (q := .join t) rfl rfl rfl rfl False.elim nofun
  | join t => exact h.caller (q := .settle t) rfl rfl rfl rfl False.elim nofun
  | settle t =>
      simp only
      split_ifs with hfree hdead
      · refine Solo.caller (q := .idle) (s := { s with audioThread := none }) ?_ rfl rfl rfl rfl
          False.elim nofun
        exact h.clears hheld hfree hdead.1 fun hrun => hdead.2 hrun.alive
      · exact h.caller (q := .idle) rfl rfl rfl rfl False.elim nofun
      · exact h
  | mute muted => exact h.caller (q := .muteCheck muted) rfl rfl rfl rfl False.elim nofun
  | muteCheck muted =>
      refine h.caller (q := if s.running then .control (.mute muted) (.enter muted) else .idle)
        rfl rfl rfl rfl ?_ ?_
      · split_ifs <;> exact False.elim
      · split_ifs <;> exact nofun
  | control c pc =>
      have hout : ∀ next : Option ControlPc,
          ¬ (next.elim .idle (CallerPc.control c)).Launching ∧
            ∀ t, next.elim .idle (CallerPc.control c) ≠ .startLaunch t := by
        intro next
        cases next <;> exact ⟨id, nofun⟩
      exact h.caller rfl rfl rfl rfl (fun hl => absurd hl (hout _).1) (hout _).2

/-- **Every event keeps the worker alone.** -/
theorem Solo.step (h : s.Solo) (hheld : s.Held) (e : Event) : (s.step e).Solo := by
  cases e with
  | receive payload =>
      simp only [State.step]
      split_ifs
      · exact { h with }
      · exact h
  | onAudio m =>
      cases m with
      | none => exact h
      | some m =>
          simp only [State.step]
          split_ifs
          · exact { h with }
          · exact h
  | read missed =>
      obtain ⟨hcallers, hworkers, hthread, -, hthreads⟩ := s.frame_readStep missed
      refine ⟨?_, ?_, ?_, ?_⟩ <;> simp only [State.step, hcallers, hworkers, hthread, hthreads]
      · exact h.worker
      · exact h.unborn
      · exact h.alone
      · exact h.launch
  | call i c =>
      simp only [State.step]
      split_ifs
      · cases c <;> exact h.caller rfl rfl rfl rfl False.elim nofun
      · exact h
  | caller i ok missed => exact h.callerStep hheld i ok missed
  | worker t ok =>
      by_cases hpc : s.workers t = .ending
      · have hend : ¬ (s.workers t).InRun := by rw [hpc]; exact id
        have hout : ∀ s' : State, s'.Solo → s'.workers t = .ending →
            (s'.setWorker t .ended).Solo := fun s' hs' hpc' =>
          hs'.moves (q := .ended) ⟨rfl, rfl, rfl, rfl, rfl⟩ False.elim (by simp [hpc'])
        simp only [State.step, State.workerStep, hpc]
        split_ifs with hfree hthread
        · have hclears := hout _ (h.clears hheld hfree hthread hend) hpc
          exact { hclears with }
        · exact hout s h hpc
        · exact h
      · obtain ⟨q, hmoved, hin, hunborn⟩ := moved_workerStep hpc ok
        exact h.moves hmoved hin hunborn
  | throw t =>
      obtain ⟨q, hmoved, hin, hunborn⟩ := s.moved_throwStep t
      exact h.moves hmoved hin hunborn

theorem solo_run (es : List Event) : (run step new es).Solo := by
  have hinv : (run step new es).Held ∧ (run step new es).Solo :=
    run_invariant (I := fun s => Held s ∧ Solo s) (fun _ e hs => ⟨hs.1.step e, hs.2.step hs.1 e⟩)
      ⟨held_new, solo_new⟩ es
  exact hinv.2

/-- One worker at most is in `run` and not past `releaseTrack`; so a track is used by one
worker at most, and is not released while it is written to. -/
def Exclusive (s : State) : Prop :=
  (∀ t t', (s.workers t).InRun → (s.workers t').InRun → t = t') ∧
    (∀ t t' a, (s.workers t).uses = some a → (s.workers t').uses = some a → t = t') ∧
    ∀ t t' a p rest, s.workers t = .write p a → s.workers t' ≠ .release a rest

theorem exclusive_of_solo (h : s.Solo) : s.Exclusive := by
  have huses : ∀ t t' a, (s.workers t).uses = some a → (s.workers t').uses = some a → t = t' :=
    fun t t' a ht ht' => h.worker.unique (WorkerPc.inRun_of_uses ht) (WorkerPc.inRun_of_uses ht')
  refine ⟨fun t t' => h.worker.unique, huses, fun t t' a p rest ht ht' => ?_⟩
  have heq : t = t' := huses t t' a (by rw [ht]; rfl) (by rw [ht']; rfl)
  subst heq
  rw [ht] at ht'
  exact absurd ht' (by simp)

/-- **The tracks have one worker at a time.**  Over every interleaving of any number of
threads that call `start`, `stop` and `setMuted` with the read thread and the workers, where
every wait and every join may run out of time, a worker may stay in a call of a track for as
long as it likes, and an exception may come out of it anywhere. -/
theorem exclusive_run (es : List Event) : (run step new es).Exclusive :=
  exclusive_of_solo (solo_run es)

end State
end Audio
end App
end Carlinkit
