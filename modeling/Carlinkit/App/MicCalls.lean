/-
# A call as one action

`MicCommands` takes each call of the microphone as one action, and each command of the
session too; `CaptureThreads` and `MicStop` take them apart.  Here the two meet: a call
that no other thread disturbs returns, and comes to what the one action does
(`run_call`), and so does a command (`run_command`).

`Heads` is the promise behind it: from where the thread is, the rest of the call comes to
something in `goal`.
-/

import Carlinkit.App.MicStop

namespace Carlinkit
namespace App

open Protocol Machine

namespace Microphone

/-- A call, with the outcome of its `start`. -/
def call (m : Microphone) (o : Starting) : Capture.Call → Bool × Microphone
  | .start => m.start o
  | .stop => (true, m.stop)
  | .setDecodeType type => m.setDecodeType type o

/-- A `start` that finds no capture running, and does not get one. -/
theorem start_of_ne {m : Microphone} {o : Starting} (hrun : m.running = false)
    (ho : o ≠ .started) : m.start o = (false, m) := by
  simp [start, hrun, ho]

theorem start_of_not_running {m : Microphone} (hrun : m.running = false) :
    m.start .started = (true, { m with running := true }) := by
  simp [start, hrun]

end Microphone

namespace Capture

/-- The first place in a call. -/
def Call.enter : Call → CallerPc
  | .start => .start
  | .stop => .stop false
  | .setDecodeType type => .setDecodeType type

/-- What the rest of a call comes to from a place lies in `goal`, if nobody else moves. -/
def CallerPc.Heads (pc : CallerPc) (decodeType sampleRate : CaptureFormat) (running result : Bool)
    (goal : Bool × Microphone → Prop) : Prop :=
  match pc with
  | .idle => sampleRate = decodeType ∧ goal (result, ⟨decodeType, running⟩)
  | .start | .startLocked =>
      sampleRate = decodeType ∧ ∀ o, goal (Microphone.start o ⟨decodeType, running⟩)
  | .join _ | .opening | .making | .launching =>
      sampleRate = decodeType ∧ running = false ∧
        ∀ o, goal (Microphone.start o ⟨decodeType, running⟩)
  | .stop false => sampleRate = decodeType ∧ goal (true, ⟨decodeType, false⟩)
  | .stop true => sampleRate = decodeType ∧ ∀ o, goal (Microphone.start o ⟨decodeType, false⟩)
  | .setDecodeType type =>
      sampleRate = decodeType ∧ ∀ o, goal (Microphone.setDecodeType type o ⟨decodeType, running⟩)
  | .settingRate f =>
      decodeType = f ∧ if running then ∀ o, goal (Microphone.start o ⟨f, false⟩)
        else goal (true, ⟨f, false⟩)
  | .settingChunk f =>
      decodeType = f ∧ sampleRate = f ∧
        if running then ∀ o, goal (Microphone.start o ⟨f, false⟩) else goal (true, ⟨f, false⟩)

/-- How many actions of its own a thread is from its return, at most. -/
def CallerPc.togo (sourceIndex : ℕ) : CallerPc → ℕ
  | .idle => 0
  | .launching | .stop false => 1
  | .making => 2 * (sourceCount - sourceIndex) + 2
  | .opening => 2 * (sourceCount - sourceIndex) + 3
  | .startLocked => 10
  | .join _ => 11
  | .start => 12
  | .stop true => 13
  | .settingChunk _ => 14
  | .settingRate _ => 15
  | .setDecodeType _ => 16

namespace State

/-- The microphone, as it is between its calls. -/
def microphone (s : State) : Microphone := ⟨s.decodeType, s.running⟩

/-- What the rest of the call of thread `i` comes to lies in `goal`, if nobody else moves. -/
def Heads (s : State) (i : ℕ) (goal : Bool × Microphone → Prop) : Prop :=
  (s.callers i).Heads s.decodeType s.sampleRate s.running (s.results i) goal

variable {s : State} {i : ℕ} {goal : Bool × Microphone → Prop}

/-- Where thread `i` moved to `q`. -/
theorem heads_moved {s' : State} {q : CallerPc}
    (hcallers : s'.callers = Function.update s.callers i q)
    (h : q.Heads s'.decodeType s'.sampleRate s'.running (s'.results i) goal) : s'.Heads i goal := by
  rw [Heads, hcallers, Function.update_self]
  exact h

/-- Where thread `i` returned. -/
theorem heads_left {s' : State} (result : Bool)
    (hcallers : s'.callers = Function.update s.callers i .idle)
    (hresults : s'.results = Function.update s.results i result)
    (hrate : s'.sampleRate = s'.decodeType) (h : goal (result, s'.microphone)) :
    s'.Heads i goal := by
  refine heads_moved hcallers ⟨hrate, ?_⟩
  rw [hresults, Function.update_self]
  exact h

theorem heads_call (hrate : s.sampleRate = s.decodeType) (i : ℕ) (c : Call)
    (hgoal : ∀ o, goal (s.microphone.call o c)) : (s.call i c).Heads i goal := by
  cases c with
  | start => exact heads_moved (q := .start) rfl ⟨hrate, hgoal⟩
  | stop => exact heads_moved (q := .stop false) rfl ⟨hrate, hgoal .started⟩
  | setDecodeType type => exact heads_moved (q := .setDecodeType type) rfl ⟨hrate, hgoal⟩

/-- `startLocked` after a source that did not open. -/
theorem heads_nextStart (hrate : s.sampleRate = s.decodeType) (hrun : s.running = false)
    (hgoal : ∀ o, goal (s.microphone.start o)) : (s.nextStart i).Heads i goal := by
  unfold nextStart
  split_ifs
  · exact heads_moved (q := .opening) rfl ⟨hrate, hrun, hgoal⟩
  · refine heads_left false rfl rfl hrate ?_
    have hnone := hgoal .unavailable
    rwa [Microphone.start_of_ne (m := s.microphone) hrun (by decide)] at hnone

/-- The block of `start`. -/
theorem heads_startStep (hrate : s.sampleRate = s.decodeType)
    (hgoal : ∀ o, goal (s.microphone.start o)) : (s.startStep i).Heads i goal := by
  unfold startStep
  split_ifs with hrun
  · refine heads_left true rfl rfl hrate ?_
    have hsame := hgoal .started
    rwa [Microphone.start_of_running (m := s.microphone) _ hrun] at hsame
  · have hrun : s.running = false := Bool.eq_false_iff.2 hrun
    cases s.captureThread with
    | none => exact heads_moved (q := .startLocked) rfl ⟨hrate, hgoal⟩
    | some t =>
        simp only
        split_ifs
        · exact heads_moved (q := .join t) rfl ⟨hrate, hrun, hgoal⟩
        · exact heads_moved (q := .startLocked) rfl ⟨hrate, hgoal⟩

/-- The block of `setDecodeType` to its first write. -/
theorem heads_setDecodeTypeStep (hrate : s.sampleRate = s.decodeType) {type : BitVec 32}
    (hgoal : ∀ o, goal (s.microphone.setDecodeType type o)) :
    (s.setDecodeTypeStep i type).Heads i goal := by
  unfold setDecodeTypeStep
  unfold Microphone.setDecodeType at hgoal
  cases hf : CaptureFormat.ofDecodeType type with
  | none =>
      rw [hf] at hgoal
      exact heads_left false rfl rfl hrate (hgoal .started)
  | some f =>
      simp only [hf] at hgoal ⊢
      by_cases hsame : type = s.decodeType.decodeType ∧ s.sampleRate.sampleRate = f.sampleRate
      · rw [if_pos hsame]
        refine heads_left true rfl rfl hrate ?_
        rw [hrate] at hsame
        simpa [microphone, leave, hsame] using hgoal .started
      · rw [if_neg hsame]
        rw [hrate] at hsame
        refine heads_moved (q := .settingRate f) rfl ⟨rfl, ?_⟩
        cases hrun : s.running with
        | true => simpa [setCaller, microphone, hsame, hrun, Microphone.stop] using hgoal
        | false => simpa [setCaller, microphone, hsame, hrun] using hgoal .started

/-- **One action of thread `i` keeps the promise.** -/
theorem Heads.callerStep (h : s.Heads i goal) (ok : Bool) :
    (s.callerStep i ok).Heads i goal := by
  have hwait : s.Heads i goal := h
  unfold State.callerStep
  unfold Heads at h
  cases hpc : s.callers i with
  | idle => exact hwait
  | start =>
      rw [hpc] at h
      simp only
      split_ifs
      · exact heads_startStep h.1 h.2
      · exact hwait
  | join t =>
      rw [hpc] at h
      obtain ⟨hrate, hrun, hgoal⟩ := h
      simp only
      split_ifs
      · refine heads_left false rfl rfl hrate ?_
        have hnone := hgoal .refused
        rwa [Microphone.start_of_ne hrun (by decide)] at hnone
      · exact heads_moved (q := .startLocked) rfl ⟨hrate, hgoal⟩
  | startLocked =>
      rw [hpc] at h
      obtain ⟨hrate, hgoal⟩ := h
      simp only
      split_ifs with hfree hrun
      · refine heads_left true rfl rfl hrate ?_
        have hsame := hgoal .started
        rwa [Microphone.start_of_running _ hrun] at hsame
      · exact heads_moved (q := .opening) rfl ⟨hrate, Bool.eq_false_iff.2 hrun, hgoal⟩
      · exact hwait
  | opening =>
      rw [hpc] at h
      cases ok with
      | true => exact heads_moved (q := .making) rfl h
      | false => exact heads_nextStart h.1 h.2.1 h.2.2
  | making =>
      rw [hpc] at h
      cases ok with
      | true => exact heads_moved (q := .launching) rfl h
      | false => exact heads_nextStart (s := s.releaseRecord) h.1 h.2.1 h.2.2
  | launching =>
      rw [hpc] at h
      obtain ⟨hrate, hrun, hgoal⟩ := h
      cases ok with
      | true =>
          refine heads_left true rfl rfl hrate ?_
          have hstarted := hgoal .started
          rwa [Microphone.start_of_not_running hrun] at hstarted
      | false =>
          refine heads_left false rfl rfl hrate ?_
          have hfailed := hgoal .failed
          rw [Microphone.start_of_ne hrun (by decide), hrun] at hfailed
          exact hfailed
  | stop restart =>
      rw [hpc] at h
      simp only
      split_ifs with hfree hrestart
      · subst hrestart
        exact heads_moved (q := .start) rfl h
      · obtain rfl : restart = false := Bool.eq_false_iff.2 hrestart
        exact heads_left true rfl rfl h.1 h.2
      · exact hwait
  | setDecodeType type =>
      rw [hpc] at h
      simp only
      split_ifs
      · exact heads_setDecodeTypeStep h.1 h.2
      · exact hwait
  | settingRate f =>
      rw [hpc] at h
      exact heads_moved (q := .settingChunk f) rfl ⟨h.1, rfl, h.2⟩
  | settingChunk f =>
      rw [hpc] at h
      obtain ⟨hf, hrate, hgoal⟩ := h
      simp only
      split_ifs with hrun
      · rw [if_pos hrun] at hgoal
        subst hf
        exact heads_moved (q := .stop true) rfl ⟨hrate, hgoal⟩
      · rw [if_neg hrun] at hgoal
        refine heads_left true rfl rfl (hrate.trans hf.symm) ?_
        rw [microphone, hf, Bool.eq_false_iff.2 hrun]
        exact hgoal

theorem Heads.run (h : s.Heads i goal) (oks : List Bool) :
    (run step s (oks.map (.caller i))).Heads i goal := by
  rw [run_map]
  exact run_invariant (I := fun s : State => s.Heads i goal) (fun _ ok h => h.callerStep ok) h oks

theorem call_eq (s : State) (i : ℕ) (c : Call) : s.call i c = s.setCaller i c.enter := by
  cases c <;> rfl

/-- Nobody keeps thread `i` from moving: the monitor is free or its own. -/
def Unhindered (s : State) (i : ℕ) : Prop := s.monitor = none ∨ (s.callers i).Holding

/-- Where thread `i` moved to `q` and is not hindered there. -/
theorem nearer_moved {s' : State} {q : CallerPc} {n : ℕ}
    (hcallers : s'.callers = Function.update s.callers i q)
    (hfree : s'.monitor = none ∨ q.Holding) (h : q.togo s'.sourceIndex < n) :
    s'.Unhindered i ∧ (s'.callers i).togo s'.sourceIndex < n := by
  rw [Unhindered, hcallers, Function.update_self]
  exact ⟨hfree, h⟩

theorem nearer_nextStart {n : ℕ} (hn : 2 * (sourceCount - s.sourceIndex) + 2 ≤ n) :
    (s.nextStart i).Unhindered i ∧
      ((s.nextStart i).callers i).togo (s.nextStart i).sourceIndex < n := by
  unfold nextStart
  split_ifs with hmore
  · refine nearer_moved (q := .opening) rfl (.inr trivial) ?_
    show 2 * (sourceCount - (s.sourceIndex + 1)) + 3 < n
    omega
  · refine nearer_moved (q := .idle) rfl (.inl rfl) ?_
    show 0 < n
    omega

/-- **Each action of its own brings an unhindered thread nearer to its return.** -/
theorem Unhindered.callerStep (h : s.Unhindered i) (hbusy : s.callers i ≠ .idle) (ok : Bool) :
    (s.callerStep i ok).Unhindered i ∧
      ((s.callerStep i ok).callers i).togo (s.callerStep i ok).sourceIndex <
        (s.callers i).togo s.sourceIndex := by
  have hfree : ∀ {pc}, s.callers i = pc → ¬ pc.Holding → s.monitor = none := fun hpc hnot =>
    h.resolve_right (hpc ▸ hnot)
  unfold State.callerStep
  cases hpc : s.callers i with
  | idle => exact absurd hpc hbusy
  | start =>
      simp only [if_pos (hfree hpc id), startStep]
      split_ifs
      · exact nearer_moved (q := .idle) rfl (.inl (hfree hpc id)) (by decide : 0 < 12)
      · cases s.captureThread with
        | none =>
            exact nearer_moved (q := .startLocked) rfl (.inl (hfree hpc id))
              (by decide : 10 < 12)
        | some t =>
            simp only
            split_ifs
            · exact nearer_moved (q := .join t) rfl (.inl (hfree hpc id)) (by decide : 11 < 12)
            · exact nearer_moved (q := .startLocked) rfl (.inl (hfree hpc id)) (by decide : 10 < 12)
  | join t =>
      simp only
      split_ifs
      · exact nearer_moved (q := .idle) rfl (.inl (hfree hpc id)) (by decide : 0 < 11)
      · exact nearer_moved (q := .startLocked) rfl (.inl (hfree hpc id)) (by decide : 10 < 11)
  | startLocked =>
      simp only [if_pos (hfree hpc id)]
      split_ifs
      · exact nearer_moved (q := .idle) rfl (.inl (hfree hpc id)) (by decide : 0 < 10)
      · exact nearer_moved (q := .opening) rfl (.inr trivial)
          (by decide : 2 * (sourceCount - 0) + 3 < 10)
  | opening =>
      cases ok with
      | true => exact nearer_moved (q := .making) rfl (.inr trivial) (Nat.lt_succ_self _)
      | false => exact nearer_nextStart (Nat.le_succ _)
  | making =>
      cases ok with
      | true =>
          refine nearer_moved (q := .launching) rfl (.inr trivial) ?_
          show 1 < 2 * (sourceCount - s.sourceIndex) + 2
          omega
      | false => exact nearer_nextStart (s := s.releaseRecord) le_rfl
  | launching =>
      cases ok <;> exact nearer_moved (q := .idle) rfl (.inl rfl) (by decide : 0 < 1)
  | stop restart =>
      simp only [if_pos (hfree hpc id)]
      cases restart with
      | true => exact nearer_moved (q := .start) rfl (.inl (hfree hpc id)) (by decide : 12 < 13)
      | false => exact nearer_moved (q := .idle) rfl (.inl (hfree hpc id)) (by decide : 0 < 1)
  | setDecodeType type =>
      simp only [if_pos (hfree hpc id), setDecodeTypeStep]
      cases CaptureFormat.ofDecodeType type with
      | none => exact nearer_moved (q := .idle) rfl (.inl (hfree hpc id)) (by decide : 0 < 16)
      | some f =>
          simp only
          split_ifs
          · exact nearer_moved (q := .idle) rfl (.inl (hfree hpc id)) (by decide : 0 < 16)
          · exact nearer_moved (q := .settingRate f) rfl (.inr trivial) (by decide : 15 < 16)
  | settingRate f =>
      exact nearer_moved (q := .settingChunk f) rfl (.inr trivial) (by decide : 14 < 15)
  | settingChunk f =>
      simp only
      split_ifs
      · exact nearer_moved (q := .stop true) rfl (.inl rfl) (by decide : 13 < 14)
      · exact nearer_moved (q := .idle) rfl (.inl rfl) (by decide : 0 < 14)

/-- A thread that nobody hinders returns. -/
theorem Unhindered.run_idle (h : s.Unhindered i) {oks : List Bool}
    (hoks : (s.callers i).togo s.sourceIndex ≤ oks.length) :
    (run step s (oks.map (.caller i))).callers i = .idle := by
  rw [run_map]
  refine run_done (I := fun s : State => s.Unhindered i) (D := fun s : State => s.callers i = .idle)
    (m := fun s : State => (s.callers i).togo s.sourceIndex)
    (fun _ ok hs hbusy => hs.callerStep hbusy ok) (fun s ok hidle => ?_) h hoks
  show (s.callerStep i ok).callers i = .idle
  rwa [State.callerStep, hidle]

/-- **An undisturbed call is one action.**  Whatever comes of its actions, thread `i`
returns, and its call did what the one action does, for some outcome of its `start`. -/
theorem run_call (hrate : s.sampleRate = s.decodeType) (hfree : s.monitor = none) (c : Call)
    {oks : List Bool} (hoks : 16 ≤ oks.length) :
    (run step (s.call i c) (oks.map (.caller i))).callers i = .idle ∧
      ∃ o, ((run step (s.call i c) (oks.map (.caller i))).results i,
        (run step (s.call i c) (oks.map (.caller i))).microphone) = s.microphone.call o c := by
  have hidle : (run step (s.call i c) (oks.map (.caller i))).callers i = .idle := by
    refine Unhindered.run_idle (.inl ?_) (le_trans ?_ hoks)
    · cases c <;> exact hfree
    · cases c <;> simp [call, setCaller, CallerPc.togo]
  have hcall : (s.call i c).Heads i fun r => ∃ o, r = s.microphone.call o c :=
    heads_call hrate i c fun o => ⟨o, rfl⟩
  have hheads := hcall.run oks
  rw [Heads, hidle] at hheads
  exact ⟨hidle, hheads.2⟩

end State
end Capture

/-! ### Commands -/

/-- `startMic` after its request, with what `mic.start()` came to. -/
def MicCommands.State.started (x : MicCommands.State) (r : Bool × Microphone) :
    MicCommands.State :=
  if r.1 then { x with mic := some r.2 } else { x with mic := some r.2 }.onMicRequested false

theorem MicCommands.State.startMic_eq_started {x : MicCommands.State} {m : Microphone}
    (hmic : x.mic = some m) (hrun : m.running = false) (o : Starting) :
    x.startMic o = (x.onMicRequested true).started (m.start o) := by
  simp only [startMic, hmic, hrun, Bool.false_eq_true, if_false]
  rfl

namespace MicStop

/-- What the rest of a command comes to from a place lies in `goal`, if nobody else moves. -/
def ReadPc.Rest (pc : ReadPc) (d : Capture.State) (x : MicCommands.State)
    (goal : MicCommands.State → Prop) : Prop :=
  match pc with
  | .idle => goal x
  | .input type | .inputCall type =>
      ∀ o, goal { x.setDecodeType type o with inputConfigSeen := true }
  | .inputWait => d.Heads 0 fun r => goal { x with mic := some r.2, inputConfigSeen := true }
  | .assume guess => ∀ o o', goal ((x.assume guess o).startMic o')
  | .assumeCall guess => ∀ o o', goal ((x.setDecodeType guess o).startMic o')
  | .assumeWait => d.Heads 0 fun r => ∀ o, goal ({ x with mic := some r.2 }.startMic o)
  | .check .start | .load .start | .isRunning .start => ∀ o, goal (x.startMic o)
  | .check .stop | .load .stop | .isRunning .stop | .stopCall => goal x.stopMic
  | .check .media | .load .media | .isRunning .media =>
      goal (if x.Capturing then { x with phoneCallActive := false }.stopMic else x)
  | .request => d.running = false ∧ ∀ o, goal (x.startMic o)
  | .startCall => ∀ o, goal (x.started (d.microphone.start o))
  | .startWait => d.Heads 0 fun r => goal (x.started r)
  | .stopWait => d.Heads 0 fun r => goal ({ x with mic := some r.2 }.onMicRequested false)
  | .handBack => goal (x.onMicRequested false)

/-- How many actions of its own the read thread is from the end of the command, at most,
where the microphone is `n` actions from the return of its call. -/
def ReadPc.togo (n : ℕ) : ReadPc → ℕ
  | .idle => 0
  | .handBack => 1
  | .stopWait => n + 2
  | .stopCall => 4
  | .isRunning .stop => 5
  | .load .stop => 6
  | .check .stop => 7
  | .isRunning .media => 8
  | .load .media => 9
  | .check .media => 10
  | .startWait => n + 1
  | .startCall => 14
  | .request => 15
  | .isRunning .start => 16
  | .load .start => 17
  | .check .start => 18
  | .assumeWait => n + 19
  | .assumeCall _ => 36
  | .assume _ => 37
  | .inputWait => n + 1
  | .inputCall _ => 18
  | .input _ => 19

namespace State

/-- The session, as it is between its commands. -/
def session (s : State) : MicCommands.State where
  mic := if s.mic then some s.device.microphone else none
  phoneCallActive := s.phoneCallActive
  inputConfigSeen := s.inputConfigSeen
  callback := s.callback
  requests := s.requests
  former := none

/-- The read thread is in a command whose rest comes to something in `goal`. -/
structure Heads (s : State) (goal : MicCommands.State → Prop) : Prop where
  mic : s.mic = true
  rate : ¬ s.read.Waiting → s.device.sampleRate = s.device.decodeType
  rest : s.read.Rest s.device s.session goal

variable {s : State} {goal : MicCommands.State → Prop}

theorem mic_session (hmic : s.mic = true) : s.session.mic = some s.device.microphone :=
  if_pos hmic

/-- `callback.onMicRequested`, and on to `q`. -/
theorem heads_requested (hmic : s.mic = true) (hrate : s.device.sampleRate = s.device.decodeType)
    (start : Bool) {q : ReadPc} (hrest : q.Rest s.device (s.session.onMicRequested start) goal) :
    { s.onMicRequested start with read := q }.Heads goal := by
  by_cases hc : s.callback = true
  · have hsession : s.session.onMicRequested start =
        { s.session with requests := s.requests ++ [start] } := if_pos hc
    rw [hsession] at hrest
    rw [onMicRequested, if_pos hc]
    exact ⟨hmic, fun _ => hrate, hrest⟩
  · have hsession : s.session.onMicRequested start = s.session := if_neg hc
    rw [hsession] at hrest
    rw [onMicRequested, if_neg hc]
    exact ⟨hmic, fun _ => hrate, hrest⟩

/-- The read thread calls the microphone, and the call comes to something in `g`. -/
theorem heads_callMic (hmic : s.mic = true) (hrate : s.device.sampleRate = s.device.decodeType)
    {c : Capture.Call} {wait : ReadPc} (hwait : wait.Waiting) {g : Bool × Microphone → Prop}
    (hrest : ∀ d : Capture.State, d.Heads 0 g → wait.Rest d { s with device := d }.session goal)
    (hg : ∀ o, g (s.device.microphone.call o c)) : (s.callMic c wait).Heads goal := by
  rw [callMic, if_pos hmic]
  exact ⟨hmic, fun hnot => absurd hwait hnot, hrest _ (Capture.State.heads_call hrate 0 c hg)⟩

/-- A call of the microphone goes on, or comes back. -/
theorem heads_waiting (hmic : s.mic = true) (hwait : s.read.Waiting)
    {g : Bool × Microphone → Prop} (h : s.device.Heads 0 g) (ok : Bool)
    (hrest : ∀ d : Capture.State, d.Heads 0 g → s.read.Rest d { s with device := d }.session goal)
    (hreturned : s.device.sampleRate = s.device.decodeType →
      g (s.device.results 0, s.device.microphone) → s.returned.Heads goal) :
    (s.readStep ok).Heads goal := by
  rw [readStep_of_waiting hwait]
  split_ifs with hidle
  · rw [Capture.State.Heads, hidle] at h
    exact hreturned h.1 h.2
  · exact ⟨hmic, fun hnot => absurd hwait hnot, hrest _ (h.callerStep ok)⟩

/-- What `mic.isRunning()` leads to. -/
theorem heads_found (hmic : s.mic = true) (hrate : s.device.sampleRate = s.device.decodeType)
    {u : Use} (hrest : (ReadPc.isRunning u).Rest s.device s.session goal) :
    (s.found u s.device.running).Heads goal := by
  have hcapturing : s.session.Capturing ↔ s.device.running = true := by
    simp [MicCommands.State.Capturing, mic_session hmic, Capture.State.microphone]
  cases u with
  | start =>
      cases hrun : s.device.running with
      | true =>
          refine ⟨hmic, fun _ => hrate, ?_⟩
          have hsame := hrest .started
          rwa [MicCommands.State.startMic_of_capturing _ (hcapturing.2 hrun)] at hsame
      | false => exact ⟨hmic, fun _ => hrate, hrun, hrest⟩
  | stop => exact ⟨hmic, fun _ => hrate, hrest⟩
  | media =>
      rw [ReadPc.Rest] at hrest
      cases hrun : s.device.running with
      | true =>
          rw [if_pos (hcapturing.2 hrun)] at hrest
          exact ⟨hmic, fun _ => hrate, hrest⟩
      | false =>
          rw [if_neg (by simp [hcapturing, hrun])] at hrest
          exact ⟨hmic, fun _ => hrate, hrest⟩

/-- A call of the microphone, and its return. -/
theorem Heads.waitStep (h : s.Heads goal) (hwait : s.read.Waiting) (ok : Bool) :
    (s.readStep ok).Heads goal := by
  obtain ⟨hmic, -, hrest⟩ := h
  have hmicSession := mic_session hmic
  cases hpc : s.read with
  | inputWait =>
      have hret : s.returned = { s with inputConfigSeen := true, read := .idle } := by
        rw [returned, hpc]
      rw [hpc] at hrest
      refine heads_waiting hmic (by rw [hpc]; trivial) hrest ok ?_ fun hrate hgoal => ?_
      · rw [hpc]
        exact fun _ hd => hd
      · rw [← hmicSession] at hgoal
        rw [hret]
        exact ⟨hmic, fun _ => hrate, hgoal⟩
  | assumeWait =>
      have hret : s.returned = { s with read := .check .start } := by rw [returned, hpc]
      rw [hpc] at hrest
      refine heads_waiting hmic (by rw [hpc]; trivial) hrest ok ?_ fun hrate hgoal => ?_
      · rw [hpc]
        exact fun _ hd => hd
      · rw [← hmicSession] at hgoal
        rw [hret]
        exact ⟨hmic, fun _ => hrate, hgoal⟩
  | startWait =>
      have hret : s.returned = if s.device.results 0 then { s with read := .idle }
          else { s with read := .idle }.onMicRequested false := by
        rw [returned, hpc]
      have hidle : { onMicRequested false { s with read := .idle } with read := .idle } =
          onMicRequested false { s with read := .idle } := by
        unfold onMicRequested
        split_ifs <;> rfl
      rw [hpc] at hrest
      refine heads_waiting hmic (by rw [hpc]; trivial) hrest ok ?_ fun hrate hgoal => ?_
      · rw [hpc]
        exact fun _ hd => hd
      · rw [MicCommands.State.started, ← hmicSession] at hgoal
        rw [hret]
        split_ifs at hgoal ⊢
        · exact ⟨hmic, fun _ => hrate, hgoal⟩
        · rw [← hidle]
          exact heads_requested (s := { s with read := .idle }) hmic hrate false (q := .idle) hgoal
  | stopWait =>
      have hret : s.returned = { s with read := .handBack } := by rw [returned, hpc]
      rw [hpc] at hrest
      refine heads_waiting hmic (by rw [hpc]; trivial) hrest ok ?_ fun hrate hgoal => ?_
      · rw [hpc]
        exact fun _ hd => hd
      · rw [← hmicSession] at hgoal
        rw [hret]
        exact ⟨hmic, fun _ => hrate, hgoal⟩
  | _ =>
      rw [hpc] at hwait
      exact hwait.elim

/-- **One action of the read thread keeps the promise.** -/
theorem Heads.readStep (h : s.Heads goal) (ok : Bool) : (s.readStep ok).Heads goal := by
  have hheads := h
  obtain ⟨hmic, hrate, hrest⟩ := h
  have hmicSession := mic_session hmic
  cases hpc : s.read with
  | idle =>
      have hstep : s.readStep ok = s := by rw [State.readStep, hpc]
      rw [hstep]
      exact ⟨hmic, hrate, hrest⟩
  | input type =>
      have hstep : s.readStep ok = { s with read := if s.mic then .inputCall type else .idle } := by
        rw [State.readStep, hpc]
      rw [hpc] at hrate hrest
      rw [hstep, if_pos hmic]
      exact ⟨hmic, fun _ => hrate id, hrest⟩
  | inputCall type =>
      have hstep : s.readStep ok = s.callMic (.setDecodeType type) .inputWait := by
        rw [State.readStep, hpc]
      rw [hpc] at hrate hrest
      rw [hstep]
      refine heads_callMic hmic (hrate id) trivial (g := fun r =>
        goal { s.session with mic := some r.2, inputConfigSeen := true }) (fun _ hd => hd)
        fun o => ?_
      have ho := hrest o
      simp only [MicCommands.State.setDecodeType, hmicSession] at ho
      exact ho
  | assume guess =>
      have hstep : s.readStep ok = { s with
          read := if ¬ s.inputConfigSeen ∧ s.mic then .assumeCall guess else .check .start } := by
        rw [State.readStep, hpc]
      rw [hpc] at hrate hrest
      rw [hstep]
      split_ifs with hunseen
      · have hnot : ¬ s.session.inputConfigSeen = true := hunseen.1
        refine ⟨hmic, fun _ => hrate id, fun o o' => ?_⟩
        have ho := hrest o o'
        rwa [MicCommands.State.assume, if_neg hnot] at ho
      · have hseen : s.session.inputConfigSeen = true := by
          by_contra hnot
          exact hunseen ⟨hnot, hmic⟩
        refine ⟨hmic, fun _ => hrate id, fun o => ?_⟩
        have ho := hrest .started o
        rwa [MicCommands.State.assume, if_pos hseen] at ho
  | assumeCall guess =>
      have hstep : s.readStep ok = s.callMic (.setDecodeType guess) .assumeWait := by
        rw [State.readStep, hpc]
      rw [hpc] at hrate hrest
      rw [hstep]
      refine heads_callMic hmic (hrate id) trivial (g := fun r =>
        ∀ o, goal (MicCommands.State.startMic o { s.session with mic := some r.2 }))
        (fun _ hd => hd) fun o o' => ?_
      have ho := hrest o o'
      simp only [MicCommands.State.setDecodeType, hmicSession] at ho
      exact ho
  | check u =>
      have hstep : s.readStep ok = { s with read := if s.mic then .load u else .idle } := by
        rw [State.readStep, hpc]
      rw [hpc] at hrate hrest
      rw [hstep, if_pos hmic]
      refine ⟨hmic, fun _ => hrate id, ?_⟩
      cases u <;> exact hrest
  | load u =>
      have hstep : s.readStep ok = { s with read := if s.mic then .isRunning u else .idle } := by
        rw [State.readStep, hpc]
      rw [hpc] at hrate hrest
      rw [hstep, if_pos hmic]
      refine ⟨hmic, fun _ => hrate id, ?_⟩
      cases u <;> exact hrest
  | isRunning u =>
      have hstep : s.readStep ok =
          if s.device.monitor = none then s.found u s.device.running else s := by
        rw [State.readStep, hpc]
      have hrate' : s.device.sampleRate = s.device.decodeType := hrate (by rw [hpc]; exact id)
      rw [hstep]
      split_ifs
      · rw [hpc] at hrest
        exact heads_found hmic hrate' hrest
      · exact ⟨hmic, hrate, hrest⟩
  | request =>
      have hstep : s.readStep ok = { s.onMicRequested true with read := .startCall } := by
        rw [State.readStep, hpc]
      rw [hpc] at hrate hrest
      rw [hstep]
      obtain ⟨hrun, hgoal⟩ := hrest
      refine heads_requested hmic (hrate id) true fun o => ?_
      have ho := hgoal o
      rwa [MicCommands.State.startMic_eq_started hmicSession hrun] at ho
  | startCall =>
      have hstep : s.readStep ok = s.callMic .start .startWait := by rw [State.readStep, hpc]
      rw [hpc] at hrate hrest
      rw [hstep]
      exact heads_callMic hmic (hrate id) trivial (g := fun r => goal (s.session.started r))
        (fun _ hd => hd) hrest
  | stopCall =>
      have hstep : s.readStep ok = s.callMic .stop .stopWait := by rw [State.readStep, hpc]
      rw [hpc] at hrate hrest
      rw [hstep]
      refine heads_callMic hmic (hrate id) trivial (g := fun r =>
        goal (MicCommands.State.onMicRequested false { s.session with mic := some r.2 }))
        (fun _ hd => hd) fun _ => ?_
      rw [ReadPc.Rest, MicCommands.State.stopMic, hmicSession] at hrest
      exact hrest
  | handBack =>
      have hstep : s.readStep ok = { s.onMicRequested false with read := .idle } := by
        rw [State.readStep, hpc]
      rw [hpc] at hrate hrest
      rw [hstep]
      exact heads_requested hmic (hrate id) false (q := .idle) hrest
  | inputWait | assumeWait | startWait | stopWait =>
      exact hheads.waitStep (by rw [hpc]; trivial) ok

/-- `handleMicCommand`, up to its first look at `mic`. -/
theorem heads_command (hmic : s.mic = true) (hrate : s.device.sampleRate = s.device.decodeType)
    (hidle : s.read = .idle) (c : AudioCommand) (d : BitVec 32)
    (hgoal : ∀ restart starting, goal (s.session.handleMicCommand c d restart starting)) :
    (s.command c d).Heads goal := by
  have hsome : s.session.mic.isSome = true := by rw [mic_session hmic]; rfl
  have hstay : (∀ o o', s.session.handleMicCommand c d o o' = s.session) → s.Heads goal :=
    fun hsame => ⟨hmic, fun _ => hrate, by
      rw [hidle, ReadPc.Rest, ← hsame .started .started]
      exact hgoal ..⟩
  cases c with
  | inputConfig =>
      refine ⟨hmic, fun _ => hrate, fun o => ?_⟩
      have ho := hgoal o .started
      rwa [MicCommands.State.handleMicCommand, hsome, Bool.or_true] at ho
  | phonecallStart | siriStart => exact ⟨hmic, fun _ => hrate, fun o o' => hgoal o o'⟩
  | phonecallStop => exact ⟨hmic, fun _ => hrate, hgoal .started .started⟩
  | siriStop =>
      have hstop := hgoal .started .started
      simp only [MicCommands.State.handleMicCommand] at hstop
      simp only [command]
      split_ifs with hcall
      · exact hstay fun _ _ => if_pos hcall
      · have hnot : ¬ s.session.phoneCallActive = true := hcall
        rw [if_neg hnot] at hstop
        exact ⟨hmic, fun _ => hrate, hstop⟩
  | mediaStart =>
      have hmedia := hgoal .started .started
      simp only [MicCommands.State.handleMicCommand] at hmedia
      simp only [command]
      split_ifs with hformat
      · simp only [hformat, true_and] at hmedia
        exact ⟨hmic, fun _ => hrate, hmedia⟩
      · exact hstay fun _ _ => if_neg fun hboth => hformat hboth.1
  | _ => exact hstay fun _ _ => rfl

theorem Heads.run (h : s.Heads goal) (oks : List Bool) :
    (run step s (oks.map .read)).Heads goal := by
  rw [run_map]
  exact run_invariant (I := fun s : State => s.Heads goal) (fun _ ok h => h.readStep ok) h oks

/-- There is a microphone, and its monitor is free or the read thread's own. -/
structure Unhindered (s : State) : Prop where
  mic : s.mic = true
  free : ¬ s.read.Waiting → s.device.monitor = none
  waits : s.read.Waiting → s.device.Unhindered 0

/-- How many actions of its own the read thread is from the end of the command, at most. -/
def left (s : State) : ℕ := s.read.togo ((s.device.callers 0).togo s.device.sourceIndex)

/-- Where the read thread moved to `q`, out of the microphone. -/
theorem nearer_read {s' : State} {q : ReadPc} {m : ℕ} (hmic : s'.mic = true) (hread : s'.read = q)
    (hq : ¬ q.Waiting) (hfree : s'.device.monitor = none) (h : ∀ n, q.togo n < m) :
    s'.Unhindered ∧ s'.left < m := by
  subst hread
  exact ⟨⟨hmic, fun _ => hfree, fun hwait => absurd hwait hq⟩, h _⟩

/-- Where the read thread called the microphone. -/
theorem nearer_callMic (hmic : s.mic = true) (hfree : s.device.monitor = none) (c : Capture.Call)
    {wait : ReadPc} {m : ℕ} (hwait : wait.Waiting)
    (h : wait.togo ((c.enter).togo s.device.sourceIndex) < m) :
    (s.callMic c wait).Unhindered ∧ (s.callMic c wait).left < m := by
  rw [callMic, if_pos hmic]
  refine ⟨⟨hmic, fun hnot => absurd hwait hnot, fun _ => .inl ?_⟩, ?_⟩
  · cases c <;> exact hfree
  · rw [left, Capture.State.call_eq]
    exact h

/-- In a call of the microphone the read thread is nearer with each action. -/
theorem Unhindered.waiting (h : s.Unhindered) (hwait : s.read.Waiting) (ok : Bool)
    (hgo : ∀ n n', n < n' → s.read.togo n < s.read.togo n')
    (hreturned : s.device.monitor = none → s.device.callers 0 = .idle →
      s.returned.Unhindered ∧ s.returned.left < s.left) :
    (s.readStep ok).Unhindered ∧ (s.readStep ok).left < s.left := by
  have hdevice := h.waits hwait
  rw [readStep_of_waiting hwait]
  split_ifs with hidle
  · refine hreturned (hdevice.resolve_right ?_) hidle
    rw [hidle]
    exact id
  · obtain ⟨hfree, hnear⟩ := hdevice.callerStep hidle ok
    exact ⟨⟨h.mic, fun hnot => absurd hwait hnot, fun _ => hfree⟩, hgo _ _ hnear⟩

/-- What `mic.isRunning()` leads to. -/
theorem nearer_found (hmic : s.mic = true) (hfree : s.device.monitor = none) (u : Use)
    (running : Bool) :
    (s.found u running).Unhindered ∧ (s.found u running).left < (ReadPc.isRunning u).togo 0 := by
  cases u with
  | stop => exact nearer_read hmic rfl id hfree fun _ => (by decide : 4 < 5)
  | start =>
      cases running with
      | true => exact nearer_read hmic rfl id hfree fun _ => (by decide : 0 < 16)
      | false => exact nearer_read hmic rfl id hfree fun _ => (by decide : 15 < 16)
  | media =>
      cases running with
      | true => exact nearer_read hmic rfl id hfree fun _ => (by decide : 7 < 8)
      | false => exact nearer_read hmic rfl id hfree fun _ => (by decide : 0 < 8)

/-- `callback.onMicRequested`, and on to `q`. -/
theorem nearer_requested (hmic : s.mic = true) (hfree : s.device.monitor = none) (start : Bool)
    {q : ReadPc} {m : ℕ} (hq : ¬ q.Waiting) (h : ∀ n, q.togo n < m) :
    { s.onMicRequested start with read := q }.Unhindered ∧
      { s.onMicRequested start with read := q }.left < m := by
  obtain ⟨-, hdevice, -, hmic'⟩ := frame_onMicRequested start s
  exact nearer_read (hmic'.trans hmic) rfl hq ((congrArg _ hdevice).trans hfree) h

/-- **Each action of its own brings the unhindered read thread nearer to the end.** -/
theorem Unhindered.readStep (h : s.Unhindered) (hbusy : s.read ≠ .idle) (ok : Bool) :
    (s.readStep ok).Unhindered ∧ (s.readStep ok).left < s.left := by
  obtain ⟨hmic, hfree, -⟩ := id h
  have hleft : ∀ {pc}, s.read = pc →
      s.left = pc.togo ((s.device.callers 0).togo s.device.sourceIndex) := fun hpc => by
    rw [left, hpc]
  cases hpc : s.read with
  | idle => exact absurd hpc hbusy
  | inputWait =>
      refine h.waiting (by rw [hpc]; trivial) ok (fun n n' hn => ?_) fun hfree _ => ?_
      · rw [hpc]
        exact Nat.add_lt_add_right hn 1
      · rw [hleft hpc, returned, hpc]
        exact nearer_read hmic rfl id hfree fun _ => Nat.succ_pos _
  | assumeWait =>
      refine h.waiting (by rw [hpc]; trivial) ok (fun n n' hn => ?_) fun hfree _ => ?_
      · rw [hpc]
        exact Nat.add_lt_add_right hn 19
      · rw [hleft hpc, returned, hpc]
        exact nearer_read hmic rfl id hfree fun _ => Nat.lt_add_left _ (by decide : 18 < 19)
  | startWait =>
      refine h.waiting (by rw [hpc]; trivial) ok (fun n n' hn => ?_) fun hfree _ => ?_
      · rw [hpc]
        exact Nat.add_lt_add_right hn 1
      · rw [hleft hpc, returned, hpc]
        simp only
        split_ifs
        · exact nearer_read hmic rfl id hfree fun _ => Nat.succ_pos _
        · obtain ⟨hread, hdevice, -, hmic'⟩ := frame_onMicRequested false { s with read := .idle }
          exact nearer_read (hmic'.trans hmic) hread id ((congrArg _ hdevice).trans hfree)
            fun _ => Nat.succ_pos _
  | stopWait =>
      refine h.waiting (by rw [hpc]; trivial) ok (fun n n' hn => ?_) fun hfree _ => ?_
      · rw [hpc]
        exact Nat.add_lt_add_right hn 2
      · rw [hleft hpc, returned, hpc]
        exact nearer_read hmic rfl id hfree fun _ => Nat.lt_add_left _ (by decide : 1 < 2)
  | input type =>
      rw [hpc] at hfree
      rw [hleft hpc, State.readStep, hpc]
      simp only [hmic, if_true]
      exact nearer_read rfl rfl id (hfree id) fun _ => (by decide : 18 < 19)
  | inputCall type =>
      rw [hpc] at hfree
      rw [hleft hpc, State.readStep, hpc]
      exact nearer_callMic hmic (hfree id) _ trivial (by decide : 16 + 1 < 18)
  | assume guess =>
      rw [hpc] at hfree
      rw [hleft hpc, State.readStep, hpc]
      simp only
      split_ifs
      · exact nearer_read hmic rfl id (hfree id) fun _ => (by decide : 36 < 37)
      · exact nearer_read hmic rfl id (hfree id) fun _ => (by decide : 18 < 37)
  | assumeCall guess =>
      rw [hpc] at hfree
      rw [hleft hpc, State.readStep, hpc]
      exact nearer_callMic hmic (hfree id) _ trivial (by decide : 16 + 19 < 36)
  | check u =>
      rw [hpc] at hfree
      rw [hleft hpc, State.readStep, hpc]
      simp only [hmic, if_true]
      refine nearer_read rfl rfl id (hfree id) fun _ => ?_
      cases u <;> exact Nat.lt_succ_self _
  | load u =>
      rw [hpc] at hfree
      rw [hleft hpc, State.readStep, hpc]
      simp only [hmic, if_true]
      refine nearer_read rfl rfl id (hfree id) fun _ => ?_
      cases u <;> exact Nat.lt_succ_self _
  | isRunning u =>
      rw [hpc] at hfree
      rw [hleft hpc, State.readStep, hpc]
      simp only [if_pos (hfree id)]
      have hfound := nearer_found hmic (hfree id) u s.device.running
      cases u <;> exact hfound
  | request =>
      rw [hpc] at hfree
      rw [hleft hpc, State.readStep, hpc]
      exact nearer_requested hmic (hfree id) true id fun _ => (by decide : 14 < 15)
  | startCall =>
      rw [hpc] at hfree
      rw [hleft hpc, State.readStep, hpc]
      exact nearer_callMic hmic (hfree id) _ trivial (by decide : 12 + 1 < 14)
  | stopCall =>
      rw [hpc] at hfree
      rw [hleft hpc, State.readStep, hpc]
      exact nearer_callMic hmic (hfree id) _ trivial (by decide : 1 + 2 < 4)
  | handBack =>
      rw [hpc] at hfree
      rw [hleft hpc, State.readStep, hpc]
      exact nearer_requested hmic (hfree id) false (q := .idle) id fun _ => (by decide : 0 < 1)

/-- The read thread comes to the end of its command. -/
theorem Unhindered.run_idle (h : s.Unhindered) {oks : List Bool} (hoks : s.left ≤ oks.length) :
    (run step s (oks.map .read)).read = .idle := by
  rw [run_map]
  refine run_done (I := Unhindered) (D := fun s : State => s.read = .idle) (m := left)
    (fun _ ok hs hbusy => hs.readStep hbusy ok) (fun s ok hidle => ?_) h hoks
  show (s.readStep ok).read = .idle
  rwa [State.readStep, hidle]

/-- No command is longer than that of a call that has to guess its format. -/
theorem nearer_command (hmic : s.mic = true) (hfree : s.device.monitor = none)
    (hidle : s.read = .idle) (c : AudioCommand) (d : BitVec 32) :
    (s.command c d).Unhindered ∧ (s.command c d).left < 38 := by
  have hstay : s.Unhindered ∧ s.left < 38 :=
    nearer_read hmic hidle id hfree fun _ => (by decide : 0 < 38)
  cases c with
  | inputConfig => exact nearer_read hmic rfl id hfree fun _ => (by decide : 19 < 38)
  | phonecallStart | siriStart =>
      exact nearer_read hmic rfl id hfree fun _ => (by decide : 37 < 38)
  | phonecallStop => exact nearer_read hmic rfl id hfree fun _ => (by decide : 7 < 38)
  | siriStop =>
      simp only [command]
      split_ifs
      · exact hstay
      · exact nearer_read hmic rfl id hfree fun _ => (by decide : 7 < 38)
  | mediaStart =>
      simp only [command]
      split_ifs
      · exact nearer_read hmic rfl id hfree fun _ => (by decide : 10 < 38)
      · exact hstay
  | _ => exact hstay

/-- **An undisturbed command is one action.**  Whatever comes of its actions, the read
thread ends it, and it did what `handleMicCommand` does at once, for some outcomes of its
starts. -/
theorem run_command (hmic : s.mic = true) (hrate : s.device.sampleRate = s.device.decodeType)
    (hfree : s.device.monitor = none) (hidle : s.read = .idle) (c : AudioCommand) (d : BitVec 32)
    {oks : List Bool} (hoks : 37 ≤ oks.length) :
    (run step (s.command c d) (oks.map .read)).read = .idle ∧
      ∃ restart starting, (run step (s.command c d) (oks.map .read)).session =
        s.session.handleMicCommand c d restart starting := by
  obtain ⟨hunhindered, hleft⟩ := nearer_command hmic hfree hidle c d
  have hend : (run step (s.command c d) (oks.map .read)).read = .idle :=
    hunhindered.run_idle (le_trans (Nat.le_of_lt_succ hleft) hoks)
  have hcommand : (s.command c d).Heads fun x =>
      ∃ restart starting, x = s.session.handleMicCommand c d restart starting :=
    heads_command hmic hrate hidle c d fun restart starting => ⟨restart, starting, rfl⟩
  have hrest := (hcommand.run oks).rest
  rw [hend] at hrest
  exact ⟨hend, hrest⟩

end State
end MicStop
end App
end Carlinkit
