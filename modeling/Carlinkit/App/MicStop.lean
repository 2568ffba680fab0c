/-
# Stopping the session under the read thread

`CarlinkitSession.stop` on a thread of its own, against `handleMicCommand`, `startMic`
and `stopMic` on the read thread.  Each test of the field `mic`, each load of it for a
call and each call is an event, and the microphone is the one of `CaptureThreads`, with
the read thread as its calling thread 0 and the stopping thread as 1.  A load that finds
null throws a `NullPointerException`, which is the end of the callback.

`stop` stops the capture that it finds.  A `start` of the read thread that is on its way
then starts another one, behind the back of a session that has let go of its microphone.
`silent_of_startsBeforeStop` says that this is the only way for a capture to outlive
`stop`.
-/

import Carlinkit.App.MicCommands
import Carlinkit.App.CaptureEnd

namespace Carlinkit
namespace App
namespace MicStop

open Protocol Machine

/-- Which caller of `mic.isRunning()`: `startMic`, `stopMic` or the MEDIA_START. -/
inductive Use
  | start
  | stop
  | media
deriving DecidableEq, Repr

/-- Where the read thread is. -/
inductive ReadPc
  | idle
  /-- In an INPUT_CONFIG, before the test of `mic`. -/
  | input (type : BitVec 32)
  /-- Before `mic.setDecodeType`. -/
  | inputCall (type : BitVec 32)
  | inputWait
  /-- Before the test of `inputConfigSeen` and `mic`, with the guess. -/
  | assume (guess : BitVec 32)
  | assumeCall (guess : BitVec 32)
  | assumeWait
  /-- Before the test of `mic`. -/
  | check (u : Use)
  /-- Before `mic.isRunning()`. -/
  | load (u : Use)
  | isRunning (u : Use)
  /-- In `startMic`, before `callback.onMicRequested(true)`. -/
  | request
  | startCall
  | startWait
  | stopCall
  | stopWait
  /-- In `stopMic`, before `callback.onMicRequested(false)`. -/
  | handBack
deriving DecidableEq, Repr

/-- The thread is inside a call of the microphone. -/
def ReadPc.Waiting : ReadPc → Prop
  | .inputWait | .assumeWait | .startWait | .stopWait => True
  | _ => False

/-- The thread comes to no call of the microphone once `mic` is null. -/
def ReadPc.Harmless : ReadPc → Prop
  | .idle | .input _ | .assume _ | .check _ => True
  | _ => False

/-- Where the stopping thread is. -/
inductive StopPc
  | idle
  /-- `mic` is not null. -/
  | call
  | wait
  /-- Before `mic = null`. -/
  | clear
  /-- Past it. -/
  | rest
  | done
deriving DecidableEq, Repr

/-- The thread is past `mic.stop()`. -/
def StopPc.Past : StopPc → Prop
  | .clear | .rest | .done => True
  | _ => False

instance : ∀ pc : StopPc, Decidable pc.Past
  | .clear | .rest | .done => .isTrue trivial
  | .idle | .call | .wait => .isFalse id

/-- The session, its microphone and its two threads. -/
structure State where
  /-- The `CarlinkitMicrophone` that `start` made. -/
  device : Capture.State
  /-- The field `mic` is not null. -/
  mic : Bool
  phoneCallActive : Bool
  inputConfigSeen : Bool
  /-- There is a `callback`. -/
  callback : Bool
  requests : List Bool
  read : ReadPc
  stopper : StopPc

/-- An action of one of the threads.  `ok` is what comes of an action inside the microphone. -/
inductive Event
  | command (c : AudioCommand) (decodeType : BitVec 32)
  | phoneDisconnected
  /-- The read thread. -/
  | read (ok : Bool)
  /-- The stopping thread. -/
  | stop (ok : Bool)
  /-- A capture thread. -/
  | capture (t : ℕ) (ok : Bool)
  /-- `AudioRecord.read` returns to a capture thread. -/
  | captured (t : ℕ) (result : Option ℤ) (peak : ℕ)
deriving DecidableEq, Repr

/-- The session after `start`. -/
def start (callback : Bool) : State where
  device := Capture.new
  mic := true
  phoneCallActive := false
  inputConfigSeen := false
  callback := callback
  requests := []
  read := .idle
  stopper := .idle

namespace State

/-- `callback.onMicRequested(start)`, if there is a callback. -/
def onMicRequested (start : Bool) (s : State) : State :=
  if s.callback then { s with requests := s.requests ++ [start] } else s

/-- `handleMicCommand`, up to its first look at `mic`. -/
def command (s : State) (c : AudioCommand) (decodeType : BitVec 32) : State :=
  match c with
  | .inputConfig => { s with read := .input decodeType }
  | .phonecallStart => { s with phoneCallActive := true, read := .assume 3 }
  | .siriStart => { s with read := .assume 5 }
  | .phonecallStop => { s with phoneCallActive := false, read := .check .stop }
  | .siriStop => if s.phoneCallActive then s else { s with read := .check .stop }
  | .mediaStart => if isMediaFormat decodeType then { s with read := .check .media } else s
  | _ => s

/-- The read thread calls the microphone, if the load of `mic` finds one. -/
def callMic (s : State) (c : Capture.Call) (wait : ReadPc) : State :=
  if s.mic then { s with device := s.device.call 0 c, read := wait } else { s with read := .idle }

/-- What `mic.isRunning()` leads to. -/
def found (s : State) (u : Use) (running : Bool) : State :=
  match u, running with
  | .start, true | .media, false => { s with read := .idle }
  | .start, false => { s with read := .request }
  | .media, true => { s with phoneCallActive := false, read := .check .stop }
  | .stop, _ => { s with read := .stopCall }

/-- A call of the microphone came back to the read thread. -/
def returned (s : State) : State :=
  match s.read with
  | .inputWait => { s with inputConfigSeen := true, read := .idle }
  | .assumeWait => { s with read := .check .start }
  | .startWait =>
      let s' := { s with read := .idle }
      if s.device.results 0 then s' else s'.onMicRequested false
  | .stopWait => { s with read := .handBack }
  | _ => s

/-- The read thread. -/
def readStep (s : State) (ok : Bool) : State :=
  match s.read with
  | .idle => s
  | .input type => { s with read := if s.mic then .inputCall type else .idle }
  | .inputCall type => s.callMic (.setDecodeType type) .inputWait
  | .assume guess =>
      { s with read := if ¬ s.inputConfigSeen ∧ s.mic then .assumeCall guess else .check .start }
  | .assumeCall guess => s.callMic (.setDecodeType guess) .assumeWait
  | .check u => { s with read := if s.mic then .load u else .idle }
  | .load u => { s with read := if s.mic then .isRunning u else .idle }
  | .isRunning u => if s.device.monitor = none then s.found u s.device.running else s
  | .request => { s.onMicRequested true with read := .startCall }
  | .startCall => s.callMic .start .startWait
  | .stopCall => s.callMic .stop .stopWait
  | .handBack => { s.onMicRequested false with read := .idle }
  | .inputWait | .assumeWait | .startWait | .stopWait =>
      if s.device.callers 0 = .idle then s.returned
      else { s with device := s.device.callerStep 0 ok }

/-- `stop`. -/
def stopStep (s : State) (ok : Bool) : State :=
  match s.stopper with
  | .idle => { s with stopper := if s.mic then .call else .rest }
  -- nobody else writes `mic`
  | .call => { s with device := s.device.call 1 .stop, stopper := .wait }
  | .wait =>
      if s.device.callers 1 = .idle then { s with stopper := .clear }
      else { s with device := s.device.callerStep 1 ok }
  | .clear => { s with mic := false, stopper := .rest }
  -- the driver, the video and the audio are stopped here
  | .rest => { s with phoneCallActive := false, stopper := .done }
  | .done => s

/-- One event. -/
def step (s : State) : Event → State
  | .command c decodeType => if s.read = .idle then s.command c decodeType else s
  | .phoneDisconnected => if s.read = .idle then { s with phoneCallActive := false } else s
  | .read ok => s.readStep ok
  | .stop ok => s.stopStep ok
  | .capture t ok => { s with device := s.device.step (.capture t ok) }
  | .captured t result peak => { s with device := s.device.step (.read t result peak) }

/-! ### What is promised -/

/-- `stop` has returned, and so has the callback on the read thread. -/
def Over (s : State) : Prop := s.stopper = .done ∧ s.read = .idle

instance (s : State) : Decidable s.Over := inferInstanceAs (Decidable (_ ∧ _))

/-- Nothing is captured any more: `running` is false and stays so, no capture thread is
made, and each that is left comes closer to its end whenever it moves. -/
def Silent (s : State) : Prop :=
  s.device.running = false ∧
    ∀ es, Along step (fun s e =>
      (s.step e).device.running = false ∧ s.device.Winds (s.step e).device) s es

/-- `stop` has been through the microphone. -/
def Stopped (s : State) : Prop :=
  s.stopper.Past ∨ s.stopper = .wait ∧ s.device.callers 1 = .idle

instance (s : State) : Decidable s.Stopped := inferInstanceAs (Decidable (_ ∨ _ ∧ _))

/-- A `startLocked` of the read thread that finds `running` false comes before `stop` has
been through the microphone. -/
def StartsBeforeStop (s : State) : Event → Prop
  | .read _ => s.device.callers 0 = .startLocked → s.device.monitor = none →
      s.device.running = false → ¬ s.Stopped
  | _ => True

instance (s : State) : ∀ e : Event, Decidable (s.StartsBeforeStop e)
  | .read _ => inferInstanceAs (Decidable (_ = _ → _ = _ → _ = _ → ¬ s.Stopped))
  | .command .. | .phoneDisconnected | .stop _ | .capture .. | .captured .. => .isTrue trivial

/-! ### Up to the end of `stop` -/

/-- What holds as long as no `startLocked` comes too late. -/
structure Stops (s : State) : Prop where
  held : s.device.Held
  others : ∀ i, 2 ≤ i → s.device.callers i = .idle
  reader : ¬ s.read.Waiting → s.device.callers 0 = .idle
  stopping : s.device.callers 1 = .idle ∨ s.stopper = .wait ∧ s.device.callers 1 = .stop false
  mic : s.mic = true ∨ s.stopper = .rest ∨ s.stopper = .done
  rest : s.stopper = .rest ∨ s.stopper = .done → s.mic = false
  quiet : s.Stopped → s.device.running = false ∧ ¬ (s.device.callers 0).Starting

theorem stops_start (callback : Bool) : (start callback).Stops where
  held := Capture.State.held_new
  others _ _ := rfl
  reader _ := rfl
  stopping := .inl rfl
  mic := .inl rfl
  rest h := by simp [start] at h
  quiet h := by simp [start, Stopped, StopPc.Past] at h

variable {s : State}

/-- The read thread goes on in the session. -/
theorem Stops.session (h : s.Stops) {s' : State} (hdevice : s'.device = s.device)
    (hmic : s'.mic = s.mic) (hstopper : s'.stopper = s.stopper)
    (hidle : s.device.callers 0 = .idle) : s'.Stops where
  held := hdevice ▸ h.held
  others := hdevice ▸ h.others
  reader _ := hdevice ▸ hidle
  stopping := by
    rw [hdevice, hstopper]
    exact h.stopping
  mic := by
    rw [hmic, hstopper]
    exact h.mic
  rest := by
    rw [hmic, hstopper]
    exact h.rest
  quiet hstopped := by
    rw [Stopped, hdevice, hstopper] at hstopped
    rw [hdevice]
    exact h.quiet hstopped

/-- The read thread moves inside the microphone, or into it. -/
theorem Stops.inMic (h : s.Stops) {device : Capture.State} {p : ReadPc} (hheld : device.Held)
    (hcallers : ∀ i, i ≠ 0 → device.callers i = s.device.callers i) (hp : p.Waiting)
    (hquiet : s.device.running = false → ¬ (s.device.callers 0).Starting → s.Stopped →
      device.running = false ∧ ¬ (device.callers 0).Starting) :
    { s with device := device, read := p }.Stops where
  held := hheld
  others i hi := (hcallers i (by omega)).trans (h.others i hi)
  reader hnot := absurd hp hnot
  stopping := by
    show device.callers 1 = _ ∨ _ ∧ device.callers 1 = _
    rw [hcallers 1 (by decide)]
    exact h.stopping
  mic := h.mic
  rest := h.rest
  quiet hstopped := by
    have hstopped : s.Stopped := by
      rw [Stopped] at hstopped ⊢
      rwa [← hcallers 1 (by decide)]
    exact hquiet (h.quiet hstopped).1 (h.quiet hstopped).2 hstopped

theorem Stops.callMic (h : s.Stops) (hidle : s.device.callers 0 = .idle) (c : Capture.Call)
    {wait : ReadPc} (hwait : wait.Waiting) : (s.callMic c wait).Stops := by
  unfold State.callMic
  split_ifs
  · have hstep : s.device.step (.call 0 c) = s.device.call 0 c := if_pos hidle
    refine h.inMic (hstep ▸ h.held.step (.call 0 c)) (fun i hi => ?_) hwait fun hrun _ _ => ?_
    · cases c <;> simp [Capture.State.call, Capture.State.setCaller, hi]
    · cases c <;>
        simp [Capture.State.call, Capture.State.setCaller, Capture.CallerPc.Starting, hrun]
  · exact h.session rfl rfl rfl hidle

theorem frame_onMicRequested (start : Bool) (s : State) :
    (s.onMicRequested start).read = s.read ∧ (s.onMicRequested start).device = s.device ∧
      (s.onMicRequested start).stopper = s.stopper ∧ (s.onMicRequested start).mic = s.mic := by
  unfold onMicRequested
  split_ifs <;> exact ⟨rfl, rfl, rfl, rfl⟩

theorem Stops.returned (h : s.Stops) (hidle : s.device.callers 0 = .idle) : s.returned.Stops := by
  unfold State.returned
  cases s.read with
  | startWait =>
      simp only
      split_ifs
      · exact h.session rfl rfl rfl hidle
      · obtain ⟨-, hdevice, hstopper, hmic⟩ := frame_onMicRequested false { s with read := .idle }
        exact h.session hdevice hmic hstopper hidle
  | inputWait | assumeWait | stopWait => exact h.session rfl rfl rfl hidle
  | _ => exact h

/-- The read thread in a call of the microphone. -/
theorem readStep_of_waiting (hwait : s.read.Waiting) (ok : Bool) :
    s.readStep ok = if s.device.callers 0 = .idle then s.returned
      else { s with device := s.device.callerStep 0 ok } := by
  unfold State.readStep
  cases hpc : s.read with
  | inputWait | assumeWait | startWait | stopWait => rfl
  | _ =>
      rw [hpc] at hwait
      exact hwait.elim

theorem Stops.waits (h : s.Stops) (hwait : s.read.Waiting) (ok : Bool)
    (he : s.StartsBeforeStop (.read ok)) : (s.readStep ok).Stops := by
  rw [readStep_of_waiting hwait]
  split_ifs with hidle
  · exact h.returned hidle
  · refine h.inMic (p := s.read) (h.held.callerStep 0 ok)
      (fun i hi => Capture.State.callers_callerStep hi ok) hwait fun hrun hstarting hstopped => ?_
    exact Capture.State.stopped_callerStep hrun hstarting
      (fun hpc hfree => he hpc hfree hrun hstopped) ok

theorem Stops.readStep (h : s.Stops) (ok : Bool) (he : s.StartsBeforeStop (.read ok)) :
    (s.readStep ok).Stops := by
  have hidle : ∀ pc, s.read = pc → ¬ pc.Waiting → s.device.callers 0 = .idle := fun pc hpc hnot =>
    h.reader (hpc ▸ hnot)
  by_cases hwait : s.read.Waiting
  · exact h.waits hwait ok he
  unfold State.readStep
  cases hpc : s.read with
  | idle => exact h
  | input type | assume guess | check u | load u =>
      exact h.session rfl rfl rfl (hidle _ hpc id)
  | inputCall type => exact h.callMic (hidle _ hpc id) _ trivial
  | assumeCall guess => exact h.callMic (hidle _ hpc id) _ trivial
  | isRunning u =>
      simp only
      split_ifs
      · unfold State.found
        split <;> exact h.session rfl rfl rfl (hidle _ hpc id)
      · exact h
  | request | handBack =>
      obtain ⟨-, hdevice, hstopper, hmic⟩ := frame_onMicRequested _ s
      exact h.session hdevice hmic hstopper (hidle _ hpc id)
  | startCall | stopCall => exact h.callMic (hidle _ hpc id) _ trivial
  | inputWait | assumeWait | startWait | stopWait => exact absurd (by rw [hpc]; trivial) hwait

/-- The stopping thread. -/
theorem Stops.stopStep (h : s.Stops) (ok : Bool) : (s.stopStep ok).Stops := by
  -- out of the microphone it is idle there
  have hout : s.stopper ≠ .wait → s.device.callers 1 = .idle := fun hne =>
    h.stopping.resolve_right fun hw => hne hw.1
  unfold State.stopStep
  cases hpc : s.stopper with
  | idle =>
      have hmic : s.mic = true := h.mic.resolve_right (by simp [hpc])
      simp only
      rw [if_pos hmic]
      exact ⟨h.held, h.others, h.reader, .inl (hout (by simp [hpc])), .inl hmic, by simp,
        by simp [Stopped, StopPc.Past]⟩
  | call =>
      have hidle : s.device.callers 1 = .idle := hout (by simp [hpc])
      have hstep : s.device.step (.call 1 .stop) = s.device.call 1 .stop := if_pos hidle
      have hcallers : ∀ i, i ≠ 1 → (s.device.call 1 .stop).callers i = s.device.callers i :=
        fun i hi => Function.update_of_ne hi ..
      have hone : (s.device.call 1 .stop).callers 1 = .stop false := by
        simp [Capture.State.call, Capture.State.setCaller]
      refine ⟨hstep ▸ h.held.step (.call 1 .stop), fun i hi => ?_, fun hread => ?_,
        .inr ⟨rfl, hone⟩, .inl (h.mic.resolve_right (by simp [hpc])), by simp, fun hstopped => ?_⟩
      · exact (hcallers i (by omega)).trans (h.others i hi)
      · exact (hcallers 0 (by decide)).trans (h.reader hread)
      · simp [Stopped, StopPc.Past, hone] at hstopped
  | wait =>
      have hmic : s.mic = true := h.mic.resolve_right (by simp [hpc])
      simp only
      split_ifs with hidle
      · exact ⟨h.held, h.others, h.reader, .inl hidle, .inl hmic, by simp,
          fun _ => h.quiet (.inr ⟨hpc, hidle⟩)⟩
      · have hstop : s.device.callers 1 = .stop false := (h.stopping.resolve_left hidle).2
        by_cases hfree : s.device.monitor = none
        · -- the read thread is not in `startLocked`
          have hrun : (s.device.callerStep 1 ok).running = false := by
            simp [Capture.State.callerStep, hstop, hfree, Capture.State.leave]
          have hone : (s.device.callerStep 1 ok).callers 1 = .idle := by
            simp [Capture.State.callerStep, hstop, hfree, Capture.State.leave]
          have hcallers : ∀ i, i ≠ 1 → (s.device.callerStep 1 ok).callers i = s.device.callers i :=
            fun i hi => Capture.State.callers_callerStep hi ok
          refine ⟨h.held.callerStep 1 ok, fun i hi => ?_, fun hread => ?_, .inl hone, .inl hmic,
            by simp, fun _ => ⟨hrun, fun hstarting => ?_⟩⟩
          · exact (hcallers i (by omega)).trans (h.others i hi)
          · exact (hcallers 0 (by decide)).trans (h.reader hread)
          · rw [hcallers 0 (by decide)] at hstarting
            exact h.held.free hfree 0 hstarting.holding
        · have hsame : s.device.callerStep 1 ok = s.device := by
            simp [Capture.State.callerStep, hstop, hfree]
          rw [hsame, ← hpc]
          exact h
  | clear =>
      exact ⟨h.held, h.others, h.reader, .inl (hout (by simp [hpc])), .inr (.inl rfl), fun _ => rfl,
        fun _ => h.quiet (.inl (by rw [hpc]; trivial))⟩
  | rest =>
      exact ⟨h.held, h.others, h.reader, .inl (hout (by simp [hpc])), .inr (.inr rfl),
        fun _ => h.rest (.inl hpc), fun _ => h.quiet (.inl (by rw [hpc]; trivial))⟩
  | done => exact h

/-- A capture thread. -/
theorem Stops.captures (h : s.Stops) {e : Capture.Event} (he : e.captureThread.isSome) :
    { s with device := s.device.step e }.Stops := by
  have hcallers : (s.device.step e).callers = s.device.callers := by
    cases e with
    | capture t ok => exact (s.device.frame_captureStep t ok).1
    | read t result peak => exact (s.device.frame_readStep t result peak).1
    | _ => simp [Capture.Event.captureThread] at he
  refine ⟨h.held.step e, ?_, ?_, ?_, h.mic, h.rest, fun hstopped => ?_⟩
  · rw [hcallers]
    exact h.others
  · rw [hcallers]
    exact h.reader
  · rw [hcallers]
    exact h.stopping
  · rw [Stopped, hcallers] at hstopped
    obtain ⟨hrun, hstarting⟩ := h.quiet hstopped
    rw [hcallers]
    exact ⟨(Capture.State.winds_step hrun he).1, hstarting⟩

/-- **Every event keeps this**, if it is no start that comes too late. -/
theorem Stops.step (h : s.Stops) (e : Event) (he : s.StartsBeforeStop e) : (s.step e).Stops := by
  cases e with
  | command c decodeType =>
      simp only [State.step]
      split_ifs with hread
      · have hidle : s.device.callers 0 = .idle := h.reader (by rw [hread]; exact id)
        unfold State.command
        cases c with
        | siriStop | mediaStart =>
            simp only
            split_ifs <;> first | exact h | exact h.session rfl rfl rfl hidle
        | inputConfig | phonecallStart | siriStart | phonecallStop =>
            exact h.session rfl rfl rfl hidle
        | _ => exact h
      · exact h
  | phoneDisconnected =>
      simp only [State.step]
      split_ifs with hread
      · exact h.session rfl rfl rfl (h.reader (by rw [hread]; exact id))
      · exact h
  | read ok => exact h.readStep ok he
  | stop ok => exact h.stopStep ok
  | capture t ok => exact h.captures (e := .capture t ok) rfl
  | captured t result peak => exact h.captures (e := .read t result peak) rfl

/-! ### Past it -/

/-- The session without a microphone, and nobody in the microphone that it had. -/
structure Off (s : State) : Prop where
  stopper : s.stopper = .done
  mic : s.mic = false
  read : s.read.Harmless
  callers : ∀ i, s.device.callers i = .idle
  running : s.device.running = false

theorem Stops.off (h : s.Stops) (hover : s.Over) : s.Off where
  stopper := hover.1
  mic := h.rest (.inr hover.1)
  read := by
    rw [hover.2]
    trivial
  callers i := by
    match i with
    | 0 => exact h.reader (by rw [hover.2]; exact id)
    | 1 => exact h.stopping.resolve_right fun hw => by simp [hover.1] at hw
    | i + 2 => exact h.others (i + 2) (by omega)
  running := (h.quiet (.inl (by rw [hover.1]; trivial))).1

/-- The session moves, and leaves the microphone that it had alone. -/
theorem Off.session (h : s.Off) {s' : State} (hdevice : s'.device = s.device)
    (hmic : s'.mic = s.mic) (hstopper : s'.stopper = s.stopper) (hread : s'.read.Harmless) :
    s'.Off ∧ s.device.Winds s'.device := by
  refine ⟨⟨hstopper ▸ h.stopper, hmic ▸ h.mic, hread, hdevice ▸ h.callers, hdevice ▸ h.running⟩, ?_⟩
  rw [hdevice]
  exact .refl _

/-- A capture thread of the microphone that the session had winds down. -/
theorem Off.captures (h : s.Off) {e : Capture.Event} (he : e.captureThread.isSome) :
    { s with device := s.device.step e }.Off ∧ s.device.Winds (s.device.step e) := by
  obtain ⟨hrun, hwinds, hcallers, -⟩ := Capture.State.winds_step h.running he
  exact ⟨{ h with callers := hcallers ▸ h.callers, running := hrun }, hwinds⟩

/-- Every event keeps the session off. -/
theorem Off.step (h : s.Off) (e : Event) :
    (s.step e).Off ∧ s.device.Winds (s.step e).device := by
  have hsame : s.Off ∧ s.device.Winds s.device := ⟨h, .refl _⟩
  cases e with
  | command c decodeType =>
      simp only [State.step]
      split_ifs
      · unfold State.command
        cases c with
        | siriStop | mediaStart =>
            simp only
            split_ifs <;> first | exact hsame | exact h.session rfl rfl rfl trivial
        | inputConfig | phonecallStart | siriStart | phonecallStop =>
            exact h.session rfl rfl rfl trivial
        | _ => exact hsame
      · exact hsame
  | phoneDisconnected =>
      simp only [State.step]
      split_ifs
      · exact h.session rfl rfl rfl h.read
      · exact hsame
  | read ok =>
      have hread := h.read
      simp only [State.step, State.readStep]
      cases hpc : s.read with
      | idle => exact hsame
      | input type | assume guess | check u =>
          refine h.session rfl rfl rfl ?_
          simp [h.mic, ReadPc.Harmless]
      | _ =>
          rw [hpc] at hread
          exact hread.elim
  | stop ok =>
      simp only [State.step, State.stopStep, h.stopper]
      exact hsame
  | capture t ok => exact h.captures (e := .capture t ok) rfl
  | captured t result peak => exact h.captures (e := .read t result peak) rfl

/-- Nothing is captured any more in a session that is off. -/
theorem Off.silent (h : s.Off) : s.Silent :=
  ⟨h.running, along_of_invariant (I := Off) (fun _ e hs => (hs.step e).1)
    (fun _ e hs => ⟨(hs.step e).1.running, (hs.step e).2⟩) h⟩

/-! ### And nothing less -/

/-- The read thread in a call of the microphone is calling thread 0. -/
theorem run_reads (hwait : s.read.Waiting) (device : Capture.State) (n : ℕ)
    (hbusy : ∀ m < n, (run Capture.State.step device
      (List.replicate m (.caller 0 true))).callers 0 ≠ .idle) :
    run step { s with device := device } (List.replicate n (.read true)) =
      { s with device := run Capture.State.step device (List.replicate n (.caller 0 true)) } := by
  induction n generalizing device with
  | zero => rfl
  | succ n ih =>
      have hstep : State.step { s with device := device } (.read true) =
          { s with device := device.callerStep 0 true } :=
        (readStep_of_waiting (s := { s with device := device }) hwait true).trans
          (if_neg (hbusy 0 (Nat.succ_pos n)))
      rw [List.replicate_succ, run_cons, hstep, List.replicate_succ, run_cons]
      exact ih _ fun m hm => hbusy (m + 1) (Nat.succ_lt_succ hm)

/-- The callback comes to its end when the capture is running. -/
theorem run_returns (hwait : s.read.Waiting) (hidle : s.device.callers 0 = .idle)
    (hrun : s.device.running = true) (hfree : s.device.monitor = none) :
    ∃ es, (run step s es).read = .idle ∧ (run step s es).device = s.device ∧
      (run step s es).stopper = s.stopper := by
  cases hpc : s.read with
  | inputWait =>
      exact ⟨[.read true], by simp [State.step, State.readStep, State.returned, hpc, hidle]⟩
  | startWait =>
      have hreturned : run step s [.read true] = if s.device.results 0 then { s with read := .idle }
          else { s with read := .idle }.onMicRequested false := by
        simp [State.step, State.readStep, State.returned, hpc, hidle]
      refine ⟨[.read true], ?_⟩
      rw [hreturned]
      split_ifs
      · exact ⟨rfl, rfl, rfl⟩
      · obtain ⟨hread, hdevice, hstopper, -⟩ := frame_onMicRequested false { s with read := .idle }
        exact ⟨hread, hdevice, hstopper⟩
  | stopWait =>
      have hreturned : run step s [.read true, .read true] =
          { { s with read := .handBack }.onMicRequested false with read := .idle } := by
        simp [State.step, State.readStep, State.returned, hpc, hidle]
      obtain ⟨-, hdevice, hstopper, -⟩ := frame_onMicRequested false { s with read := .handBack }
      refine ⟨[.read true, .read true], ?_⟩
      rw [hreturned]
      exact ⟨rfl, hdevice, hstopper⟩
  | assumeWait =>
      refine ⟨List.replicate 4 (.read true), ?_⟩
      cases hmic : s.mic <;>
        simp [List.replicate, State.step, State.readStep, State.returned, State.found, hpc, hidle,
          hmic, hfree, hrun]
  | _ =>
      rw [hpc] at hwait
      exact hwait.elim

/-- `stop` comes to its end. -/
theorem run_stopped (h : s.Stopped) :
    ∃ es, (run step s es).stopper = .done ∧ (run step s es).device = s.device ∧
      (run step s es).read = s.read := by
  cases hpc : s.stopper with
  | idle | call => simp [Stopped, StopPc.Past, hpc] at h
  | wait =>
      have hidle : s.device.callers 1 = .idle := by simpa [Stopped, StopPc.Past, hpc] using h
      exact ⟨List.replicate 3 (.stop true),
        by simp [List.replicate, State.step, State.stopStep, hpc, hidle]⟩
  | clear =>
      exact ⟨List.replicate 2 (.stop true),
        by simp [List.replicate, State.step, State.stopStep, hpc]⟩
  | rest => exact ⟨[.stop true], by simp [State.step, State.stopStep, hpc]⟩
  | done => exact ⟨[], hpc, rfl, rfl⟩

/-- **A start that comes too late outlives `stop`.** -/
theorem Stops.doomed (h : s.Stops) {e : Event} (he : ¬ s.StartsBeforeStop e) :
    ∃ es, (run State.step s es).Over ∧ ¬ (run State.step s es).Silent := by
  cases e with
  | read ok =>
      simp only [StartsBeforeStop, not_forall, not_not] at he
      obtain ⟨hpc, hfree, hrun, hstopped⟩ := he
      have hwait : s.read.Waiting := by
        by_contra hnot
        simp [h.reader hnot] at hpc
      obtain ⟨hbusy, hcallers, -, hrun', hfree'⟩ := Capture.State.run_startLocked hpc hfree hrun
      have hfour := run_reads hwait s.device 4 hbusy
      set device := run Capture.State.step s.device (List.replicate 4 (.caller 0 true))
      have hstopped' : State.Stopped { s with device := device } :=
        hstopped.imp id fun hw => ⟨hw.1, by
          show device.callers 1 = .idle
          rw [hcallers, Function.update_of_ne (by decide)]
          exact hw.2⟩
      -- the callback ends with the capture running, and `stop` ends after it
      obtain ⟨fs, hread, hdevice, hstopper⟩ := run_returns (s := { s with device := device }) hwait
        (by simp [hcallers]) hrun' hfree'
      set u := run State.step { s with device := device } fs
      have hu : u.Stopped := by
        rw [Stopped, hdevice, hstopper]
        exact hstopped'
      obtain ⟨gs, hdone, hdevice', hread'⟩ := run_stopped hu
      refine ⟨List.replicate 4 (.read true) ++ fs ++ gs, ?_⟩
      rw [run_append, run_append, hfour]
      refine ⟨⟨hdone, hread'.trans hread⟩, fun hsilent => ?_⟩
      have hnot : (run State.step u gs).device.running = false := hsilent.1
      rw [hdevice', hdevice, hrun'] at hnot
      exact absurd hnot (by decide)
  | _ => exact absurd trivial he

/-- **When `stop` is the end of the capture.**  Over every interleaving of the read thread,
with any commands, the stopping thread and the capture threads: once `stop` and the
callback of the read thread are over nothing is captured any more, if no `startLocked` of
the read thread that finds `running` false comes after `stop` has been through the
microphone.  From a state where one does, there is a run in which the capture outlives
both. -/
theorem silent_of_startsBeforeStop (callback : Bool) (es : List Event)
    (h : Along step StartsBeforeStop (start callback) es) :
    ((run step (start callback) es).Over → (run step (start callback) es).Silent) ∧
      ∀ e, ¬ (run step (start callback) es).StartsBeforeStop e →
        ∃ fs, (run step (run step (start callback) es) fs).Over ∧
          ¬ (run step (run step (start callback) es) fs).Silent := by
  have hstops : (run step (start callback) es).Stops :=
    h.invariant (fun _ e hs he => hs.step e he) (stops_start callback)
  exact ⟨fun hover => (hstops.off hover).silent, fun _ he => hstops.doomed he⟩

/-- A call that was captured before the session is stopped; and a start of the capture
while it is stopped. -/
theorem silent_of_startsBeforeStop_inCall :
    (run step (start true) ([Event.command .phonecallStart 0] ++
        List.replicate 17 (Event.read true) ++ List.replicate 3 (Event.capture 0 true) ++
        List.replicate 6 (Event.stop true))).Silent ∧
      ∃ fs, (run step (run step (start true) ([Event.command .phonecallStart 0] ++
        List.replicate 12 (Event.read true) ++ List.replicate 3 (Event.stop true))) fs).Over ∧
          ¬ (run step (run step (start true) ([Event.command .phonecallStart 0] ++
            List.replicate 12 (Event.read true) ++
            List.replicate 3 (Event.stop true))) fs).Silent :=
  ⟨(silent_of_startsBeforeStop true _ (by decide)).1 (by decide),
    (silent_of_startsBeforeStop true _ (by decide)).2 (.read true) (by decide)⟩

/-- `stop` comes between `isRunning` and `start` in `startMic`. -/
theorem not_silent_started :
    (run step (start true) ([Event.command .phonecallStart 0] ++
        List.replicate 11 (Event.read true) ++ List.replicate 6 (Event.stop true) ++
        List.replicate 6 (Event.read true))).Over ∧
      ¬ (run step (start true) ([Event.command .phonecallStart 0] ++
        List.replicate 11 (Event.read true) ++ List.replicate 6 (Event.stop true) ++
        List.replicate 6 (Event.read true))).Silent :=
  ⟨by decide, fun h => absurd h.1 (by decide)⟩

end State
end MicStop
end App
end Carlinkit
