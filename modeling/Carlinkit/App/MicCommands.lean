/-
# The commands of the microphone

`CarlinkitSession`: `handleMicCommand`, `startMic`, `stopMic`, `onPhoneDisconnected`
and `stop`, as far as the microphone goes, with `CarlinkitMicrophone` as these calls
find it and leave it.  Audio commands and the phone's going away come from the read
thread, one after another.  The only thing that comes in between here is the capture
thread, which may end by itself (`Event.captureEnds`); what else can come between
is in `Carlinkit.App.MicStop`.

Every `start` of the microphone may fail, also the one inside `setDecodeType`, so a
command carries two outcomes.  `requests` are the calls of `Callback.onMicRequested`,
by which the head unit's EcNc session is opened and closed; `former` is the microphone
that `stop` let go of.
-/

import Carlinkit.Protocol.Audio
import Carlinkit.Machine.Run

namespace Carlinkit
namespace App

open Protocol Machine

/-- How a `CarlinkitMicrophone.start` that finds no capture running comes out. -/
inductive Starting
  | started
  /-- The previous capture thread is still alive. -/
  | refused
  /-- No source opens. -/
  | unavailable
  /-- `thread.start()` throws. -/
  | failed
deriving DecidableEq, Repr

/-- `CarlinkitMicrophone`, between its calls. -/
structure Microphone where
  format : CaptureFormat
  running : Bool
deriving DecidableEq, Repr

namespace Microphone

/-- A new microphone: decodeType 5, 16000 Hz. -/
def new : Microphone := ⟨.assistant, false⟩

/-- `start`. -/
def start (o : Starting) (m : Microphone) : Bool × Microphone :=
  if m.running then (true, m)
  else if o = .started then (true, { m with running := true })
  else (false, m)

/-- `stop`. -/
def stop (m : Microphone) : Microphone := { m with running := false }

/-- `setDecodeType`; `o` is for the restart. -/
def setDecodeType (type : BitVec 32) (o : Starting) (m : Microphone) : Bool × Microphone :=
  match CaptureFormat.ofDecodeType type with
  | none => (false, m)
  | some f =>
      if type = m.format.decodeType ∧ m.format.sampleRate = f.sampleRate then (true, m)
      else if m.running then { m with format := f }.stop.start o
      else (true, { m with format := f })

variable {m : Microphone}

/-- A running capture is left alone. -/
theorem start_of_running (o : Starting) (h : m.running = true) : m.start o = (true, m) :=
  if_pos h

theorem running_start (o : Starting) (m : Microphone) :
    (m.start o).2.running = true ↔ m.running = true ∨ o = .started := by
  unfold start
  split_ifs with hrun ho
  · simp [hrun]
  · simp [ho]
  · simp [hrun, ho]

theorem start_started (m : Microphone) : (m.start .started).2 = { m with running := true } := by
  obtain ⟨f, running⟩ := m
  cases running <;> rfl

@[simp] theorem format_start (o : Starting) (m : Microphone) : (m.start o).2.format = m.format := by
  unfold start
  split_ifs <;> rfl

/-- A `decodeType` that is unknown or not mono changes nothing. -/
theorem setDecodeType_none {type : BitVec 32} (o : Starting)
    (h : CaptureFormat.ofDecodeType type = none) (m : Microphone) :
    (m.setDecodeType type o).2 = m := by
  simp [setDecodeType, h]

/-- A usable one is the format from then on, whatever comes of the restart. -/
theorem format_setDecodeType {type : BitVec 32} {f : CaptureFormat} (o : Starting)
    (h : CaptureFormat.ofDecodeType type = some f) (m : Microphone) :
    (m.setDecodeType type o).2.format = f := by
  simp only [setDecodeType, h]
  split_ifs with hsame hrun
  · -- the test says that the format is there already
    exact CaptureFormat.ext_sampleRate hsame.2
  · simp [stop]
  · rfl

/-- The capture stops at a change of format whose restart fails, and only there. -/
theorem running_setDecodeType (type : BitVec 32) (o : Starting) (m : Microphone) :
    (m.setDecodeType type o).2.running = true ↔ m.running = true ∧
      (o = .started ∨ ∀ f ∈ CaptureFormat.ofDecodeType type, f = m.format) := by
  cases h : CaptureFormat.ofDecodeType type with
  | none => simp [setDecodeType_none o h]
  | some f =>
      have hsame : (type = m.format.decodeType ∧ m.format.sampleRate = f.sampleRate) ↔
          f = m.format := by
        constructor
        · exact fun hs => (CaptureFormat.ext_sampleRate hs.2).symm
        · rintro rfl
          exact ⟨(CaptureFormat.decodeType_of_ofDecodeType h).symm, rfl⟩
      simp only [setDecodeType, h, hsame]
      split_ifs with hf hrun
      · simp [hf]
      · simp [running_start, stop, hf, hrun]
      · simp [hrun]

end Microphone

/-- `isMediaFormat`. -/
def isMediaFormat (decodeType : BitVec 32) : Bool :=
  match formatOf decodeType with
  | some f => f.channels == 2
  | none => false

namespace MicCommands

/-- `CarlinkitSession`, as far as the microphone goes. -/
structure State where
  mic : Option Microphone
  phoneCallActive : Bool
  inputConfigSeen : Bool
  /-- There is a `callback`. -/
  callback : Bool
  requests : List Bool
  former : Option Microphone
deriving DecidableEq, Repr

/-- The session after `start`. -/
def start (callback : Bool) : State where
  mic := some .new
  phoneCallActive := false
  inputConfigSeen := false
  callback := callback
  requests := []
  former := none

/-- What the read thread and the service do to the session, and what becomes of the
capture. -/
inductive Event
  /-- An audio command; `restart` is for `setDecodeType`, `starting` for `startMic`. -/
  | command (c : AudioCommand) (decodeType : BitVec 32) (restart starting : Starting)
  | phoneConnected
  | phoneDisconnected
  /-- The capture thread ends by itself. -/
  | captureEnds
  | stop
deriving DecidableEq, Repr

/-- The audio command of an event. -/
def Event.audioCommand : Event → Option AudioCommand
  | .command c _ _ _ => some c
  | _ => none

/-- The `decodeType` of an INPUT_CONFIG, and what comes of the restart. -/
def Event.announcement : Event → Option (BitVec 32 × Starting)
  | .command .inputConfig decodeType restart _ => some (decodeType, restart)
  | _ => none

/-- A MEDIA_START in a media format. -/
def Event.resumesMedia : Event → Bool
  | .command .mediaStart decodeType _ _ => isMediaFormat decodeType
  | _ => false

/-- The starts of the capture in this event succeed. -/
def Event.Succeeds : Event → Prop
  | .command _ _ restart starting => restart = .started ∧ starting = .started
  | _ => True

instance : ∀ e : Event, Decidable e.Succeeds
  | .command _ _ restart starting =>
      inferInstanceAs (Decidable (restart = .started ∧ starting = .started))
  | .phoneConnected | .phoneDisconnected | .captureEnds | .stop => .isTrue trivial

namespace State

/-- The capture is running. -/
def Capturing (s : State) : Prop := ∃ m ∈ s.mic, m.running = true

instance (s : State) : Decidable s.Capturing := inferInstanceAs (Decidable (∃ m ∈ s.mic, _))

/-- `callback.onMicRequested(start)`, if there is a callback. -/
def onMicRequested (start : Bool) (s : State) : State :=
  if s.callback then { s with requests := s.requests ++ [start] } else s

/-- `startMic`. -/
def startMic (o : Starting) (s : State) : State :=
  match s.mic with
  | none => s
  | some m =>
      if m.running then s
      else
        let s := { s.onMicRequested true with mic := some (m.start o).2 }
        if (m.start o).1 then s else s.onMicRequested false

/-- `stopMic`. -/
def stopMic (s : State) : State :=
  match s.mic with
  | none => s
  | some m => { s with mic := some m.stop }.onMicRequested false

/-- `mic.setDecodeType(type)`, if there is a microphone. -/
def setDecodeType (type : BitVec 32) (o : Starting) (s : State) : State :=
  { s with mic := s.mic.map fun m => (m.setDecodeType type o).2 }

/-- Without an INPUT_CONFIG so far the format is a guess. -/
def assume (type : BitVec 32) (o : Starting) (s : State) : State :=
  if s.inputConfigSeen then s else s.setDecodeType type o

/-- `handleMicCommand`. -/
def handleMicCommand (c : AudioCommand) (decodeType : BitVec 32) (restart starting : Starting)
    (s : State) : State :=
  match c with
  | .inputConfig =>
      { s.setDecodeType decodeType restart with
        inputConfigSeen := s.inputConfigSeen || s.mic.isSome }
  | .phonecallStart => ({ s with phoneCallActive := true }.assume 3 restart).startMic starting
  | .siriStart => (s.assume 5 restart).startMic starting
  | .phonecallStop => { s with phoneCallActive := false }.stopMic
  | .siriStop => if s.phoneCallActive then s else s.stopMic
  | .mediaStart =>
      if isMediaFormat decodeType ∧ s.Capturing then { s with phoneCallActive := false }.stopMic
      else s
  | _ => s

/-- `onPhoneDisconnected`. -/
def onPhoneDisconnected (s : State) : State := { s with phoneCallActive := false }

/-- The capture thread ends: `finally` in `captureLoop`. -/
def captureEnds (s : State) : State := { s with mic := s.mic.map Microphone.stop }

/-- `stop`. -/
def stop (s : State) : State :=
  { s with
    mic := none
    phoneCallActive := false
    former := (s.mic.map Microphone.stop).or s.former }

/-- One event. -/
def step (s : State) : Event → State
  | .command c decodeType restart starting =>
      s.handleMicCommand c decodeType restart starting
  | .phoneConnected => s
  | .phoneDisconnected => s.onPhoneDisconnected
  | .captureEnds => s.captureEnds
  | .stop => s.stop

/-! ### What the calls do to each field -/

variable (o : Starting) (s : State)

@[simp] theorem frame_onMicRequested (b : Bool) :
    (s.onMicRequested b).mic = s.mic ∧
      (s.onMicRequested b).phoneCallActive = s.phoneCallActive ∧
      (s.onMicRequested b).inputConfigSeen = s.inputConfigSeen ∧
      (s.onMicRequested b).callback = s.callback ∧
      (s.onMicRequested b).former = s.former := by
  unfold onMicRequested
  split_ifs <;> exact ⟨rfl, rfl, rfl, rfl, rfl⟩

@[simp] theorem frame_startMic :
    (s.startMic o).phoneCallActive = s.phoneCallActive ∧
      (s.startMic o).inputConfigSeen = s.inputConfigSeen ∧
      (s.startMic o).callback = s.callback ∧ (s.startMic o).former = s.former := by
  unfold startMic
  cases s.mic with
  | none => exact ⟨rfl, rfl, rfl, rfl⟩
  | some m =>
      simp only
      split_ifs <;> simp

/-- `startMic` starts the microphone, if there is one. -/
@[simp] theorem mic_startMic : (s.startMic o).mic = s.mic.map fun m => (m.start o).2 := by
  unfold startMic
  cases hmic : s.mic with
  | none => simpa using hmic
  | some m =>
      simp only [Option.map_some]
      split_ifs with hrun
      · rw [hmic, Microphone.start_of_running o hrun]
      · rfl
      · simp

@[simp] theorem frame_stopMic :
    s.stopMic.phoneCallActive = s.phoneCallActive ∧
      s.stopMic.inputConfigSeen = s.inputConfigSeen ∧ s.stopMic.callback = s.callback ∧
      s.stopMic.former = s.former := by
  unfold stopMic
  cases s.mic with
  | none => exact ⟨rfl, rfl, rfl, rfl⟩
  | some m => simp

/-- `stopMic` stops the microphone, if there is one. -/
@[simp] theorem mic_stopMic : s.stopMic.mic = s.mic.map Microphone.stop := by
  unfold stopMic
  cases hmic : s.mic with
  | none => simpa using hmic
  | some m => simp

@[simp] theorem frame_assume (type : BitVec 32) :
    (s.assume type o).phoneCallActive = s.phoneCallActive ∧
      (s.assume type o).inputConfigSeen = s.inputConfigSeen ∧
      (s.assume type o).callback = s.callback ∧ (s.assume type o).requests = s.requests ∧
      (s.assume type o).former = s.former := by
  unfold assume
  split_ifs <;> exact ⟨rfl, rfl, rfl, rfl, rfl⟩

theorem mic_assume (type : BitVec 32) :
    (s.assume type o).mic =
      if s.inputConfigSeen then s.mic else s.mic.map fun m => (m.setDecodeType type o).2 := by
  unfold assume
  split_ifs <;> rfl

theorem mic_handleMicCommand_isSome (c : AudioCommand) (d : BitVec 32)
    (restart starting : Starting) :
    (s.handleMicCommand c d restart starting).mic.isSome = s.mic.isSome := by
  cases c with
  | inputConfig => simp [handleMicCommand, setDecodeType]
  | phonecallStart | siriStart =>
      simp only [handleMicCommand, mic_startMic, mic_assume, Option.isSome_map]
      split_ifs <;> simp
  | phonecallStop => simp [handleMicCommand]
  | siriStop | mediaStart =>
      simp only [handleMicCommand]
      split_ifs <;> simp
  | _ => rfl

/-- Only `stop` lets the microphone go. -/
theorem mic_step_isSome {e : Event} (he : e ≠ .stop) : (s.step e).mic.isSome = s.mic.isSome := by
  cases e with
  | command c d restart starting => exact s.mic_handleMicCommand_isSome c d restart starting
  | captureEnds => simp [step, captureEnds]
  | stop => exact absurd rfl he
  | phoneConnected | phoneDisconnected => rfl

/-- The callback stays. -/
theorem callback_step (e : Event) : (s.step e).callback = s.callback := by
  cases e with
  | command c d restart starting =>
      cases c with
      | siriStop | mediaStart =>
          simp only [step, handleMicCommand]
          split_ifs <;> simp
      | phonecallStart | siriStart | phonecallStop => simp [step, handleMicCommand]
      | _ => rfl
  | _ => rfl

/-! ### When the capture runs -/

theorem capturing_startMic :
    (s.startMic o).Capturing ↔ ∃ m ∈ s.mic, m.running = true ∨ o = .started := by
  simp [Capturing, Microphone.running_start]

/-- Without a callback `startMic` requests nothing. -/
theorem requests_startMic_of_silent {s : State} (h : s.callback = false) :
    (s.startMic o).requests = s.requests := by
  unfold startMic
  cases s.mic with
  | none => rfl
  | some m =>
      simp only [onMicRequested, h, Bool.false_eq_true, if_false]
      split_ifs <;> rfl

/-- A running capture needs no request. -/
theorem startMic_of_capturing {s : State} (h : s.Capturing) : s.startMic o = s := by
  obtain ⟨m, hm, hrun⟩ := h
  rw [Option.mem_def] at hm
  simp [startMic, hm, hrun]

/-- What `startMic` asks for last is the microphone, if it has the capture, or its
return. -/
theorem getLast?_startMic {s : State} (hmic : s.mic.isSome) (h : ¬ s.Capturing)
    (hc : s.callback = true) : (s.startMic o).requests.getLast? = some (decide (o = .started)) := by
  obtain ⟨m, hm⟩ := Option.isSome_iff_exists.1 hmic
  have hrun : m.running = false := by simpa [Capturing, hm] using h
  by_cases ho : o = .started <;> simp [startMic, hm, hrun, Microphone.start, ho, onMicRequested, hc]

/-- `stopMic` gives the microphone back. -/
theorem getLast?_stopMic {s : State} (hmic : s.mic.isSome) (hc : s.callback = true) :
    s.stopMic.requests.getLast? = some false := by
  obtain ⟨m, hm⟩ := Option.isSome_iff_exists.1 hmic
  simp [stopMic, hm, onMicRequested, hc]

/-- Without a callback `stopMic` requests nothing. -/
theorem requests_stopMic_of_silent {s : State} (h : s.callback = false) :
    s.stopMic.requests = s.requests := by
  unfold stopMic
  cases s.mic with
  | none => rfl
  | some m => simp [onMicRequested, h]

theorem not_capturing_stopMic : ¬ s.stopMic.Capturing := by
  simp [Capturing, Microphone.stop]

theorem capturing_setDecodeType (type : BitVec 32) :
    (s.setDecodeType type o).Capturing ↔ ∃ m ∈ s.mic, m.running = true ∧
      (o = .started ∨ ∀ f ∈ CaptureFormat.ofDecodeType type, f = m.format) := by
  simp [Capturing, setDecodeType, Microphone.running_setDecodeType]

end State
end MicCommands
end App
end Carlinkit
