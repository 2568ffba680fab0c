/-
# The head unit's side of the microphone

Before a capture the session asks the head unit for its microphone with
`onMicRequested(true)`, which opens an EcNc session there, and gives it back with
`onMicRequested(false)`.  `startMic` and `stopMic` do both, with the capture.

Three ways around them leave the EcNc session open: the restart inside
`setDecodeType` may fail, whose result nobody looks at (`notStranded_iff`), and
`onPhoneDisconnected` and `stop` call neither of the two (`released_iff`).
-/

import Carlinkit.App.MicCommands

namespace Carlinkit
namespace App
namespace MicCommands

open Protocol Machine

namespace State

/-- Nothing is captured, and the head unit has its microphone back. -/
def Released (s : State) : Prop :=
  (∀ m ∈ s.mic, m.running = false) ∧ (∀ m ∈ s.former, m.running = false) ∧
    s.requests.getLast? ≠ some true

/-- The capture runs, or the head unit has its microphone back. -/
def NotStranded (s : State) : Prop := s.Capturing ∨ s.requests.getLast? ≠ some true

instance (s : State) : Decidable s.Released := inferInstanceAs (Decidable (_ ∧ _ ∧ _))

instance (s : State) : Decidable s.NotStranded := inferInstanceAs (Decidable (_ ∨ _))

/-- What holds in every state: a capture was asked for, and the microphone that `stop` let
go of is not running. -/
structure Lent (s : State) : Prop where
  asked : s.callback = true → s.Capturing → s.requests.getLast? = some true
  silent : s.callback = false → s.requests = []
  former : ∀ m ∈ s.former, m.running = false

theorem lent_start (callback : Bool) : (start callback).Lent where
  asked _ hcap := by
    obtain ⟨m, hm, hrun⟩ := hcap
    obtain rfl := Option.some.inj hm
    simp [Microphone.new] at hrun
  silent _ := rfl
  former := by simp [start]

variable {s : State}

/-- Without a new request the capture may only end. -/
theorem Lent.of_capturing (h : s.Lent) {s' : State} (hcap : s'.Capturing → s.Capturing)
    (hrequests : s'.requests = s.requests) (hcallback : s'.callback = s.callback)
    (hformer : ∀ m ∈ s'.former, m.running = false) : s'.Lent where
  asked hc hrun := hrequests ▸ h.asked (hcallback ▸ hc) (hcap hrun)
  silent hc := hrequests ▸ h.silent (hcallback ▸ hc)
  former := hformer

/-- `startMic` asks before it captures. -/
theorem Lent.startMic (h : s.Lent) (o : Starting) : (s.startMic o).Lent where
  asked hc hcap := by
    rw [(s.frame_startMic o).2.2.1] at hc
    by_cases hrun : s.Capturing
    · rw [startMic_of_capturing o hrun]
      exact h.asked hc hrun
    · -- the capture was started just now
      obtain ⟨m, hm, hm'⟩ := (s.capturing_startMic o).1 hcap
      have ho : o = .started := hm'.resolve_left fun hr => hrun ⟨m, hm, hr⟩
      rw [getLast?_startMic o (Option.isSome_of_mem hm) hrun hc, ho]
      rfl
  silent hc := by
    rw [(s.frame_startMic o).2.2.1] at hc
    rw [requests_startMic_of_silent o hc]
    exact h.silent hc
  former := by
    rw [(s.frame_startMic o).2.2.2]
    exact h.former

/-- `stopMic` leaves no capture. -/
theorem Lent.stopMic (h : s.Lent) : s.stopMic.Lent where
  asked _ hcap := absurd hcap s.not_capturing_stopMic
  silent hc := by
    rw [s.frame_stopMic.2.2.1] at hc
    rw [requests_stopMic_of_silent hc]
    exact h.silent hc
  former := by
    rw [s.frame_stopMic.2.2.2]
    exact h.former

/-- `setDecodeType` may lose the capture, with no request. -/
theorem Lent.setDecodeType (h : s.Lent) (type : BitVec 32) (o : Starting) :
    (s.setDecodeType type o).Lent := by
  refine h.of_capturing (fun hcap => ?_) rfl rfl h.former
  obtain ⟨m, hm, hrun, -⟩ := (s.capturing_setDecodeType o type).1 hcap
  exact ⟨m, hm, hrun⟩

theorem Lent.assume (h : s.Lent) (type : BitVec 32) (o : Starting) : (s.assume type o).Lent := by
  unfold State.assume
  split_ifs
  · exact h
  · exact h.setDecodeType type o

theorem Lent.step (h : s.Lent) (e : Event) : (s.step e).Lent := by
  cases e with
  | command c d restart starting =>
      cases c with
      | inputConfig => exact { h.setDecodeType d restart with }
      | phonecallStart =>
          exact Lent.startMic (Lent.assume (s := { s with phoneCallActive := true }) { h with } 3
            restart) starting
      | siriStart => exact (h.assume 5 restart).startMic starting
      | phonecallStop => exact Lent.stopMic (s := { s with phoneCallActive := false }) { h with }
      | siriStop =>
          simp only [State.step, handleMicCommand]
          split_ifs
          · exact h
          · exact h.stopMic
      | mediaStart =>
          simp only [State.step, handleMicCommand]
          split_ifs
          · exact Lent.stopMic (s := { s with phoneCallActive := false }) { h with }
          · exact h
      | _ => exact h
  | phoneConnected => exact h
  | phoneDisconnected => exact { h with }
  | captureEnds =>
      refine h.of_capturing (fun hcap => ?_) rfl rfl h.former
      simp [State.step, State.captureEnds, Capturing, Microphone.stop] at hcap
  | stop =>
      refine h.of_capturing (fun hcap => ?_) rfl rfl fun m hm => ?_
      · simp [State.step, State.stop, Capturing] at hcap
      · cases hmic : s.mic with
        | none => exact h.former m (by simpa [State.step, State.stop, hmic] using hm)
        | some m₀ =>
            have hstopped : m₀.stop = m := by simpa [State.step, State.stop, hmic] using hm
            rw [← hstopped]
            rfl

/-- The head unit has its microphone back. -/
def HandedBack (s : State) : Prop := s.requests.getLast? ≠ some true

instance (s : State) : Decidable s.HandedBack := inferInstanceAs (Decidable (_ ≠ _))

/-- `stop` stops the capture and leaves the head unit as it is. -/
theorem Lent.released_stop_iff (h : s.Lent) : (s.step .stop).Released ↔ s.HandedBack := by
  refine ⟨fun hr => hr.2.2, fun hback => ⟨by simp [State.step, State.stop], fun m hm => ?_, hback⟩⟩
  exact (h.step .stop).former m hm

/-- The going away of the phone leaves both as they are. -/
theorem Lent.released_phoneDisconnected_iff (h : s.Lent) :
    (s.step .phoneDisconnected).Released ↔
      s.HandedBack ∧ (s.callback = false → ¬ s.Capturing) := by
  constructor
  · rintro ⟨hmic, -, hback⟩
    refine ⟨hback, fun _ ⟨m, hm, hrun⟩ => ?_⟩
    exact absurd hrun (by simp [hmic m hm])
  · rintro ⟨hback, hsilent⟩
    have hnot : ¬ s.Capturing := by
      cases hc : s.callback with
      | false => exact hsilent hc
      | true => exact fun hcap => hback (h.asked hc hcap)
    exact ⟨fun m hm => Bool.eq_false_iff.2 fun hrun => hnot ⟨m, hm, hrun⟩, h.former, hback⟩

/-- **When nothing outlives the phone or the session.**  After every sequence of events,
with any outcomes of the starts and any captures that end by themselves, the microphone is
released when `stop` is over exactly if it had been handed back before, and the same for
the going away of the phone, which without a callback must not find the capture running
either. -/
theorem released_iff (callback : Bool) (es : List Event) :
    ((run step (start callback) (es ++ [.stop])).Released ↔
        (run step (start callback) es).HandedBack) ∧
      ((run step (start callback) (es ++ [.phoneDisconnected])).Released ↔
        (run step (start callback) es).HandedBack ∧
          (callback = false → ¬ (run step (start callback) es).Capturing)) := by
  have hlent : (run step (start callback) es).Lent :=
    run_invariant (I := Lent) (fun _ e h => h.step e) (lent_start callback) es
  have hcallback : (run step (start callback) es).callback = callback :=
    run_invariant (I := fun s => s.callback = callback)
      (fun s e h => (callback_step s e).trans h) rfl es
  simp only [run_append, run_cons, run_nil]
  refine ⟨hlent.released_stop_iff, ?_⟩
  rw [hlent.released_phoneDisconnected_iff, hcallback]

/-- The phone goes, or the session stops, in a call. -/
theorem not_released_inCall :
    ¬ (run step (start true)
        [.command .phonecallStart 0 .started .started, .phoneDisconnected]).Released ∧
      ¬ (run step (start true)
        [.command .phonecallStart 0 .started .started, .stop]).Released := by
  decide

/-! ### Restarts that fail -/

/-- A command after which the capture may be on. -/
def RequestsMic (e : Event) : Prop :=
  e.audioCommand = some .inputConfig ∨ e.audioCommand = some .phonecallStart ∨
    e.audioCommand = some .siriStart

instance (e : Event) : Decidable (RequestsMic e) := inferInstanceAs (Decidable (_ ∨ _ ∨ _))

/-- A change of format while the capture runs brings it back. -/
def RestartSucceeds (s : State) (e : Event) : Prop :=
  ∀ p ∈ e.announcement, s.callback = true → ∀ m ∈ s.mic, m.running = true →
    p.2 = .started ∨ ∀ f ∈ CaptureFormat.ofDecodeType p.1, f = m.format

instance (s : State) (e : Event) : Decidable (s.RestartSucceeds e) :=
  inferInstanceAs (Decidable (∀ p ∈ e.announcement, _))

/-- Only INPUT_CONFIG announces a format. -/
theorem restartSucceeds_of_ne (s : State) {e : Event} (he : e.audioCommand ≠ some .inputConfig) :
    s.RestartSucceeds e := by
  have hnone : e.announcement = none := by
    cases e with
    | command c d restart starting =>
        cases c with
        | inputConfig => exact absurd rfl he
        | _ => rfl
    | _ => rfl
  simp [RestartSucceeds, hnone]

/-- Without a callback nothing is ever asked for. -/
theorem Lent.notStranded_of_silent (h : s.Lent) (hc : s.callback = false) : s.NotStranded :=
  .inr (by simp [h.silent hc])

/-- `startMic` gives back what it does not use. -/
theorem Lent.notStranded_startMic (h : s.Lent) (hmic : s.mic.isSome) (o : Starting) :
    (s.startMic o).NotStranded := by
  have hlent := h.startMic o
  cases hc : s.callback with
  | false => exact hlent.notStranded_of_silent ((s.frame_startMic o).2.2.1.trans hc)
  | true =>
      by_cases hcap : (s.startMic o).Capturing
      · exact .inl hcap
      · have hidle : ¬ s.Capturing := fun hrun => hcap (by rwa [startMic_of_capturing o hrun])
        have ho : o ≠ .started := by
          rintro rfl
          obtain ⟨m, hm⟩ := Option.isSome_iff_exists.1 hmic
          exact hcap ((s.capturing_startMic .started).2 ⟨m, hm, .inr rfl⟩)
        refine .inr ?_
        rw [getLast?_startMic o hmic hidle hc]
        simp [ho]

theorem Lent.notStranded_stopMic (h : s.Lent) (hmic : s.mic.isSome) : s.stopMic.NotStranded := by
  cases hc : s.callback with
  | false => exact h.stopMic.notStranded_of_silent (s.frame_stopMic.2.2.1.trans hc)
  | true => exact .inr (by rw [getLast?_stopMic hmic hc]; simp)

/-- `setDecodeType` keeps the capture or loses it to a failed restart. -/
theorem Lent.notStranded_setDecodeType_iff (h : s.Lent) (hs : s.NotStranded)
    (type : BitVec 32) (o : Starting) :
    (s.setDecodeType type o).NotStranded ↔ (s.callback = true → ∀ m ∈ s.mic, m.running = true →
      o = .started ∨ ∀ f ∈ CaptureFormat.ofDecodeType type, f = m.format) := by
  constructor
  · intro hns hc m hm hrun
    have hasked := h.asked hc ⟨m, hm, hrun⟩
    obtain ⟨m', hm', -, ho⟩ :=
      (s.capturing_setDecodeType o type).1 (hns.resolve_right fun hback => hback hasked)
    obtain rfl := Option.mem_unique hm hm'
    exact ho
  · intro hrestart
    cases hc : s.callback with
    | false => exact (h.setDecodeType type o).notStranded_of_silent hc
    | true =>
        refine hs.imp (fun ⟨m, hm, hrun⟩ => ?_) id
        exact (s.capturing_setDecodeType o type).2 ⟨m, hm, hrun, hrestart hc m hm hrun⟩

/-- One command, with the head unit's microphone not stranded before. -/
theorem Lent.notStranded_step_iff (h : s.Lent) (hmic : s.mic.isSome) (hs : s.NotStranded)
    {e : Event} (he : e.audioCommand.isSome) : (s.step e).NotStranded ↔ s.RestartSucceeds e := by
  cases e with
  | command c d restart starting =>
      have hother : c ≠ .inputConfig → s.RestartSucceeds (.command c d restart starting) :=
        fun hc => s.restartSucceeds_of_ne fun heq => hc (Option.some.inj heq)
      cases c with
      | inputConfig =>
          refine Iff.trans ?_ ((h.notStranded_setDecodeType_iff hs d restart).trans ?_)
          · exact Iff.rfl
          · simp [RestartSucceeds, Event.announcement]
      | phonecallStart =>
          refine iff_of_true (Lent.notStranded_startMic ?_ ?_ starting) (hother (by simp))
          · exact Lent.assume (s := { s with phoneCallActive := true }) { h with } 3 restart
          · rw [mic_assume]
            split_ifs <;> simpa using hmic
      | siriStart =>
          refine iff_of_true ((h.assume 5 restart).notStranded_startMic ?_ starting)
            (hother (by simp))
          rw [mic_assume]
          split_ifs <;> simpa using hmic
      | phonecallStop =>
          exact iff_of_true (Lent.notStranded_stopMic (s := { s with phoneCallActive := false })
            { h with } hmic) (hother (by simp))
      | siriStop =>
          refine iff_of_true ?_ (hother (by simp))
          simp only [State.step, handleMicCommand]
          split_ifs
          · exact hs
          · exact h.notStranded_stopMic hmic
      | mediaStart =>
          refine iff_of_true ?_ (hother (by simp))
          simp only [State.step, handleMicCommand]
          split_ifs
          · exact Lent.notStranded_stopMic (s := { s with phoneCallActive := false })
              { h with } hmic
          · exact hs
      | _ => exact iff_of_true hs (hother (by simp))
  | _ => simp [Event.audioCommand] at he

/-- **When the EcNc session is not left open with nobody capturing.**  Over every sequence
of audio commands with any outcomes of the starts, the capture runs or the head unit has
its microphone back after each INPUT_CONFIG, PHONECALL_START and SIRI_START, exactly if
every INPUT_CONFIG that changes the format of a running capture brings the capture back. -/
theorem notStranded_iff (callback : Bool) (es : List Event)
    (hes : ∀ e ∈ es, e.audioCommand.isSome) :
    Along step (fun s e => RequestsMic e → (s.step e).NotStranded) (start callback) es ↔
      Along step RestartSucceeds (start callback) es := by
  refine along_iff (I := fun s => s.Lent ∧ s.mic.isSome ∧ s.NotStranded)
    (fun s e h he => ?_) (fun s e h he hrestart => ?_)
    ⟨lent_start callback, rfl, .inr (by simp [start])⟩ (along_of_forall_mem hes _)
  · rw [h.1.notStranded_step_iff h.2.1 h.2.2 he]
    refine ⟨fun hreq => ?_, fun hrestart _ => hrestart⟩
    by_cases hr : RequestsMic e
    · exact hreq hr
    · exact s.restartSucceeds_of_ne fun heq => hr (.inl heq)
  · refine ⟨h.1.step e, ?_, (h.1.notStranded_step_iff h.2.1 h.2.2 he).2 hrestart⟩
    refine (mic_step_isSome s ?_).trans h.2.1
    rintro rfl
    simp [Event.audioCommand] at he

/-- A start that fails, a restart that succeeds and one whose format is there already. -/
theorem notStranded_iff_refused :
    Along step (fun s e => RequestsMic e → (s.step e).NotStranded) (start true)
      [.command .siriStart 0 .started .refused, .command .phonecallStart 0 .started .started,
        .command .inputConfig 6 .started .refused, .command .inputConfig 6 .refused .refused] :=
  (notStranded_iff true _ (by decide)).2 (by decide)

/-- The format is announced after the start of the capture, and the restart is refused. -/
theorem not_notStranded_restart :
    ¬ Along step (fun s e => RequestsMic e → (s.step e).NotStranded) (start true)
      [.command .phonecallStart 0 .started .started,
        .command .inputConfig 6 .refused .started] := by
  decide

end State
end MicCommands
end App
end Carlinkit
