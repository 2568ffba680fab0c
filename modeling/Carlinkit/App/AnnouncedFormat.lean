/-
# The format of the capture

The phone announces the format it wants with INPUT_CONFIG.  Until it does,
`handleMicCommand` guesses by the user of the microphone, decodeType 3 for a call and
5 for the assistant, and `inputConfigSeen` ends the guessing.

`inputConfigSeen` is set by every INPUT_CONFIG, though `setDecodeType` takes only a
format that is known and mono, and SIRI_START guesses 5 also in a call.  So the format
in force without a usable announcement is that of the last user before any announcement
(`Heard.Sound`), and `obeys_iff` says when that is the right one.
-/

import Carlinkit.App.MicCommands

namespace Carlinkit
namespace App
namespace MicCommands

open Protocol Machine

/-- What the commands so far said about the format. -/
structure Announcements where
  /-- The last announcement of a format that is known and mono. -/
  usable : Option CaptureFormat
  /-- There was an INPUT_CONFIG. -/
  any : Bool
  /-- The format of the last user that came before it. -/
  user : CaptureFormat
deriving DecidableEq, Repr

namespace Announcements

/-- Before any command. -/
def new : Announcements := ⟨none, false, .assistant⟩

/-- A command to start the capture for a user. -/
def start (a : Announcements) (user : CaptureFormat) : Announcements :=
  if a.any then a else { a with user := user }

/-- One command. -/
def hear (a : Announcements) : Event → Announcements
  | .command .inputConfig decodeType _ _ =>
      { a with usable := (CaptureFormat.ofDecodeType decodeType).or a.usable, any := true }
  | .command .phonecallStart _ _ _ => a.start .telephony
  | .command .siriStart _ _ _ => a.start .assistant
  | _ => a

end Announcements

/-- The session and what it heard. -/
abbrev Heard := State × Announcements

/-- The session hears the commands. -/
abbrev hear : Heard → Event → Heard := observed State.step Announcements.hear

/-- The `decodeType` that the capture should have. -/
def Heard.wanted (x : Heard) : BitVec 32 :=
  match x.2.usable with
  | some f => f.decodeType
  | none => if x.1.phoneCallActive then 3 else 5

/-- While the capture runs it has that `decodeType`. -/
def Heard.Obeys (x : Heard) : Prop :=
  ∀ m ∈ x.1.mic, m.running = true → m.format.decodeType = x.wanted

instance (x : Heard) : Decidable x.Obeys := inferInstanceAs (Decidable (∀ m ∈ x.1.mic, _))

/-- Before the first usable announcement a command that starts the capture is for the user
whose format is in force: the command's own user, unless an unusable announcement came
before it, and in a call the telephone. -/
def Heard.GuessesRight (x : Heard) (e : Event) : Prop :=
  x.2.usable = none →
    (e.audioCommand = some .phonecallStart → (x.2.hear e).user = .telephony) ∧
      (e.audioCommand = some .siriStart →
        (x.2.hear e).user = if x.1.phoneCallActive then .telephony else .assistant)

instance (x : Heard) (e : Event) : Decidable (x.GuessesRight e) :=
  inferInstanceAs (Decidable (_ → (_ → _) ∧ (_ → _)))

/-- The microphone has the usable announcement, and without one the format of the user that
came before any announcement. -/
structure Heard.Sound (x : Heard) : Prop where
  mic : x.1.mic.isSome
  seen : x.1.inputConfigSeen = x.2.any
  any : x.2.usable.isSome → x.2.any = true
  format : ∀ m ∈ x.1.mic, m.format = x.2.usable.getD x.2.user

variable {x : Heard}

/-- A step that announces nothing and changes no format. -/
theorem Heard.Sound.of_format (h : x.Sound) {s : State} {g : Microphone → Microphone}
    (hmic : s.mic = x.1.mic.map g) (hg : ∀ m ∈ x.1.mic, (g m).format = m.format)
    (hseen : s.inputConfigSeen = x.1.inputConfigSeen) : Heard.Sound (s, x.2) where
  mic := by simpa [hmic] using h.mic
  seen := hseen.trans h.seen
  any := h.any
  format m hm := by
    obtain ⟨m₀, hm₀, rfl⟩ := Option.map_eq_some_iff.1 (hmic.symm.trans hm)
    exact (hg m₀ hm₀).trans (h.format m₀ hm₀)

/-- What a command that starts the capture for `user` makes of the format. -/
theorem Heard.Sound.startMic (h : x.Sound) (user : CaptureFormat) (restart starting : Starting)
    {s : State} (hmic : s.mic = x.1.mic) (hseen : s.inputConfigSeen = x.1.inputConfigSeen) :
    Heard.Sound ((s.assume user.decodeType restart).startMic starting, x.2.start user) := by
  cases hany : x.2.any with
  | true =>
      have hnot : s.assume user.decodeType restart = s :=
        if_pos (hseen.trans (h.seen.trans hany))
      have hstart : x.2.start user = x.2 := if_pos hany
      rw [hnot, hstart]
      exact h.of_format (g := fun m => (m.start starting).2) (by simp [hmic])
        (fun m _ => Microphone.format_start starting m) (by simp [hseen])
  | false =>
      have hunseen : s.inputConfigSeen = false := hseen.trans (h.seen.trans hany)
      have hstart : x.2.start user = { x.2 with user := user } := if_neg (by simp [hany])
      have hnone : x.2.usable = none := by
        by_contra hsome
        simpa [hany] using h.any (Option.isSome_iff_ne_none.2 hsome)
      rw [hstart]
      refine ⟨?_, ?_, by simp [hnone], fun m hm => ?_⟩
      · simpa [State.mic_assume, hunseen, hmic] using h.mic
      · simp [hunseen, hany]
      · rw [State.mic_startMic, State.mic_assume, if_neg (by simp [hunseen])] at hm
        obtain ⟨m₁, hm₁, rfl⟩ := Option.map_eq_some_iff.1 hm
        obtain ⟨m₀, -, rfl⟩ := Option.map_eq_some_iff.1 hm₁
        rw [Microphone.format_start,
          Microphone.format_setDecodeType restart user.ofDecodeType_decodeType]
        simp [hnone]

/-- Every command keeps this, whatever comes of its starts. -/
theorem Heard.Sound.command (h : x.Sound) (c : AudioCommand) (d : BitVec 32)
    (restart starting : Starting) : (hear x (.command c d restart starting)).Sound := by
  have hstop : ∀ s : State, s.mic = x.1.mic → s.inputConfigSeen = x.1.inputConfigSeen →
      Heard.Sound (s.stopMic, x.2) := by
    intro s hmic hseen
    exact h.of_format (g := Microphone.stop) (hmic ▸ s.mic_stopMic) (fun _ _ => rfl)
      (s.frame_stopMic.2.1.trans hseen)
  cases c with
  | inputConfig =>
      refine ⟨(x.1.mic_handleMicCommand_isSome ..).trans h.mic, ?_, fun _ => rfl, fun m hm => ?_⟩
      · simp [observed, State.step, State.handleMicCommand, h.mic, Announcements.hear]
      · obtain ⟨m₀, hm₀, rfl⟩ := Option.map_eq_some_iff.1 hm
        cases hd : CaptureFormat.ofDecodeType d with
        | none =>
            rw [Microphone.setDecodeType_none restart hd]
            simpa [observed, Announcements.hear, hd] using h.format m₀ hm₀
        | some g =>
            rw [Microphone.format_setDecodeType restart hd]
            simp [observed, Announcements.hear, hd]
  | phonecallStart => exact h.startMic .telephony restart starting rfl rfl
  | siriStart => exact h.startMic .assistant restart starting rfl rfl
  | phonecallStop => exact hstop _ rfl rfl
  | siriStop =>
      simp only [observed, State.step, State.handleMicCommand]
      split_ifs
      · exact h
      · exact hstop _ rfl rfl
  | mediaStart =>
      simp only [observed, State.step, State.handleMicCommand]
      split_ifs
      · exact hstop _ rfl rfl
      · exact h
  | _ => exact h

/-- The capture that a command starts for `user` is in the right format when the format in
force is the right one. -/
theorem Heard.Sound.obeys_startMic_iff (h : x.Sound) (user : CaptureFormat) {s : State}
    (hmic : s.mic = x.1.mic) (hseen : s.inputConfigSeen = x.1.inputConfigSeen) :
    Heard.Obeys ((s.assume user.decodeType .started).startMic .started, x.2.start user) ↔
      (x.2.usable = none →
        (x.2.start user).user = if s.phoneCallActive then .telephony else .assistant) := by
  have hsound := h.startMic user .started .started hmic hseen
  obtain ⟨m, hm⟩ := Option.isSome_iff_exists.1 hsound.mic
  replace hm : ((s.assume user.decodeType .started).startMic .started).mic = some m := hm
  have hrun : m.running = true := by
    obtain ⟨m₀, -, rfl⟩ := Option.map_eq_some_iff.1 ((State.mic_startMic ..).symm.trans hm)
    simp [Microphone.start_started]
  have husable : (x.2.start user).usable = x.2.usable := by
    unfold Announcements.start
    split_ifs <;> rfl
  have hcall : ((s.assume user.decodeType .started).startMic .started).phoneCallActive =
      s.phoneCallActive := by simp
  have hformat := hsound.format m hm
  simp only [husable] at hformat
  simp only [Heard.Obeys, Heard.wanted, husable, hcall, hm, Option.mem_some_iff, forall_eq',
    hrun, true_imp_iff, hformat]
  cases x.2.usable with
  | some f => simp
  | none =>
      simp only [Option.getD_none, true_imp_iff]
      -- a format is its `decodeType`
      have hext : ∀ f : CaptureFormat, (x.2.start user).user.decodeType = f.decodeType ↔
          (x.2.start user).user = f := fun f => ⟨CaptureFormat.ext_decodeType, congrArg _⟩
      split_ifs
      · exact hext .telephony
      · exact hext .assistant

/-- A command whose starts succeed leaves the capture in the right format when it guesses
right. -/
theorem Heard.Sound.obeys_hear_iff (h : x.Sound) (hobeys : x.Obeys) {e : Event}
    (hcommand : e.audioCommand.isSome) (he : e.Succeeds) :
    (hear x e).Obeys ↔ x.GuessesRight e := by
  have hstop : ∀ s : State, Heard.Obeys (s.stopMic, x.2) := by
    intro s m hm hrun
    obtain ⟨m₀, -, rfl⟩ := Option.map_eq_some_iff.1 (s.mic_stopMic.symm.trans hm)
    exact absurd hrun (by simp [Microphone.stop])
  cases e with
  | command c d restart starting =>
      obtain ⟨rfl, rfl⟩ := he
      cases c with
      | phonecallStart =>
          refine (h.obeys_startMic_iff .telephony (s := { x.1 with phoneCallActive := true }) rfl
            rfl).trans ?_
          simp [GuessesRight, Event.audioCommand, Announcements.hear]
      | siriStart =>
          refine (h.obeys_startMic_iff .assistant rfl rfl).trans ?_
          simp [GuessesRight, Event.audioCommand, Announcements.hear]
      | inputConfig =>
          refine iff_of_true (fun m hm hrun => ?_) (by simp [GuessesRight, Event.audioCommand])
          obtain ⟨m₀, hm₀, rfl⟩ := Option.map_eq_some_iff.1 hm
          cases hd : CaptureFormat.ofDecodeType d with
          | none =>
              rw [Microphone.setDecodeType_none _ hd] at hrun ⊢
              simpa [wanted, observed, Announcements.hear, hd, State.step, State.handleMicCommand,
                State.setDecodeType] using hobeys m₀ hm₀ hrun
          | some g =>
              rw [Microphone.format_setDecodeType _ hd]
              simp [wanted, observed, Announcements.hear, hd]
      | phonecallStop => exact iff_of_true (hstop _) (by simp [GuessesRight, Event.audioCommand])
      | siriStop =>
          refine iff_of_true ?_ (by simp [GuessesRight, Event.audioCommand])
          simp only [observed, State.step, State.handleMicCommand]
          split_ifs
          · exact hobeys
          · exact hstop _
      | mediaStart =>
          refine iff_of_true ?_ (by simp [GuessesRight, Event.audioCommand])
          simp only [observed, State.step, State.handleMicCommand]
          split_ifs
          · exact hstop _
          · exact hobeys
      | _ => exact iff_of_true hobeys (by simp [GuessesRight, Event.audioCommand])
  | _ => simp [Event.audioCommand] at hcommand

/-- The session after `start`, before any announcement. -/
def Heard.start (callback : Bool) : Heard := (MicCommands.start callback, .new)

theorem sound_start (callback : Bool) : (Heard.start callback).Sound where
  mic := rfl
  seen := rfl
  any h := absurd h (by simp [Heard.start, Announcements.new])
  format m hm := by
    obtain rfl := Option.some.inj hm
    rfl

/-- **When the capture has the format it should have.**  Over every sequence of audio
commands whose starts succeed, the capture runs in the announced format, or in the format
of its user without an announcement, exactly as long as each command that starts it comes
for the user whose format is in force (`Heard.GuessesRight`). -/
theorem obeys_iff (callback : Bool) (es : List Event)
    (hes : ∀ e ∈ es, e.audioCommand.isSome ∧ e.Succeeds) :
    Along hear (fun x e => (hear x e).Obeys) (.start callback) es ↔
      Along hear Heard.GuessesRight (.start callback) es := by
  refine along_iff (I := fun x => x.Sound ∧ x.Obeys)
    (fun x e h he => h.1.obeys_hear_iff h.2 he.1 he.2) (fun x e h he hguess => ?_) ?_
    (along_of_forall_mem hes _)
  · refine ⟨?_, (h.1.obeys_hear_iff h.2 he.1 he.2).2 hguess⟩
    cases e with
    | command c d restart starting => exact h.1.command c d restart starting
    | _ => simp [Event.audioCommand] at he
  · refine ⟨sound_start callback, fun m hm hrun => ?_⟩
    obtain rfl := Option.some.inj hm
    simp [Microphone.new] at hrun

/-- An announcement between the start of the capture and its end, and an assistant in
the call. -/
theorem obeys_iff_announced :
    Along hear (fun x e => (hear x e).Obeys) (.start true)
      [.command .phonecallStart 0 .started .started,
        .command .inputConfig 6 .started .started,
        .command .siriStart 0 .started .started,
        .command .siriStop 0 .started .started,
        .command .inputConfig 4 .started .started,
        .command .phonecallStop 0 .started .started] :=
  (obeys_iff true _ (by decide)).2 (by decide)

/-- A stereo announcement ends the guessing, and the call after it is captured at
16000 Hz; so is the call in which the assistant is opened. -/
theorem not_obeys_unusable :
    ¬ Along hear (fun x e => (hear x e).Obeys) (.start true)
        [.command .inputConfig 4 .started .started,
          .command .phonecallStart 0 .started .started] ∧
      ¬ Along hear (fun x e => (hear x e).Obeys) (.start true)
        [.command .phonecallStart 0 .started .started,
          .command .siriStart 0 .started .started] := by
  decide

end MicCommands
end App
end Carlinkit
