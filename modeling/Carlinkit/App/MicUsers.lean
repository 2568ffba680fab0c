/-
# The users of the microphone

A phone call and the assistant share one microphone.  The session keeps one flag for
the two, `phoneCallActive`, and three events take the microphone away: the end of the
call, the end of the assistant, and MEDIA_START in a media format, which says that
playback resumed and so that a PHONECALL_STOP was lost.

`served_iff` says when each user has the capture until its own end, and
`callOver_iff` when the flag is down after playback resumed.
-/

import Carlinkit.App.MicCommands

namespace Carlinkit
namespace App
namespace MicCommands

open Protocol Machine

/-! ### Who has the microphone -/

/-- The users that came and have not gone. -/
structure Users where
  call : Bool
  assistant : Bool
deriving DecidableEq, Repr

/-- The users as the events tell them. -/
def Users.see (u : Users) (e : Event) : Users :=
  if e.resumesMedia then ⟨false, false⟩
  else
    match e with
    | .command .phonecallStart _ _ _ => { u with call := true }
    | .command .phonecallStop _ _ _ => { u with call := false }
    | .command .siriStart _ _ _ => { u with assistant := true }
    | .command .siriStop _ _ _ => { u with assistant := false }
    | .phoneDisconnected => ⟨false, false⟩
    | _ => u

/-- The session and the users. -/
abbrev Shared := State × Users

/-- The session serves the users. -/
abbrev serve : Shared → Event → Shared := observed State.step Users.see

/-- The session after `start`. -/
def Shared.start (callback : Bool) : Shared := (MicCommands.start callback, ⟨false, false⟩)

/-- A user has the capture. -/
def Shared.Served (x : Shared) : Prop := x.2.call ∨ x.2.assistant → x.1.Capturing

instance (x : Shared) : Decidable x.Served := inferInstanceAs (Decidable (_ → _))

/-- A call ends when no assistant is open. -/
def Shared.EndsAlone (x : Shared) (e : Event) : Prop :=
  e.audioCommand = some .phonecallStop → x.2.assistant = false

instance (x : Shared) (e : Event) : Decidable (x.EndsAlone e) :=
  inferInstanceAs (Decidable (_ → _))

/-- A command whose starts succeed, or the phone comes or goes. -/
def Event.Lasts (e : Event) : Prop := e.Succeeds ∧ e ≠ .captureEnds ∧ e ≠ .stop

instance (e : Event) : Decidable e.Lasts := inferInstanceAs (Decidable (_ ∧ _ ∧ _))

/-- The flag of the session knows of every call. -/
structure Shared.Kept (x : Shared) : Prop where
  mic : x.1.mic.isSome
  flag : x.2.call = true → x.1.phoneCallActive = true
  served : x.Served

variable {x : Shared}

/-- The flag does not go down before the call it stands for. -/
theorem Shared.Kept.flag_serve (h : x.Kept) {e : Event} (he : e.Lasts)
    (hcall : (serve x e).2.call = true) : (serve x e).1.phoneCallActive = true := by
  cases e with
  | command c d restart starting =>
      cases c with
      | phonecallStart => simp [observed, State.step, State.handleMicCommand]
      | phonecallStop => simp [observed, Users.see, Event.resumesMedia] at hcall
      | siriStop =>
          have hflag := h.flag hcall
          simp [observed, State.step, State.handleMicCommand, hflag]
      | mediaStart =>
          cases hmedia : isMediaFormat d with
          | true => simp [observed, Users.see, Event.resumesMedia, hmedia] at hcall
          | false =>
              simp only [observed, Users.see, Event.resumesMedia, hmedia] at hcall
              simpa [observed, State.step, State.handleMicCommand, hmedia] using h.flag hcall
      | siriStart => simpa [observed, State.step, State.handleMicCommand] using h.flag hcall
      | _ => exact h.flag hcall
  | phoneConnected => exact h.flag hcall
  | phoneDisconnected => simp [observed, Users.see, Event.resumesMedia] at hcall
  | captureEnds => exact absurd rfl he.2.1
  | stop => exact absurd rfl he.2.2

/-- **One event.**  The users that are left have the capture, unless the end of a call
takes it from an assistant. -/
theorem Shared.Kept.served_serve_iff (h : x.Kept) {e : Event} (he : e.Lasts) :
    (serve x e).Served ↔ x.EndsAlone e := by
  obtain ⟨m, hm⟩ := Option.isSome_iff_exists.1 h.mic
  cases e with
  | command c d restart starting =>
      obtain ⟨rfl, rfl⟩ := he.1
      cases c with
      | phonecallStart | siriStart =>
          refine iff_of_true (fun _ => ?_) (by simp [EndsAlone, Event.audioCommand])
          refine (State.capturing_startMic _ _).2 ?_
          rw [State.mic_assume]
          split_ifs <;> simp [hm]
      | phonecallStop =>
          have hnot := State.not_capturing_stopMic { x.1 with phoneCallActive := false }
          simp [Served, EndsAlone, Event.audioCommand, observed, State.step,
            State.handleMicCommand, hnot, Users.see, Event.resumesMedia]
      | siriStop =>
          refine iff_of_true (fun hu => ?_) (by simp [EndsAlone, Event.audioCommand])
          -- only a call can be left, and its flag keeps the capture
          have hcall : x.2.call = true := by
            simpa [observed, Users.see, Event.resumesMedia] using hu
          simpa [observed, State.step, State.handleMicCommand, h.flag hcall]
            using h.served (.inl hcall)
      | inputConfig =>
          refine iff_of_true (fun hu => ?_) (by simp [EndsAlone, Event.audioCommand])
          obtain ⟨m, hm, hrun⟩ := h.served hu
          exact (State.capturing_setDecodeType _ _ _).2 ⟨m, hm, hrun, .inl rfl⟩
      | mediaStart =>
          refine iff_of_true (fun hu => ?_) (by simp [EndsAlone, Event.audioCommand])
          cases hmedia : isMediaFormat d with
          | true => simp [observed, Users.see, Event.resumesMedia, hmedia] at hu
          | false =>
              simp only [observed, Users.see, Event.resumesMedia, hmedia] at hu
              simpa [observed, State.step, State.handleMicCommand, hmedia] using h.served hu
      | _ => exact iff_of_true h.served (by simp [EndsAlone, Event.audioCommand])
  | phoneConnected => exact iff_of_true h.served (by simp [EndsAlone, Event.audioCommand])
  | phoneDisconnected =>
      exact iff_of_true (by simp [Served, observed, Users.see, Event.resumesMedia])
        (by simp [EndsAlone, Event.audioCommand])
  | captureEnds => exact absurd rfl he.2.1
  | stop => exact absurd rfl he.2.2

/-- **When each user keeps the capture.**  Over every sequence of audio commands and of
comings and goings of the phone, with every start of the capture succeeding, the capture
runs as long as a call or an assistant is open, exactly if no call ends with an assistant
open. -/
theorem served_iff (callback : Bool) (es : List Event) (hes : ∀ e ∈ es, e.Lasts) :
    Along serve (fun x e => (serve x e).Served) (.start callback) es ↔
      Along serve Shared.EndsAlone (.start callback) es := by
  refine along_iff (I := Shared.Kept) (fun x e h he => h.served_serve_iff he)
    (fun x e h he hends => ?_) ⟨rfl, by simp [Shared.start], by simp [Shared.start, Shared.Served]⟩
    (along_of_forall_mem hes _)
  exact ⟨(State.mic_step_isSome x.1 he.2.2).trans h.mic, h.flag_serve he,
    (h.served_serve_iff he).2 hends⟩

/-- An assistant in a call, and after it. -/
theorem served_iff_nested :
    Along serve (fun x e => (serve x e).Served) (.start true)
      [.command .phonecallStart 0 .started .started,
        .command .siriStart 0 .started .started,
        .command .siriStop 0 .started .started,
        .command .phonecallStop 0 .started .started,
        .command .siriStart 0 .started .started] :=
  (served_iff true _ (by decide)).2 (by decide)

/-- The end of the call takes the microphone from the assistant that was opened in it. -/
theorem not_served_callEnds :
    ¬ Along serve (fun x e => (serve x e).Served) (.start true)
      [.command .phonecallStart 0 .started .started,
        .command .siriStart 0 .started .started,
        .command .phonecallStop 0 .started .started] := by
  decide

/-! ### The flag after playback resumed -/

/-- Whether playback resumed since the last PHONECALL_START. -/
def resume (resumed : Bool) (e : Event) : Bool :=
  if e.resumesMedia then true
  else if e.audioCommand = some .phonecallStart then false
  else resumed

/-- The session after playback resumed, or not. -/
abbrev Playing := State × Bool

/-- The session with an eye on playback. -/
abbrev play : Playing → Event → Playing := observed State.step resume

/-- No call is left over after playback resumed. -/
def Playing.CallOver (x : Playing) : Prop := x.2 = true → x.1.phoneCallActive = false

instance (x : Playing) : Decidable x.CallOver := inferInstanceAs (Decidable (_ → _))

/-- Playback resumes while the capture runs, or when no call is left over. -/
def Playing.FindsCapture (x : Playing) (e : Event) : Prop :=
  e.resumesMedia = true → x.1.Capturing ∨ x.1.phoneCallActive = false

instance (x : Playing) (e : Event) : Decidable (x.FindsCapture e) :=
  inferInstanceAs (Decidable (_ → _ ∨ _))

/-- One event: nothing but a PHONECALL_START puts the flag up, and playback takes it down
where it finds the capture running. -/
theorem Playing.CallOver.play_iff {x : Playing} (h : x.CallOver) (e : Event) :
    (play x e).CallOver ↔ x.FindsCapture e := by
  cases e with
  | command c d restart starting =>
      cases c with
      | mediaStart =>
          cases hmedia : isMediaFormat d with
          | true =>
              by_cases hcap : x.1.Capturing <;>
                simp [CallOver, FindsCapture, observed, resume, Event.resumesMedia, State.step,
                  State.handleMicCommand, hmedia, hcap]
          | false =>
              refine iff_of_true ?_ (by simp [FindsCapture, Event.resumesMedia, hmedia])
              simpa [CallOver, observed, resume, Event.resumesMedia, Event.audioCommand,
                State.step, State.handleMicCommand, hmedia] using h
      | phonecallStart =>
          exact iff_of_true (by simp [CallOver, observed, resume, Event.resumesMedia,
            Event.audioCommand]) (by simp [FindsCapture, Event.resumesMedia])
      | siriStop =>
          refine iff_of_true (fun hresumed => ?_) (by simp [FindsCapture, Event.resumesMedia])
          have hflag := h hresumed
          simp [observed, State.step, State.handleMicCommand, hflag]
      | siriStart =>
          exact iff_of_true (fun hresumed => by
            simpa [observed, State.step, State.handleMicCommand] using h hresumed)
            (by simp [FindsCapture, Event.resumesMedia])
      | phonecallStop =>
          exact iff_of_true (fun _ => by simp [observed, State.step, State.handleMicCommand])
            (by simp [FindsCapture, Event.resumesMedia])
      | _ => exact iff_of_true h (by simp [FindsCapture, Event.resumesMedia])
  | phoneConnected | captureEnds => exact iff_of_true h (by simp [FindsCapture, Event.resumesMedia])
  | phoneDisconnected | stop =>
      exact iff_of_true (fun _ => rfl) (by simp [FindsCapture, Event.resumesMedia])

/-- **When playback ends a call that was never ended.**  Over every sequence of audio
commands with any outcomes of their starts, of comings and goings of the phone, of captures
that end by themselves and of `stop`, the flag is down from a MEDIA_START in a media format
to the next PHONECALL_START, exactly if every such MEDIA_START finds the capture running or
the flag down. -/
theorem callOver_iff (callback : Bool) (es : List Event) :
    Along play (fun x e => (play x e).CallOver) (start callback, false) es ↔
      Along play Playing.FindsCapture (start callback, false) es :=
  along_step_iff (I := Playing.CallOver) (fun _ e h => h.play_iff e)
    (by simp [Playing.CallOver]) es

/-- The capture of the call ends by itself, and the flag stays up. -/
theorem not_callOver_captureEnds :
    ¬ Along play (fun x e => (play x e).CallOver) (start true, false)
      [.command .phonecallStart 0 .started .started, .captureEnds,
        .command .mediaStart 4 .started .started] := by
  decide

end MicCommands
end App
end Carlinkit
