/-
# Night mode follows the headlights

Two threads tell the dongle.  When a session has been opened the main thread runs
`applyCurrentNightMode`, because "relying on the callback alone would leave the screen in
day mode": it asks the head unit for its state and sends it, in two steps.  The Binder
thread runs `onDayNightUpdate` for each change that the head unit reports, and sends that.
A change may be reported and sent between the two steps of the main thread, whose command
is the last one then, and the one for the state before.

`nightMode_iff` says that this is all that can go wrong: at each end of `applyCurrentNightMode`
and of the callbacks the last command is the one for the latest report, exactly when the
main thread never sends something else than the latest report after every callback has sent.
`settled_of_apart` is what one lock around both would give.
-/

import Carlinkit.Machine.Run

namespace Carlinkit
namespace App
namespace NightMode

open Machine

/-- `CarlinkitProtocol.Command.ENABLE_NIGHT_MODE`. -/
def enableNightMode : ℕ := 16

/-- `CarlinkitProtocol.Command.DISABLE_NIGHT_MODE`. -/
def disableNightMode : ℕ := 17

/-- The command of `setNightMode`. -/
def nightCommand (isNight : Bool) : ℕ := if isNight then enableNightMode else disableNightMode

theorem nightCommand_injective {a b : Bool} (h : nightCommand a = nightCommand b) : a = b := by
  cases a <;> cases b <;> first | rfl | exact absurd h (by decide)

/-- Where the main thread is in `applyCurrentNightMode` and in `isNight`, which it calls. -/
inductive Main
  | idle
  /-- `getAllState`. -/
  | ask
  /-- `isNight_ = isNight`, with the answer. -/
  | store (night : Bool)
  /-- `return isNight_`, with no answer. -/
  | fallback
  /-- `setNightMode`. -/
  | send (night : Bool)
deriving DecidableEq, Repr

/-- Where the Binder thread is in `onChangeState`. -/
inductive Binder
  | idle
  /-- `isNight_ = isNight`. -/
  | store (night : Bool)
  /-- `onDayNightUpdate`. -/
  | send (night : Bool)
deriving DecidableEq, Repr

/-- The head unit, the two threads, and what is between them. -/
structure State where
  /-- The `dayNightState` of the head unit. -/
  current : Bool
  /-- The latest state that it reported, to a callback or as an answer. -/
  reported : Option Bool
  /-- The calls of `onChangeState` that the Binder thread has not taken yet. -/
  callbacks : List Bool
  /-- `isNight_`. -/
  isNight : Option Bool
  main : Main
  binder : Binder
  /-- There is a session. -/
  session : Bool
  /-- `applyCurrentNightMode` is over. -/
  applied : Bool
  /-- The night-mode commands in the queue of the session. -/
  commands : List ℕ
deriving DecidableEq, Repr

/-- What happens next. -/
inductive Event
  /-- The headlights are switched, and the head unit reports it. -/
  | change (night : Bool)
  /-- `openDevice` has a new session, and calls `applyCurrentNightMode`. -/
  | openDevice
  /-- The session is closed. -/
  | close
  /-- The main thread goes on; `answers` says whether `getAllState` gives a state, and
  `queued` whether the queue takes a command. -/
  | main (answers queued : Bool)
  /-- The Binder thread goes on. -/
  | binder (queued : Bool)
deriving DecidableEq, Repr

namespace State

/-- Before anything was heard of the head unit. -/
def created (current : Bool) : State :=
  ⟨current, none, [], none, .idle, .idle, false, false, []⟩

/-- The queue after `setNightMode` of the session, if there is one. -/
def setNightMode (s : State) (night queued : Bool) : List ℕ :=
  if s.session && queued then s.commands ++ [nightCommand night] else s.commands

/-- A step of `applyCurrentNightMode`. -/
def mainStep (s : State) (answers queued : Bool) : State :=
  match s.main with
  | .idle => s
  | .ask =>
      if answers then { s with reported := some s.current, main := .store s.current }
      else { s with main := .fallback }
  | .store night => { s with isNight := some night, main := .send night }
  | .fallback =>
      match s.isNight with
      | none => { s with main := .idle, applied := true }
      | some night => { s with main := .send night }
  | .send night =>
      { s with commands := s.setNightMode night queued, main := .idle, applied := true }

/-- A step of `onChangeState`. -/
def binderStep (s : State) (queued : Bool) : State :=
  match s.binder with
  | .idle =>
      match s.callbacks with
      | [] => s
      | night :: rest => { s with callbacks := rest, binder := .store night }
  | .store night => { s with isNight := some night, binder := .send night }
  | .send night => { s with commands := s.setNightMode night queued, binder := .idle }

/-- One step. -/
def step (s : State) : Event → State
  | .change night =>
      { s with current := night, reported := some night, callbacks := s.callbacks ++ [night] }
  | .openDevice =>
      if s.main = .idle then
        { s with main := .ask, session := true, applied := false, commands := [] }
      else s
  | .close => if s.main = .idle then { s with session := false } else s
  | .main answers queued => s.mainStep answers queued
  | .binder queued => s.binderStep queued

end State

/-- The commands are accepted. -/
def Event.Accepted : Event → Prop
  | .main _ queued | .binder queued => queued = true
  | _ => True

/-- The state that the main thread has to send. -/
def Main.held : Main → Option Bool
  | .store night | .send night => some night
  | _ => none

/-- The state that the Binder thread has to send. -/
def Binder.held : Binder → Option Bool
  | .store night | .send night => some night
  | _ => none

namespace State

/-- The reports that the Binder thread has to send, the oldest first. -/
def outstanding (s : State) : List Bool := s.binder.held.toList ++ s.callbacks

/-- Both threads have finished, in a session. -/
def Finished (s : State) : Prop :=
  s.session = true ∧ s.applied = true ∧ s.main = .idle ∧ s.outstanding = []

/-- **The last command is the one for the latest report**, once both have finished. -/
def Settled (s : State) : Prop :=
  s.Finished → s.commands.getLast? = s.reported.map nightCommand

/-- The main thread does not send something else than the latest report after every callback
has sent. -/
def Keeps (s : State) : Event → Prop
  | .main .. => ∀ night, s.main = .send night → s.outstanding = [] → s.reported = some night
  | _ => True

instance : ∀ e : Event, Decidable e.Accepted
  | .main .. | .binder _ => inferInstanceAs (Decidable (_ = _))
  | .change _ | .openDevice | .close => .isTrue trivial

variable {s : State}

/-! ### One step, by where the thread is -/

section Steps

variable {night : Bool} {rest : List Bool}

theorem mainStep_answer (h : s.main = .ask) (queued : Bool) : s.mainStep true queued =
    { s with reported := some s.current, main := .store s.current } := by
  simp [mainStep, h]

theorem mainStep_noAnswer (h : s.main = .ask) (queued : Bool) :
    s.mainStep false queued = { s with main := .fallback } := by
  simp [mainStep, h]

theorem mainStep_store (h : s.main = .store night) (answers queued : Bool) :
    s.mainStep answers queued = { s with isNight := some night, main := .send night } := by
  simp [mainStep, h]

theorem mainStep_nothing (h : s.main = .fallback) (hnight : s.isNight = none)
    (answers queued : Bool) :
    s.mainStep answers queued = { s with main := .idle, applied := true } := by
  simp [mainStep, h, hnight]

theorem mainStep_kept (h : s.main = .fallback) (hnight : s.isNight = some night)
    (answers queued : Bool) : s.mainStep answers queued = { s with main := .send night } := by
  simp [mainStep, h, hnight]

theorem mainStep_send (h : s.main = .send night) (answers queued : Bool) :
    s.mainStep answers queued =
      { s with commands := s.setNightMode night queued, main := .idle, applied := true } := by
  simp [mainStep, h]

theorem binderStep_take (h : s.binder = .idle) (hcalls : s.callbacks = night :: rest)
    (queued : Bool) :
    s.binderStep queued = { s with callbacks := rest, binder := .store night } := by
  simp [binderStep, h, hcalls]

theorem binderStep_store (h : s.binder = .store night) (queued : Bool) :
    s.binderStep queued = { s with isNight := some night, binder := .send night } := by
  simp [binderStep, h]

theorem binderStep_send (h : s.binder = .send night) (queued : Bool) : s.binderStep queued =
    { s with commands := s.setNightMode night queued, binder := .idle } := by
  simp [binderStep, h]

end Steps

/-! ### What is known of the reports -/

/-- What is known of the reports. -/
structure Told (s : State) : Prop where
  silent : s.reported = none →
    s.isNight = none ∧ s.outstanding = [] ∧ s.main.held = none ∧ s.commands = []
  current : ∀ night, s.reported = some night → s.current = night
  latest : ∀ night, s.outstanding.getLast? = some night → s.reported = some night
  cache : s.isNight = none → s.outstanding = [] → s.main.held = none → s.reported = none
  stored : ∀ night, s.main = .send night ∨ s.binder = .send night → s.isNight ≠ none
  settled : s.session = true → s.applied = true → s.outstanding = [] → s.main.held = none →
    s.commands.getLast? = s.reported.map nightCommand

theorem told_created (current : Bool) : (created current).Told where
  silent _ := ⟨rfl, rfl, rfl, rfl⟩
  current _ h := nomatch h
  latest _ h := nomatch h
  cache _ _ _ := rfl
  stored _ h := absurd h (by simp [created])
  settled h := nomatch h

/-- A change is reported behind the others. -/
theorem Told.change (h : s.Told) (night : Bool) : (s.step (.change night)).Told where
  silent hnone := nomatch hnone
  current _ hsome := Option.some.inj hsome
  latest b hlast := by
    have hout : (s.step (.change night)).outstanding = s.outstanding ++ [night] := by
      simp [step, outstanding]
    rw [hout, List.getLast?_concat] at hlast
    exact hlast
  cache _ hout := by simp [step, outstanding] at hout
  stored := h.stored
  settled _ _ hout := by simp [step, outstanding] at hout

theorem Told.openDevice (h : s.Told) : (s.step .openDevice).Told := by
  unfold step
  split_ifs with hmain
  · refine ⟨fun hnone => ?_, h.current, h.latest, fun hcache hout _ => ?_,
      fun night hsend => h.stored night (.inr (by simpa using hsend)), ?_⟩
    · obtain ⟨hcache, hout, -⟩ := h.silent hnone
      exact ⟨hcache, hout, rfl, rfl⟩
    · exact h.cache hcache hout (by rw [hmain]; rfl)
    · exact fun _ happlied => nomatch happlied
  · exact h

theorem Told.close (h : s.Told) : (s.step .close).Told := by
  unfold step
  split_ifs
  · exact ⟨h.silent, h.current, h.latest, h.cache, h.stored, fun hsession => nomatch hsession⟩
  · exact h

/-- The head unit is asked. -/
theorem Told.main_ask (h : s.Told) (hmain : s.main = .ask) (answers queued : Bool) :
    (s.mainStep answers queued).Told := by
  have hheld : s.main.held = none := by rw [hmain]; rfl
  cases answers with
  | true =>
      rw [mainStep_answer hmain]
      refine ⟨fun hnone => (nomatch hnone), fun _ hsome => Option.some.inj hsome,
        fun night hlast => ?_, fun _ _ hnone => (nomatch hnone),
        fun night hsend => h.stored night (.inr (by simpa using hsend)),
        fun _ _ _ hnone => (nomatch hnone)⟩
      exact congrArg some (h.current night (h.latest night hlast))
  | false =>
      rw [mainStep_noAnswer hmain]
      refine ⟨fun hnone => ?_, h.current, h.latest, fun hcache hout _ => h.cache hcache hout hheld,
        fun night hsend => h.stored night (.inr (by simpa using hsend)),
        fun hsession happlied hout _ => h.settled hsession happlied hout hheld⟩
      obtain ⟨hcache, hout, -, hcommands⟩ := h.silent hnone
      exact ⟨hcache, hout, rfl, hcommands⟩

/-- `isNight` keeps the answer. -/
theorem Told.main_store (h : s.Told) {night : Bool} (hmain : s.main = .store night)
    (answers queued : Bool) : (s.mainStep answers queued).Told := by
  rw [mainStep_store hmain]
  refine ⟨fun hnone => ?_, h.current, h.latest, fun hcache => (nomatch hcache),
    fun _ _ hcache => (nomatch hcache), fun _ _ _ hnone => (nomatch hnone)⟩
  have hheld := (h.silent hnone).2.2.1
  rw [hmain] at hheld
  exact (nomatch hheld)

/-- `isNight` gives what it kept. -/
theorem Told.main_fallback (h : s.Told) (hmain : s.main = .fallback) (answers queued : Bool) :
    (s.mainStep answers queued).Told := by
  have hheld : s.main.held = none := by rw [hmain]; rfl
  by_cases hnight : s.isNight = none
  · rw [mainStep_nothing hmain hnight]
    refine ⟨fun hnone => ?_, h.current, h.latest, fun _ hout _ => h.cache hnight hout hheld,
      fun night hsend => h.stored night (.inr (by simpa using hsend)), fun _ _ hout _ => ?_⟩
    · obtain ⟨hcache, hout, -, hcommands⟩ := h.silent hnone
      exact ⟨hcache, hout, rfl, hcommands⟩
    · have hnone : s.reported = none := h.cache hnight hout hheld
      show s.commands.getLast? = s.reported.map nightCommand
      rw [(h.silent hnone).2.2.2, hnone]
      rfl
  · obtain ⟨night, hsome⟩ := Option.ne_none_iff_exists'.1 hnight
    rw [mainStep_kept hmain hsome]
    exact ⟨fun hnone => absurd (h.silent hnone).1 hnight, h.current, h.latest,
      fun hcache => absurd hcache hnight, fun _ _ => hnight, fun _ _ _ hnone => (nomatch hnone)⟩

/-- The command that is sent is the last one. -/
theorem getLast?_setNightMode (hsession : s.session = true) (night : Bool) :
    (s.setNightMode night true).getLast? = some (nightCommand night) := by
  simp [setNightMode, hsession]

/-- `applyCurrentNightMode` sends the latest report, or a callback sends after it. -/
theorem Told.main_send (h : s.Told) {night : Bool} (hmain : s.main = .send night)
    (hkeeps : s.outstanding = [] → s.reported = some night) (answers : Bool) :
    (s.mainStep answers true).Told := by
  have hhold : s.main.held ≠ none := by rw [hmain]; exact Option.some_ne_none _
  have hstored : s.isNight ≠ none := h.stored night (.inl hmain)
  rw [mainStep_send hmain]
  refine ⟨fun hnone => absurd (h.silent hnone).2.2.1 hhold, h.current, h.latest,
    fun hcache => absurd hcache hstored,
    fun night hsend => h.stored night (.inr (by simpa using hsend)),
    fun hsession _ hout _ => ?_⟩
  show (s.setNightMode night true).getLast? = s.reported.map nightCommand
  rw [getLast?_setNightMode (s := s) hsession, hkeeps hout]
  rfl

/-- **One step of the main thread.** -/
theorem Told.mainStep (h : s.Told) (answers : Bool) (hkeeps : s.Keeps (.main answers true)) :
    (s.mainStep answers true).Told := by
  cases hmain : s.main with
  | idle => simpa [State.mainStep, hmain] using h
  | ask => exact h.main_ask hmain answers true
  | store night => exact h.main_store hmain answers true
  | fallback => exact h.main_fallback hmain answers true
  | send night => exact h.main_send hmain (hkeeps night hmain) answers

/-- The Binder thread takes the oldest call. -/
theorem Told.binder_take (h : s.Told) {night : Bool} {rest : List Bool}
    (hbinder : s.binder = .idle) (hcalls : s.callbacks = night :: rest) (queued : Bool) :
    (s.binderStep queued).Told := by
  have hstep := binderStep_take hbinder hcalls queued
  have hout : (s.binderStep queued).outstanding = s.outstanding := by
    simp [hstep, outstanding, hbinder, hcalls, Binder.held]
  rw [hstep] at hout ⊢
  refine ⟨fun hnone => ?_, h.current, ?_, ?_, fun night hsend => ?_, ?_⟩
  · rw [hout]
    exact h.silent hnone
  · rw [hout]
    exact h.latest
  · rw [hout]
    exact h.cache
  · exact h.stored night (.inl (by simpa using hsend))
  · rw [hout]
    exact h.settled

/-- `onChangeState` keeps the state. -/
theorem Told.binder_store (h : s.Told) {night : Bool} (hbinder : s.binder = .store night)
    (queued : Bool) : (s.binderStep queued).Told := by
  have hstep := binderStep_store hbinder queued
  have hout : (s.binderStep queued).outstanding = s.outstanding := by
    simp [hstep, outstanding, hbinder, Binder.held]
  have hne : s.outstanding ≠ [] := by simp [outstanding, hbinder, Binder.held]
  rw [hstep] at hout ⊢
  refine ⟨fun hnone => absurd (h.silent hnone).2.1 hne, h.current, ?_,
    fun hcache => (nomatch hcache), fun _ _ hcache => (nomatch hcache), fun _ _ hempty => ?_⟩
  · rw [hout]
    exact h.latest
  · rw [hout] at hempty
    exact absurd hempty hne

/-- `onDayNightUpdate` sends, and what comes last is the latest report. -/
theorem Told.binder_send (h : s.Told) {night : Bool} (hbinder : s.binder = .send night) :
    (s.binderStep true).Told := by
  have hstep := binderStep_send hbinder true
  have hout : s.outstanding = night :: s.callbacks := by
    simp [outstanding, hbinder, Binder.held]
  have hrest : (s.binderStep true).outstanding = s.callbacks := by
    simp [hstep, outstanding, Binder.held]
  have hstored : s.isNight ≠ none := h.stored night (.inr hbinder)
  rw [hstep] at hrest ⊢
  refine ⟨fun hnone => ?_, h.current, fun b hlast => ?_, fun hcache => absurd hcache hstored,
    fun _ _ => hstored, fun hsession _ hempty _ => ?_⟩
  · have hempty := (h.silent hnone).2.1
    rw [hout] at hempty
    exact (nomatch hempty)
  · rw [hrest] at hlast
    refine h.latest b ?_
    rw [hout, List.getLast?_cons, hlast]
    rfl
  · rw [hrest] at hempty
    have hlatest : s.reported = some night := h.latest night (by rw [hout, hempty]; rfl)
    show (s.setNightMode night true).getLast? = s.reported.map nightCommand
    rw [getLast?_setNightMode (s := s) hsession, hlatest]
    rfl

/-- **One step of the Binder thread.** -/
theorem Told.binderStep (h : s.Told) : (s.binderStep true).Told := by
  cases hbinder : s.binder with
  | idle =>
      cases hcalls : s.callbacks with
      | nil => simpa [State.binderStep, hbinder, hcalls] using h
      | cons night rest => exact h.binder_take hbinder hcalls true
  | store night => exact h.binder_store hbinder true
  | send night => exact h.binder_send hbinder

/-- **One step.** -/
theorem Told.step (h : s.Told) {e : Event} (hsent : e.Accepted) (hkeeps : s.Keeps e) :
    (s.step e).Told := by
  cases e with
  | change night => exact h.change night
  | openDevice => exact h.openDevice
  | close => exact h.close
  | main answers queued =>
      obtain rfl : queued = true := hsent
      exact h.mainStep answers hkeeps
  | binder queued =>
      obtain rfl : queued = true := hsent
      exact h.binderStep

/-- What is told is settled. -/
theorem Told.ends (h : s.Told) : s.Settled := by
  rintro ⟨hsession, happlied, hmain, hout⟩
  exact h.settled hsession happlied hout (by rw [hmain]; rfl)

/-- The main thread is in `applyCurrentNightMode` only with a session. -/
def Opened (s : State) : Prop := s.main = .idle ∨ s.session = true

theorem Opened.step (h : s.Opened) (e : Event) : (s.step e).Opened := by
  cases e with
  | change night => exact h
  | openDevice =>
      unfold State.step
      split_ifs
      · exact .inr rfl
      · exact h
  | close =>
      unfold State.step
      split_ifs with hmain
      · exact .inl hmain
      · exact h
  | main answers queued =>
      rcases h with hidle | hsession
      · simp [State.step, State.mainStep, hidle, Opened]
      · refine .inr ?_
        simp only [State.step, State.mainStep]
        split <;> try split
        all_goals exact hsession
  | binder queued =>
      refine h.imp (fun hidle => ?_) fun hsession => ?_ <;>
        simp only [State.step, State.binderStep] <;> split <;> try split
      all_goals assumption

/-- A command for another state than the latest report is not the right one, where nothing is
sent after it. -/
theorem Opened.keeps (h : s.Opened) {e : Event} (hsent : e.Accepted)
    (hsettled : (s.step e).Settled) : s.Keeps e := by
  cases e with
  | change _ | openDevice | close | binder _ => trivial
  | main answers queued =>
      obtain rfl : queued = true := hsent
      intro night hmain hout
      have hsession : s.session = true := h.resolve_left (by simp [hmain])
      rw [State.step, mainStep_send hmain] at hsettled
      have hlast : (s.setNightMode night true).getLast? = s.reported.map nightCommand :=
        hsettled ⟨hsession, rfl, rfl, hout⟩
      rw [getLast?_setNightMode hsession] at hlast
      obtain ⟨b, hb, hsame⟩ := Option.map_eq_some_iff.1 hlast.symm
      rw [hb, nightCommand_injective hsame]

/-- **Which interleavings are right.**  With the head unit in any state at the beginning, with
any changes of it, and with every command accepted: whenever `applyCurrentNightMode` and the
callbacks have finished the last command is the one for the latest report, exactly when the
main thread never sends something else than the latest report after every callback has sent. -/
theorem nightMode_iff (current : Bool) {es : List Event} (hsent : ∀ e ∈ es, e.Accepted) :
    Along step (fun s e => (s.step e).Settled) (created current) es ↔
      Along step Keeps (created current) es := by
  refine along_iff (A := fun _ e => e.Accepted) (I := fun s => s.Told ∧ s.Opened)
    (fun s e h hsent => ⟨fun hsettled => h.2.keeps hsent hsettled,
      fun hkeeps => (h.1.step hsent hkeeps).ends⟩)
    (fun s e h hsent hkeeps => ⟨h.1.step hsent hkeeps, h.2.step e⟩)
    ⟨told_created current, .inl rfl⟩ (along_of_forall_mem hsent _)

instance (s : State) : Decidable s.Finished :=
  inferInstanceAs (Decidable (_ = _ ∧ _ = _ ∧ _ = _ ∧ _ = _))

instance (s : State) : Decidable s.Settled := inferInstanceAs (Decidable (_ → _ = _))

instance (s : State) : ∀ e : Event, Decidable (s.Keeps e)
  | .main .. => inferInstanceAs (Decidable (∀ _ : Bool, _ = _ → _ = _ → _ = _))
  | .change _ | .openDevice | .close | .binder _ => .isTrue trivial

/-- The headlights go on after the session is open and told. -/
def separate : List Event :=
  [.openDevice, .main true true, .main true true, .main true true, .change true,
    .binder true, .binder true, .binder true]

/-- The headlights go on, and the callback runs, between the question and the command. -/
def overtaken : List Event :=
  [.openDevice, .main true true, .change true, .binder true, .binder true, .binder true,
    .main true true, .main true true]

theorem nightMode_iff_separate :
    (run step (created false) separate).commands = [disableNightMode, enableNightMode] ∧
    (Along step (fun s e => (s.step e).Settled) (created false) separate ↔
      Along step Keeps (created false) separate) :=
  ⟨by decide, nightMode_iff false (by decide)⟩

/-- **The headlights are on and the screen is in day mode.** -/
theorem not_settled_overtaken :
    (run step (created false) overtaken).Finished ∧
    (run step (created false) overtaken).reported = some true ∧
    (run step (created false) overtaken).commands = [enableNightMode, disableNightMode] ∧
    ¬ ∀ (current : Bool) (es : List Event), (∀ e ∈ es, e.Accepted) →
      (run step (created current) es).Settled := by
  refine ⟨by decide, by decide, by decide, fun h => ?_⟩
  have hsettled := h false overtaken (by decide)
  exact absurd hsettled (by decide)

/-! ### One after the other -/

/-- Neither thread goes on, or begins, while the other is at work. -/
def Apart (s : State) : Event → Prop
  | .binder _ => s.main = .idle
  | .main .. | .openDevice => s.binder = .idle
  | .change _ | .close => True

/-- What the threads find of each other then. -/
structure Agreed (s : State) : Prop where
  cache : s.outstanding = [] → s.main.held = none → s.isNight = s.reported
  held : ∀ night, s.main.held = some night → s.outstanding = [] → s.reported = some night
  stored : ∀ night, s.main = .send night ∨ s.binder = .send night → s.isNight = some night

theorem agreed_created (current : Bool) : (created current).Agreed where
  cache _ _ := rfl
  held _ h := nomatch h
  stored _ h := absurd h (by simp [created])

theorem Agreed.change (h : s.Agreed) (night : Bool) : (s.step (.change night)).Agreed := by
  have hout : (s.step (.change night)).outstanding ≠ [] := by simp [State.step, outstanding]
  exact ⟨fun hempty => absurd hempty hout, fun _ _ hempty => absurd hempty hout, h.stored⟩

theorem Agreed.openDevice (h : s.Agreed) : (s.step .openDevice).Agreed := by
  unfold State.step
  split_ifs with hmain
  · have hheld : s.main.held = none := by rw [hmain]; rfl
    exact ⟨fun hout _ => h.cache hout hheld, fun _ hnone => (nomatch hnone),
      fun night hsend => h.stored night (.inr (by simpa using hsend))⟩
  · exact h

/-- The main thread, while no callback runs. -/
theorem Agreed.main (h : s.Agreed) (hbinder : s.binder = .idle) (answers queued : Bool) :
    (s.mainStep answers queued).Agreed := by
  have hstored : ∀ night, s.binder ≠ .send night := fun night => by simp [hbinder]
  cases hmain : s.main with
  | idle => simpa [State.mainStep, hmain] using h
  | ask =>
      have hheld : s.main.held = none := by rw [hmain]; rfl
      cases answers with
      | true =>
          rw [mainStep_answer hmain]
          exact ⟨fun _ hnone => (nomatch hnone), fun _ hsome _ => hsome,
            fun night hsend => absurd hsend (by simp [hstored])⟩
      | false =>
          rw [mainStep_noAnswer hmain]
          exact ⟨fun hout _ => h.cache hout hheld, fun _ hsome => (nomatch hsome),
            fun night hsend => absurd hsend (by simp [hstored])⟩
  | store night =>
      have hheld : s.main.held = some night := by rw [hmain]; rfl
      rw [mainStep_store hmain]
      refine ⟨fun _ hnone => (nomatch hnone), fun b hsome => ?_, fun b hsend => ?_⟩
      · exact h.held b (hheld.trans hsome)
      · obtain rfl : night = b := by simpa [hstored] using hsend
        rfl
  | fallback =>
      have hheld : s.main.held = none := by rw [hmain]; rfl
      by_cases hnight : s.isNight = none
      · rw [mainStep_nothing hmain hnight]
        exact ⟨fun hout _ => h.cache hout hheld, fun _ hsome => (nomatch hsome),
          fun night hsend => absurd hsend (by simp [hstored])⟩
      · obtain ⟨night, hsome⟩ := Option.ne_none_iff_exists'.1 hnight
        rw [mainStep_kept hmain hsome]
        refine ⟨fun _ hnone => (nomatch hnone), fun b hb hout => ?_, fun b hsend => ?_⟩
        · exact (h.cache hout hheld).symm.trans (hsome.trans hb)
        · obtain rfl : night = b := by simpa [hstored] using hsend
          exact hsome
  | send night =>
      have hheld : s.main.held = some night := by rw [hmain]; rfl
      rw [mainStep_send hmain]
      refine ⟨fun hout _ => ?_, fun _ hsome => (nomatch hsome),
        fun b hsend => absurd hsend (by simp [hstored])⟩
      exact (h.stored night (.inl hmain)).trans (h.held night hheld hout).symm

/-- The Binder thread, while `applyCurrentNightMode` does not run. -/
theorem Agreed.binder (h : s.Agreed) (htold : s.Told) (hmain : s.main = .idle) (queued : Bool) :
    (s.binderStep queued).Agreed := by
  have hheld : ∀ night, s.main.held ≠ some night := fun night => by simp [hmain, Main.held]
  cases hbinder : s.binder with
  | idle =>
      cases hcalls : s.callbacks with
      | nil => simpa [State.binderStep, hbinder, hcalls] using h
      | cons night rest =>
          rw [binderStep_take hbinder hcalls]
          exact ⟨fun hout => absurd hout (by simp [outstanding, Binder.held]),
            fun b hsome => absurd hsome (hheld b), fun b hsend => absurd hsend (by simp [hmain])⟩
  | store night =>
      rw [binderStep_store hbinder]
      refine ⟨fun hout => absurd hout (by simp [outstanding, Binder.held]),
        fun b hsome => absurd hsome (hheld b), fun b hsend => ?_⟩
      obtain rfl : night = b := by simpa [hmain] using hsend
      rfl
  | send night =>
      rw [binderStep_send hbinder]
      refine ⟨fun hout _ => ?_, fun b hsome => absurd hsome (hheld b),
        fun b hsend => absurd hsend (by simp [hmain])⟩
      have hcalls : s.callbacks = [] := by simpa [outstanding, Binder.held] using hout
      have hlatest : s.reported = some night :=
        htold.latest night (by simp [outstanding, hbinder, hcalls, Binder.held])
      exact (h.stored night (.inr hbinder)).trans hlatest.symm

theorem Agreed.step (h : s.Agreed) (htold : s.Told) {e : Event} (hapart : s.Apart e) :
    (s.step e).Agreed := by
  cases e with
  | change night => exact h.change night
  | openDevice => exact h.openDevice
  | close =>
      unfold State.step
      split_ifs
      · exact ⟨h.cache, h.held, h.stored⟩
      · exact h
  | main answers queued => exact h.main hapart answers queued
  | binder queued => exact h.binder htold hapart queued

/-- The main thread sends the latest report then. -/
theorem Agreed.keeps (h : s.Agreed) (e : Event) : s.Keeps e := by
  cases e with
  | change _ | openDevice | close | binder _ => trivial
  | main answers queued =>
      intro night hmain hout
      exact h.held night (by rw [hmain]; rfl) hout

/-- **One after the other they are right.**  Where no callback runs beside
`applyCurrentNightMode` the last command is always the one for the latest report, whenever the
head unit reports a change. -/
theorem settled_of_apart (current : Bool) {es : List Event} (hsent : ∀ e ∈ es, e.Accepted)
    (hapart : Along step Apart (created current) es) :
    Along step (fun s e => (s.step e).Settled) (created current) es := by
  have hgood := hapart.and (along_of_forall_mem hsent (created current))
  refine hgood.imp_of_invariant (I := fun s => s.Told ∧ s.Agreed) (fun s e h he => ?_)
    (fun s e h he => (h.1.step he.2 (h.2.keeps e)).ends) ⟨told_created _, agreed_created _⟩
  exact ⟨h.1.step he.2 (h.2.keeps e), h.2.step h.1 he.1⟩

end State
end NightMode
end App
end Carlinkit
