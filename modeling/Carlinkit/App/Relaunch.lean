/-
# Who left the app

Android kills the process and starts the service again with a null intent, and the service brings
the Activity back after five seconds, unless the user had left "deliberately".  That is one
preference, `user_left`: a confirmed BACK and `onUserLeaveHint` set it, `onResume` clears it.
The hint does not say who asked for it.  It is ignored while a permission dialog is open, and
for 1.5 s after an accepted call or assistant, when "the head unit is taking the screen because
WE asked".  `apply` changes the preference in memory and writes the file later, and the delayed
relaunch does not ask again.

`left` is what the preference is about.  `remembers_iff` says when it is right after every event,
and no relaunch is under way over a user who has left: every HOME must come outside of the two
guards, every theft of the screen inside, no kill before the file is written, no exit during
the five seconds, and no exit by a tap on the status, which stops the service and forgets the
preference.

HOME stands for all ways out that the user asks for, the settings among them.  The clock is
`elapsedRealtime`, in milliseconds.
-/

import Carlinkit.Machine.Run

namespace Carlinkit
namespace App
namespace Relaunch

open Machine

/-- `BACK_CONFIRM_WINDOW_MS`. -/
def backConfirmWindowMs : ℕ := 2500

/-- `SCREEN_STEAL_WINDOW_MS`. -/
def screenStealWindowMs : ℕ := 1500

/-- `RELAUNCH_DELAY_MS`. -/
def relaunchDelayMs : ℕ := 5000

/-- The Activity. -/
structure Screen where
  awaitingUsbPermission : Bool
  lastScreenStealingCommandAt : ℕ
  lastBackPressAt : ℕ
  /-- between `onResume` and the next exit -/
  front : Bool
deriving DecidableEq, Repr

/-- The process: the preference in memory, the Activity, and when the relaunch is due. -/
structure Process where
  userLeft : Bool
  activity : Option Screen
  relaunchAt : Option ℕ
deriving DecidableEq, Repr

structure State where
  now : ℕ
  /-- `user_left` in the file. -/
  file : Bool
  /-- Android starts the service again after a kill. -/
  sticky : Bool
  process : Option Process
  /-- The user has left, and the app has not been in front since. -/
  left : Bool
  /-- `left` at each relaunch. -/
  relaunches : List Bool
deriving DecidableEq, Repr

inductive Event
  | wait (ms : ℕ)
  /-- The user opens the app, or comes back to it. -/
  | opens (newIntent : Bool)
  /-- The user leaves. -/
  | home
  /-- The head unit takes the screen. -/
  | stolen
  | back (inCall : Bool)
  /-- A tap on the status, without a phone. -/
  | tap
  /-- The dongle accepted `ACCEPT_PHONE` or `SIRI`. -/
  | accepted
  /-- The permission dialog opens, or is answered. -/
  | permission (awaiting : Bool)
  /-- The write of `apply` reaches the file. -/
  | flush
  | kill
  /-- `onStartCommand` with a null intent. -/
  | restart
  /-- `onStartCommand` with `ACTION_DEVICE_ATTACHED` or `ACTION_DISCONNECT_PHONE`. -/
  | command
  /-- The delayed relaunch. -/
  | relaunch
deriving DecidableEq, Repr

namespace Screen

/-- After `onCreate`. -/
def fresh : Screen := ⟨false, 0, 0, false⟩

/-- The guards of `onUserLeaveHint`. -/
def ignores (now : ℕ) (a : Screen) : Prop :=
  a.awaitingUsbPermission = true ∨
    a.lastScreenStealingCommandAt ≠ 0 ∧ now - a.lastScreenStealingCommandAt < screenStealWindowMs

instance (now : ℕ) (a : Screen) : Decidable (a.ignores now) :=
  inferInstanceAs (Decidable (_ ∨ _ ∧ _))

end Screen

namespace Process

/-- A process that has read the preference. -/
def fresh (file : Bool) : Process := ⟨file, none, none⟩

/-- `onCreate` for a new Activity, else `onNewIntent` if the intent is delivered; then
`onResume`. -/
def onResume (newIntent : Bool) (p : Process) : Process :=
  let a := p.activity.getD .fresh
  { p with
    userLeft := false
    activity := some { a with
      lastBackPressAt := if newIntent then 0 else a.lastBackPressAt, front := true } }

/-- `onUserLeaveHint`; the Activity is not in front after it. -/
def onUserLeaveHint (now : ℕ) (a : Screen) (p : Process) : Process :=
  { p with
    userLeft := if a.ignores now then p.userLeft else true
    activity := some { a with front := false } }

end Process

namespace State

/-- After the installation. -/
def start : State := ⟨0, false, false, none, false, []⟩

/-- The Activity in front, and its process. -/
def inFront (x : State) : Option (Process × Screen) :=
  x.process.bind fun p => (p.activity.filter Screen.front).map (p, ·)

/-- The app comes to the front; `onCreate` starts the service. -/
def opens (newIntent : Bool) (x : State) : State :=
  let p := x.process.getD (.fresh x.file)
  { x with
    sticky := x.sticky || p.activity.isNone
    process := some (p.onResume newIntent)
    left := false }

/-- A second BACK in time leaves, and there is no call to hang up. -/
def confirmed (inCall : Bool) (a : Screen) (x : State) : Prop :=
  inCall = false ∧ ¬ backConfirmWindowMs < x.now - a.lastBackPressAt

instance (inCall : Bool) (a : Screen) (x : State) : Decidable (x.confirmed inCall a) :=
  inferInstanceAs (Decidable (_ ∧ _))

/-- `onBackPressed`. -/
def onBackPressed (inCall : Bool) (p : Process) (a : Screen) (x : State) : State :=
  if inCall = true then x
  else if backConfirmWindowMs < x.now - a.lastBackPressAt then
    { x with process := some { p with activity := some { a with lastBackPressAt := x.now } } }
  else { x with process := some { p with userLeft := true, activity := none }, left := true }

/-- `scheduleActivityRelaunch`. -/
def scheduleActivityRelaunch (p : Process) (now : ℕ) : Process :=
  if p.userLeft = true then p else { p with relaunchAt := some (now + relaunchDelayMs) }

/-- What an event does to the Activity in front. -/
def frontStep (p : Process) (a : Screen) (x : State) : Event → State
  | .home => { x with process := some (p.onUserLeaveHint x.now a), left := true }
  | .stolen => { x with process := some (p.onUserLeaveHint x.now a) }
  | .back inCall => x.onBackPressed inCall p a
  | .tap => { x with process := some { p with activity := none }, sticky := false, left := true }
  | _ => x

/-- What an event does to the process. -/
def processStep (p : Process) (x : State) : Event → State
  | .accepted =>
      { x with process := some { p with
          activity := p.activity.map fun a => { a with lastScreenStealingCommandAt := x.now } } }
  | .permission awaiting =>
      { x with process := some { p with
          activity := p.activity.map fun a => { a with awaitingUsbPermission := awaiting } } }
  | .flush => { x with file := p.userLeft }
  | .kill => { x with process := none }
  | .relaunch =>
      match p.relaunchAt with
      | some t =>
          if t ≤ x.now then
            opens true { x with
              process := some { p with relaunchAt := none }
              relaunches := x.relaunches ++ [x.left] }
          else x
      | none => x
  | _ => x

/-- One event. -/
def step (x : State) (e : Event) : State :=
  match e with
  | .wait ms => { x with now := x.now + ms }
  | .opens newIntent => x.opens newIntent
  | .restart =>
      if x.process = none ∧ x.sticky = true then
        { x with process := some (scheduleActivityRelaunch (.fresh x.file) x.now) }
      else x
  | .command => { x with process := some (x.process.getD (.fresh x.file)), sticky := true }
  | .home | .stolen | .back _ | .tap => x.inFront.elim x fun (p, a) => x.frontStep p a e
  | .accepted | .permission _ | .flush | .kill | .relaunch =>
      x.process.elim x fun p => x.processStep p e

/-! ### What has to be remembered -/

/-- What `wasUserLeft` reads, in this process or in the next one. -/
def remembered (x : State) : Bool := x.process.elim x.file Process.userLeft

/-- A relaunch is under way. -/
def pending (x : State) : Prop := ∃ p ∈ x.process, p.relaunchAt ≠ none

/-- The preference is right, and no relaunch comes over a user who has left. -/
structure Right (x : State) : Prop where
  told : x.remembered = x.left
  pending : x.pending → x.left = false
  relaunches : true ∉ x.relaunches

/-- What each event has to meet. -/
def Keeps (x : State) : Event → Prop
  | .home => ∀ pa ∈ x.inFront, ¬ pa.2.ignores x.now ∧ pa.1.relaunchAt = none
  | .stolen => ∀ pa ∈ x.inFront, pa.2.ignores x.now
  | .back inCall => ∀ pa ∈ x.inFront, x.confirmed inCall pa.2 → pa.1.relaunchAt = none
  | .tap => x.inFront = none
  | .kill => ∀ p ∈ x.process, x.file = p.userLeft
  | _ => True

/-- Who has left does not see the app. -/
def Apart (x : State) : Prop := ∀ pa ∈ x.inFront, x.left = false

variable {x : State} {p : Process} {a : Screen}

theorem inFront_eq_some : x.inFront = some (p, a) ↔
    x.process = some p ∧ p.activity = some a ∧ a.front = true := by
  unfold inFront
  cases hp : x.process with
  | none => simp
  | some p' =>
      simp only [Option.bind_some, Option.map_eq_some_iff, Option.filter_eq_some_iff,
        Prod.mk.injEq, Option.some.injEq]
      constructor
      · rintro ⟨a', ⟨hact, hfront⟩, rfl, rfl⟩
        exact ⟨rfl, hact, hfront⟩
      · rintro ⟨rfl, hact, hfront⟩
        exact ⟨a, ⟨hact, hfront⟩, rfl, rfl⟩

/-! ### The exits -/

/-- With the Activity in front nobody has left, and the preference says so. -/
theorem Right.front (h : x.Right) (hapart : x.Apart) (hfront : x.inFront = some (p, a)) :
    x.process = some p ∧ x.left = false ∧ p.userLeft = false := by
  have hp := (inFront_eq_some.1 hfront).1
  have hleft := hapart (p, a) hfront
  have htold := h.told
  rw [remembered, hp, hleft] at htold
  exact ⟨hp, hleft, htold⟩

/-- An exit that is not denied is right if the process notes it and nothing is under way. -/
theorem right_exit {y : State} {q : Process} (hq : y.process = some q) (hleft : y.left = true)
    (hover : true ∉ y.relaunches) :
    y.Right ↔ q.userLeft = true ∧ q.relaunchAt = none := by
  constructor
  · intro h
    have htold := h.told
    rw [remembered, hq, hleft] at htold
    refine ⟨htold, ?_⟩
    by_contra hne
    exact Bool.false_ne_true ((h.pending ⟨q, hq, hne⟩).symm.trans hleft)
  · rintro ⟨hyes, hnone⟩
    refine ⟨by rw [remembered, hq, hleft]; exact hyes, ?_, hover⟩
    rintro ⟨q', hq', hne⟩
    obtain rfl := Option.some.inj (hq.symm.trans hq')
    exact absurd hnone hne

/-- Where nobody has left, the preference has to say so. -/
theorem right_stay {y : State} {q : Process} (hq : y.process = some q) (hleft : y.left = false)
    (hover : true ∉ y.relaunches) : y.Right ↔ q.userLeft = false := by
  have hremembered : y.remembered = q.userLeft := by rw [remembered, hq, Option.elim_some]
  constructor
  · intro h
    rw [← hremembered, h.told, hleft]
  · intro hno
    exact ⟨by rw [hremembered, hno, hleft], fun _ => hleft, hover⟩

/-- What does not touch the preference or the relaunch keeps them right. -/
theorem Right.of_process {y : State} (h : x.Right) {q : Process} (hp : x.process = some p)
    (hq : y.process = some q) (huser : q.userLeft = p.userLeft)
    (hat : q.relaunchAt = p.relaunchAt) (hleft : y.left = x.left)
    (hover : y.relaunches = x.relaunches) : y.Right := by
  refine ⟨?_, ?_, hover ▸ h.relaunches⟩
  · rw [remembered, hq, hleft, ← h.told, remembered, hp, Option.elim_some, Option.elim_some, huser]
  · rintro ⟨q', hq', hne⟩
    obtain rfl := Option.some.inj (hq.symm.trans hq')
    rw [hleft]
    exact h.pending ⟨p, hp, hat ▸ hne⟩

theorem right_home (h : x.Right) (hapart : x.Apart) :
    (x.step .home).Right ↔ x.Keeps .home := by
  unfold step Keeps
  cases hfront : x.inFront with
  | none => simpa using h
  | some pa =>
      obtain ⟨p, a⟩ := pa
      obtain ⟨-, -, huser⟩ := h.front hapart hfront
      refine Iff.trans (right_exit rfl rfl h.relaunches) ?_
      simp [Process.onUserLeaveHint, huser]

theorem right_stolen (h : x.Right) (hapart : x.Apart) :
    (x.step .stolen).Right ↔ x.Keeps .stolen := by
  unfold step Keeps
  cases hfront : x.inFront with
  | none => simpa using h
  | some pa =>
      obtain ⟨p, a⟩ := pa
      obtain ⟨-, hleft, huser⟩ := h.front hapart hfront
      refine Iff.trans (right_stay rfl hleft h.relaunches) ?_
      simp [Process.onUserLeaveHint, huser]

theorem right_back (h : x.Right) (hapart : x.Apart) (inCall : Bool) :
    (x.step (.back inCall)).Right ↔ x.Keeps (.back inCall) := by
  unfold step Keeps
  cases hfront : x.inFront with
  | none => simpa using h
  | some pa =>
      obtain ⟨p, a⟩ := pa
      obtain ⟨hp, -, -⟩ := h.front hapart hfront
      simp only [Option.elim_some, Option.mem_def, Option.some.injEq, forall_eq', frontStep,
        onBackPressed, confirmed]
      split_ifs with hcall hfirst
      · simpa [hcall] using h
      · refine iff_of_true (h.of_process hp rfl rfl rfl rfl rfl) ?_
        exact fun hconfirmed => absurd hfirst hconfirmed.2
      · refine Iff.trans (right_exit rfl rfl h.relaunches) ⟨fun hexit _ => hexit.2, ?_⟩
        exact fun hnone => ⟨rfl, hnone ⟨Bool.not_eq_true _ ▸ hcall, hfirst⟩⟩

theorem right_tap (h : x.Right) (hapart : x.Apart) : (x.step .tap).Right ↔ x.Keeps .tap := by
  unfold step Keeps
  cases hfront : x.inFront with
  | none => simpa using h
  | some pa =>
      obtain ⟨p, a⟩ := pa
      obtain ⟨-, -, huser⟩ := h.front hapart hfront
      refine Iff.trans (right_exit rfl rfl h.relaunches) ?_
      simp [huser]

theorem right_kill (h : x.Right) : (x.step .kill).Right ↔ x.Keeps .kill := by
  unfold step Keeps
  cases hp : x.process with
  | none => simpa using h
  | some p =>
      have htold : p.userLeft = x.left := by
        rw [← h.told, remembered, hp, Option.elim_some]
      have hremembered : (x.processStep p .kill).remembered = x.file := rfl
      constructor
      · intro hright p' hp'
        obtain rfl := Option.some.inj hp'
        exact hright.told.trans htold.symm
      · intro hflushed
        exact ⟨(hflushed p rfl).trans htold, fun ⟨q, hq, _⟩ => (nomatch hq), h.relaunches⟩

theorem right_opens (newIntent : Bool) (hover : true ∉ x.relaunches) :
    (x.opens newIntent).Right := by
  have hstay := right_stay (y := x.opens newIntent) rfl rfl hover
  exact hstay.2 rfl

theorem Right.relaunch (h : x.Right) : (x.step .relaunch).Right := by
  unfold step
  cases hp : x.process with
  | none => exact h
  | some p =>
      cases hat : p.relaunchAt with
      | none => simpa [processStep, hat] using h
      | some t =>
          simp only [Option.elim_some, processStep, hat]
          split_ifs with hdue
          · have hleft : x.left = false := h.pending ⟨p, hp, by rw [hat]; nofun⟩
            refine right_opens true ?_
            rw [hleft]
            simpa using h.relaunches
          · exact h

theorem Right.restart (h : x.Right) : (x.step .restart).Right := by
  simp only [step]
  split_ifs with hdead
  · have hfile : x.file = x.left := by
      rw [← h.told, remembered, hdead.1, Option.elim_none]
    unfold scheduleActivityRelaunch Process.fresh
    split_ifs with hleft
    · refine ⟨hfile, ?_, h.relaunches⟩
      rintro ⟨q, hq, hne⟩
      obtain rfl := Option.some.inj hq
      exact absurd rfl hne
    · refine ⟨hfile, fun _ => ?_, h.relaunches⟩
      exact hfile ▸ Bool.eq_false_iff.2 hleft
  · exact h

theorem Right.command (h : x.Right) : (x.step .command).Right := by
  unfold step
  cases hp : x.process with
  | none =>
      refine ⟨?_, ?_, h.relaunches⟩
      · have htold := h.told
        rw [remembered, hp] at htold
        exact htold
      · rintro ⟨q, hq, hne⟩
        obtain rfl := Option.some.inj hq
        exact absurd rfl hne
  | some p => exact h.of_process hp rfl rfl rfl rfl rfl

/-- **An event keeps the preference right exactly when it meets its condition.** -/
theorem right_step (h : x.Right) (hapart : x.Apart) (e : Event) :
    (x.step e).Right ↔ x.Keeps e := by
  cases e with
  | home => exact right_home h hapart
  | stolen => exact right_stolen h hapart
  | back inCall => exact right_back h hapart inCall
  | tap => exact right_tap h hapart
  | kill => exact right_kill h
  | wait ms => exact iff_of_true ⟨h.told, h.pending, h.relaunches⟩ trivial
  | opens newIntent => exact iff_of_true (right_opens newIntent h.relaunches) trivial
  | restart => exact iff_of_true h.restart trivial
  | command => exact iff_of_true h.command trivial
  | relaunch => exact iff_of_true h.relaunch trivial
  | flush =>
      refine iff_of_true ?_ trivial
      unfold step
      cases hp : x.process with
      | none => exact h
      | some p => exact h.of_process hp hp rfl rfl rfl rfl
  | accepted | permission =>
      refine iff_of_true ?_ trivial
      unfold step
      cases hp : x.process with
      | none => exact h
      | some p => exact h.of_process hp rfl rfl rfl rfl rfl

theorem apart_of_hidden {y : State} (h : ∀ p ∈ y.process, ∀ a ∈ p.activity, a.front = false) :
    y.Apart := by
  rintro ⟨p, a⟩ hfront
  obtain ⟨hp, hact, hyes⟩ := inFront_eq_some.1 hfront
  exact absurd ((h p hp a hact).symm.trans hyes) Bool.false_ne_true

/-- An Activity that is in front was so before, and `left` stays. -/
theorem Apart.of_process (h : x.Apart) {y : State} {q : Process} (hp : x.process = some p)
    (hq : y.process = some q) (hleft : y.left = x.left)
    (hfront : q.activity.map Screen.front = p.activity.map Screen.front) : y.Apart := by
  rintro ⟨q', b⟩ hy
  obtain ⟨hq', hact, hyes⟩ := inFront_eq_some.1 hy
  obtain rfl := Option.some.inj (hq.symm.trans hq')
  rw [hact, Option.map_some, hyes, eq_comm, Option.map_eq_some_iff] at hfront
  obtain ⟨a, ha, hafront⟩ := hfront
  exact hleft.trans (h (p, a) (inFront_eq_some.2 ⟨hp, ha, hafront⟩))

theorem Apart.frontStep (h : x.Apart) (hfront : x.inFront = some (p, a)) (e : Event) :
    (x.frontStep p a e).Apart := by
  obtain ⟨hp, hact, -⟩ := inFront_eq_some.1 hfront
  cases e with
  | home => exact apart_of_hidden (by simp [State.frontStep, Process.onUserLeaveHint])
  | stolen => exact apart_of_hidden (by simp [State.frontStep, Process.onUserLeaveHint])
  | back inCall =>
      simp only [State.frontStep, onBackPressed]
      split_ifs with hcall hfirst
      · exact h
      · exact h.of_process hp rfl rfl (by rw [hact, Option.map_some, Option.map_some])
      · exact apart_of_hidden (by simp)
  | tap => exact apart_of_hidden (by simp [State.frontStep])
  | _ => exact h

theorem Apart.processStep (h : x.Apart) (hp : x.process = some p) (e : Event) :
    (x.processStep p e).Apart := by
  cases e with
  | accepted => exact h.of_process hp rfl rfl (by rw [Option.map_map]; rfl)
  | permission awaiting => exact h.of_process hp rfl rfl (by rw [Option.map_map]; rfl)
  | flush => exact h.of_process hp hp rfl rfl
  | kill => exact apart_of_hidden (by simp [State.processStep])
  | relaunch =>
      unfold State.processStep
      cases p.relaunchAt with
      | none => exact h
      | some t =>
          dsimp only
          split_ifs with hdue
          · exact fun _ _ => rfl
          · exact h
  | _ => exact h

theorem Apart.step (h : x.Apart) (e : Event) : (x.step e).Apart := by
  unfold State.step
  cases e with
  | wait ms => exact h
  | opens newIntent => exact fun _ _ => rfl
  | restart =>
      dsimp only
      split_ifs with hdead
      · refine apart_of_hidden ?_
        unfold scheduleActivityRelaunch Process.fresh
        split_ifs <;> simp
      · exact h
  | command =>
      cases hp : x.process with
      | none => exact apart_of_hidden (by simp [Process.fresh])
      | some p => exact h.of_process hp rfl rfl rfl
  | home | stolen | back | tap =>
      dsimp only
      cases hfront : x.inFront with
      | none => exact h
      | some pa =>
          rw [Option.elim_some]
          exact h.frontStep hfront _
  | accepted | permission | flush | kill | relaunch =>
      dsimp only
      cases hp : x.process with
      | none => exact h
      | some p =>
          rw [Option.elim_some]
          exact h.processStep hp _

/-- **The preference is right after every event, and no relaunch comes over a user who has left,
exactly when every event meets its condition.** -/
theorem remembers_iff (es : List Event) :
    Along step (fun x e => (x.step e).Right) start es ↔ Along step Keeps start es :=
  along_iff_of_invariant (I := fun x => x.Right ∧ x.Apart)
    (fun _ e h => right_step h.1 h.2 e)
    (fun _ e h hkeeps => ⟨(right_step h.1 h.2 e).2 hkeeps, h.2.step e⟩)
    ⟨⟨rfl, fun ⟨_, hp, _⟩ => (nomatch hp), nofun⟩, fun _ _ => rfl⟩ es

end State
end Relaunch
end App
end Carlinkit
