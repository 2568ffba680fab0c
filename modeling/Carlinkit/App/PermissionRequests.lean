/-
# How often the app asks for the dongle

`findAndOpenDongle` calls `requestPermission` for a dongle that it may not open, and does not
search while `awaitingUsbPermission` says that the answer is still to come.  After a denial
the search comes again, as long as `usbPermissionAttempts` is below
`MAX_USB_PERMISSION_ATTEMPTS`; only a genuine return to the foreground gives new attempts.

Where the request is made the limit is not tested: only the denial knows it.  The flag is, but
`scheduleDongleReconnect` takes it back and a new Activity begins without it, while the dialog
stays open.  `onDestroy` takes two of the delayed `Runnable`s with it; the searches, the
reconnections and the permission retries outlive the Activity, and a `Process` keeps the
Activities that are gone with what waits on their views.

The observer counts the requests without an answer and those since the last grant or genuine
return.  It knows besides when an open dialog was given up, and how many of the requests the
counter has lost.  `limited_iff` says when both rules hold.
-/

import Carlinkit.App.Activity

namespace Carlinkit
namespace App

open Machine

/-! ## Requests -/

/-- The search reaches a dongle that it may not open, and asks. -/
def Activity.reaches (a : Activity) (found : Option Found) : Bool :=
  !a.sessionStarted && !a.awaitingUsbPermission && found.any fun d => !d.permitted

/-- What the Activity knows of the permission dialog. -/
structure Dialog where
  created : Bool
  awaitingUsbPermission : Bool
  usbPermissionAttempts : ℕ
deriving DecidableEq, Repr

/-- What it knows. -/
def Activity.dialog (a : Activity) : Dialog :=
  ⟨a.created, a.awaitingUsbPermission, a.usbPermissionAttempts⟩

/-- One request more. -/
def Dialog.ask (d : Dialog) : Dialog :=
  { d with awaitingUsbPermission := true, usbPermissionAttempts := d.usbPermissionAttempts + 1 }

namespace State

/-- What `UsbManager` shows the search that the callback comes to, if it comes to one. -/
def searched (s : State) : Event → Option (Option Found)
  | .onResume found _ => some found
  | .onServiceConnected found _ =>
      if s.service.isStarted || s.activity.pendingDevice.isSome then none else some found
  | .deviceAttached found _ => if s.activity.userLeft then none else some found
  | .runSearch found _ =>
      if s.activity.posted.searches = 0 ∨ s.activity.userLeft then none else some found
  | .runReconnect found _ =>
      if s.activity.posted.reconnects = 0 ∨ s.activity.userLeft then none else some found
  | .runPermissionRetry found _ =>
      if s.activity.posted.permissionRetries = 0 then none else some found
  | _ => none

/-- The callback calls `requestPermission`. -/
def asks (s : State) (e : Event) : Bool := (s.searched e).any s.activity.reaches

/-- `scheduleDongleReconnect` has an attempt left, and takes back the flag. -/
def reconnects (s : State) (now : ℕ) : Bool :=
  !s.activity.userLeft &&
    (decide (0 < s.activity.firstReconnectAttemptAt ∧
        reconnectWindowMs < now - s.activity.firstReconnectAttemptAt) ||
      decide (s.activity.dongleReconnectAttempts < maxDongleReconnectAttempts))

/-- What the Activity knows of the dialog when a callback comes to its search. -/
def heard (s : State) : Event → Dialog
  | .onCreate => ⟨true, false, 0⟩
  | .onDestroy => ⟨false, false, 0⟩
  | .onResume _ _ =>
      { s.activity.dialog with
        usbPermissionAttempts :=
          if s.activity.awaitingUsbPermission then s.activity.usbPermissionAttempts else 0 }
  | .usbPermission device granted _ =>
      { s.activity.dialog with
        awaitingUsbPermission := false
        usbPermissionAttempts :=
          if granted && device.isSome then 0 else s.activity.usbPermissionAttempts }
  | .deviceDetached _ now =>
      { s.activity.dialog with
        awaitingUsbPermission := s.activity.awaitingUsbPermission && !s.reconnects now }
  | _ => s.activity.dialog

variable {s : State}

/-! ## What a callback does to the dialog -/

theorem dialog_openDevice (device : ℕ) (o : Opening) (s : State) :
    (openDevice device o s).activity.dialog = s.activity.dialog := by
  unfold openDevice
  split_ifs
  · rfl
  · rfl
  · dsimp only
    split_ifs <;> rfl

theorem dialog_of_sameSearch {a b : Activity} (h : a.SameSearch b) : b.dialog = a.dialog := by
  rw [Activity.dialog, h.created, h.awaitingUsbPermission, h.usbPermissionAttempts]
  rfl

/-- **A search asks for a dongle that it may not open, and only then.** -/
theorem dialog_findAndOpenDongle (found : Option Found) (o : Opening) (s : State) :
    (findAndOpenDongle found o s).activity.dialog =
      if s.activity.reaches found then s.activity.dialog.ask else s.activity.dialog := by
  unfold findAndOpenDongle
  by_cases hnot : s.activity.sessionStarted ∨ s.activity.awaitingUsbPermission
  · rw [if_pos hnot, if_neg]
    rcases hnot with hset | hset <;> simp [Activity.reaches, hset]
  · rw [if_neg hnot]
    obtain ⟨hstarted, hawait⟩ := not_or.1 hnot
    cases found with
    | none =>
        have hnothing : s.activity.reaches none = false := by simp [Activity.reaches]
        rw [hnothing, if_neg Bool.false_ne_true]
        dsimp only
        split_ifs <;> rfl
    | some d =>
        dsimp only
        by_cases hpermitted : d.permitted = true
        · rw [if_pos hpermitted, if_neg (by simp [Activity.reaches, hpermitted])]
          exact dialog_openDevice d.device o _
        · rw [if_neg hpermitted, if_pos (by simp [Activity.reaches, hstarted, hawait, hpermitted])]
          rfl

/-- A `Runnable` that waits is taken before it runs. -/
theorem dialog_run {waiting : Posted → ℕ} {taken : Posted → Posted} {body : State → State}
    (s : State) : (run waiting taken body s).activity.dialog =
      if waiting s.activity.posted = 0 then s.activity.dialog
      else (body (s.setPosted (taken s.activity.posted))).activity.dialog := by
  unfold run
  split_ifs <;> rfl

/-- A delayed search that is not for nothing. -/
theorem dialog_delayedSearch (found : Option Found) (o : Opening) {s : State}
    (hstays : s.activity.userLeft = false) :
    (delayedSearch found o s).activity.dialog =
      if s.activity.reaches found then s.activity.dialog.ask else s.activity.dialog := by
  unfold delayedSearch
  by_cases hstarted : s.activity.sessionStarted = false
  · rw [if_pos ⟨hstarted, hstays⟩, dialog_findAndOpenDongle]
  · have hreaches : s.activity.reaches found = false := by simp [Activity.reaches, hstarted]
    rw [if_neg fun h => hstarted h.1, hreaches, if_neg Bool.false_ne_true]

theorem delayedSearch_left (found : Option Found) (o : Opening) {s : State}
    (hleft : s.activity.userLeft = true) : delayedSearch found o s = s := by
  unfold delayedSearch
  rw [if_neg]
  simp [hleft]

theorem dialog_usbPermission (device : Option ℕ) (granted : Bool) (o : Opening) (s : State) :
    (usbPermission device granted o s).activity.dialog =
      s.heard (.usbPermission device granted o) := by
  unfold usbPermission
  dsimp only
  cases granted with
  | false =>
      dsimp only
      split_ifs <;> rfl
  | true =>
      cases device with
      | none =>
          dsimp only
          split_ifs <;> rfl
      | some d => exact dialog_openDevice d o _

theorem dialog_surfaceChanged (size : Size) (o : Opening) (s : State) :
    (surfaceChanged size o s).activity.dialog = s.activity.dialog := by
  unfold surfaceChanged
  dsimp only
  split
  · exact dialog_openDevice _ o _
  · split_ifs <;> rfl

/-- A reconnection takes back the flag. -/
theorem dialog_scheduleDongleReconnect (now : ℕ) (s : State) :
    (scheduleDongleReconnect now s).activity.dialog =
      { s.activity.dialog with
        awaitingUsbPermission := s.activity.awaitingUsbPermission && !s.reconnects now } := by
  unfold scheduleDongleReconnect reconnects
  by_cases hleft : s.activity.userLeft = true
  · simp [hleft, Activity.dialog]
  · rw [if_neg hleft]
    by_cases hexpired : 0 < s.activity.firstReconnectAttemptAt ∧
        reconnectWindowMs < now - s.activity.firstReconnectAttemptAt
    · simp [hleft, hexpired, Activity.dialog, maxDongleReconnectAttempts]
    · by_cases hfull : maxDongleReconnectAttempts ≤ s.activity.dongleReconnectAttempts
      · simp [hexpired, hfull, Activity.dialog]
      · simp [hleft, hexpired, hfull, Nat.lt_of_not_le hfull, Activity.dialog]

/-- **A callback without a search.** -/
theorem dialog_of_not_searched {e : Event} (h : s.searched e = none) :
    (activityStep s e).activity.dialog = s.heard e := by
  cases e with
  | onResume found o => cases h
  | onServiceConnected found o =>
      simp only [activityStep, onServiceConnected]
      by_cases hstarted : s.service.isStarted = true
      · rw [if_pos hstarted]
        rfl
      · rw [if_neg hstarted]
        cases hpending : s.activity.pendingDevice with
        | some d => exact dialog_openDevice d o _
        | none => simp [searched, hstarted, hpending] at h
  | usbPermission device granted o => exact dialog_usbPermission device granted o s
  | deviceDetached device now => exact dialog_scheduleDongleReconnect now s.releaseSurface
  | deviceAttached found o =>
      have hleft : s.activity.userLeft = true := by simpa [searched] using h
      simp only [activityStep, deviceAttached, hleft, if_true]
      rfl
  | surfaceChanged size o => exact dialog_surfaceChanged size o s
  | runSearch found o =>
      have hleft : ¬ s.activity.posted.searches = 0 → s.activity.userLeft = true := by
        simpa [searched] using h
      simp only [activityStep, dialog_run]
      split_ifs with hnone
      · rfl
      · rw [delayedSearch_left]
        · rfl
        · exact hleft hnone
  | runReconnect found o =>
      have hleft : ¬ s.activity.posted.reconnects = 0 → s.activity.userLeft = true := by
        simpa [searched] using h
      simp only [activityStep, dialog_run]
      split_ifs with hnone
      · rfl
      · rw [delayedSearch_left]
        · rfl
        · exact hleft hnone
  | runPermissionRetry found o =>
      have hnone : s.activity.posted.permissionRetries = 0 := by simpa [searched] using h
      simp only [activityStep, dialog_run, hnone, if_true]
      rfl
  | runMuteCheck =>
      simp only [activityStep, dialog_run, muteDongleCheck]
      split_ifs <;> rfl
  | onCreate | onDestroy | stop | serviceDeviceAttached | serviceOnDestroy | received => rfl
  | _ =>
      refine dialog_of_sameSearch (sameSearch_activityStep ?_ s)
      trivial

/-- **A callback with a search.** -/
theorem dialog_of_searched {e : Event} {found : Option Found} (h : s.searched e = some found) :
    (activityStep s e).activity.dialog =
      if s.activity.reaches found then (s.heard e).ask else s.heard e := by
  cases e with
  | onResume found' o =>
      obtain rfl := Option.some.inj h
      simp only [activityStep, onResume, dialog_findAndOpenDongle]
      cases hawait : s.activity.awaitingUsbPermission with
      | true => simp [Activity.reaches, hawait, heard, Activity.dialog]
      | false => simp [Activity.reaches, hawait, heard, Activity.dialog]
  | onServiceConnected found' o =>
      have hnot : s.service.isStarted = false ∧ s.activity.pendingDevice = none ∧
          found' = found := by
        simpa [searched, and_assoc] using h
      obtain ⟨hstarted, hpending, rfl⟩ := hnot
      simp only [activityStep, onServiceConnected, hstarted, hpending, Bool.false_eq_true,
        if_false]
      exact dialog_findAndOpenDongle found' o _
  | deviceAttached found' o =>
      have hnot : s.activity.userLeft = false ∧ found' = found := by
        simpa [searched] using h
      obtain ⟨hstays, rfl⟩ := hnot
      simp only [activityStep, deviceAttached, hstays, Bool.false_eq_true, if_false]
      exact dialog_findAndOpenDongle found' o s
  | runSearch found' o =>
      have hnot : (s.activity.posted.searches ≠ 0 ∧ s.activity.userLeft = false) ∧
          found' = found := by
        simpa [searched] using h
      obtain ⟨⟨hwaits, hstays⟩, rfl⟩ := hnot
      simp only [activityStep, dialog_run, if_neg hwaits]
      exact dialog_delayedSearch found' o hstays
  | runReconnect found' o =>
      have hnot : (s.activity.posted.reconnects ≠ 0 ∧ s.activity.userLeft = false) ∧
          found' = found := by
        simpa [searched] using h
      obtain ⟨⟨hwaits, hstays⟩, rfl⟩ := hnot
      simp only [activityStep, dialog_run, if_neg hwaits]
      exact dialog_delayedSearch found' o hstays
  | runPermissionRetry found' o =>
      have hnot : s.activity.posted.permissionRetries ≠ 0 ∧ found' = found := by
        simpa [searched] using h
      obtain ⟨hwaits, rfl⟩ := hnot
      simp only [activityStep, dialog_run, if_neg hwaits]
      exact dialog_findAndOpenDongle found' o _
  | _ => cases h

/-- **What a callback does to the dialog.** -/
theorem dialog_activityStep (s : State) (e : Event) :
    (activityStep s e).activity.dialog = if s.asks e then (s.heard e).ask else s.heard e := by
  cases hsearch : s.searched e with
  | none =>
      have hasks : s.asks e = false := by rw [asks, hsearch, Option.any_none]
      rw [hasks, if_neg Bool.false_ne_true]
      exact dialog_of_not_searched hsearch
  | some found =>
      rw [asks, hsearch, Option.any_some]
      exact dialog_of_searched hsearch

/-- What the service does first is nothing to the search. -/
theorem asks_serviceStep (s : State) (e : Event) :
    ({ s with service := serviceStep s.service e } : State).asks e = s.asks e := by
  cases e <;> rfl

theorem heard_serviceStep (s : State) (e : Event) :
    ({ s with service := serviceStep s.service e } : State).heard e = s.heard e := by
  cases e <;> rfl

/-- **What an event does to the dialog of the Activity that is there.** -/
theorem dialog_step (s : State) (e : Event) (hcreated : s.activity.created = true) :
    (step s e).activity.dialog = if s.asks e then (s.heard e).ask else s.heard e := by
  rcases step_cases s e with ⟨-, heq⟩ | ⟨hgone, -⟩
  · rw [heq, dialog_activityStep, asks_serviceStep, heard_serviceStep]
  · exact absurd (hcreated.symm.trans hgone) Bool.false_ne_true.symm

/-- Where there is none, it begins, or there is none still. -/
theorem dialog_step_gone (s : State) (e : Event) (hgone : s.activity.created = false) :
    (step s e).activity.dialog = ⟨true, false, 0⟩ ∨ (step s e).activity = s.activity := by
  rcases step_cases s e with ⟨hcreated | rfl, heq⟩ | ⟨-, -, heq⟩
  · exact absurd (hcreated.symm.trans hgone) Bool.false_ne_true.symm
  · exact .inl rfl
  · rw [heq]
    exact .inr rfl

end State

/-! ## The process -/

/-- What is left of an Activity after `onDestroy`: its fields, and three kinds of `Runnable`. -/
def Activity.remains (a : Activity) : Activity :=
  { a with
    sessionStarted := false
    view := { a.view with valid := false }
    posted := { a.posted with muteChecks := 0, heartbeats := 0 } }

/-- A `Runnable` that `onDestroy` leaves waiting. -/
inductive Late
  | search
  | reconnect
  | permissionRetry
deriving DecidableEq, Repr

/-- It runs. -/
def Late.event (found : Option Found) (o : Opening) : Late → Event
  | search => .runSearch found o
  | reconnect => .runReconnect found o
  | permissionRetry => .runPermissionRetry found o

/-- The Activity, those that are gone, and the service. -/
structure Process where
  state : State
  gone : List Activity

namespace Process

/-- A callback, or a `Runnable` of the `i`-th Activity that is gone. -/
inductive Step
  | now (e : Event)
  | late (i : ℕ) (l : Late) (found : Option Found) (o : Opening)

/-- The Activity that an event takes away. -/
def leaves (s : State) : Event → List Activity
  | .onDestroy => if s.activity.created then [s.activity.remains] else []
  | _ => []

/-- One event. -/
def step (p : Process) : Step → Process
  | .now e => ⟨p.state.step e, p.gone ++ leaves p.state e⟩
  | .late i l found o =>
      match p.gone[i]? with
      | none => p
      | some a =>
          let s := State.activityStep ⟨a, p.state.service⟩ (l.event found o)
          ⟨⟨p.state.activity, s.service⟩, p.gone.set i s.activity⟩

/-- The event calls `requestPermission`. -/
def asks (p : Process) : Step → Bool
  | .now e => p.state.activity.created && p.state.asks e
  | .late i l found o =>
      (p.gone[i]?).any fun a => State.asks ⟨a, p.state.service⟩ (l.event found o)

/-- Before the first `onCreate`, over a service that may have a session. -/
def start (service : Service) : Process := ⟨State.start service, []⟩

end Process

/-! ## Who counts -/

/-- The requests of a run. -/
structure Requests where
  /-- Those that have no answer yet. -/
  unanswered : ℕ
  /-- Those since the last grant or genuine return. -/
  asked : ℕ
  /-- The Activity does not wait for the answer that is still to come. -/
  givenUp : Bool
  /-- Those of `asked` that its counter does not count. -/
  lost : ℕ
deriving DecidableEq, Repr

namespace Requests

/-- No request. -/
def none : Requests := ⟨0, 0, false, 0⟩

/-- Before the search of an event. -/
def hear (p : Process) (x : Requests) : Process.Step → Requests
  | .now (.usbPermission device granted _) =>
      if granted && device.isSome then ⟨x.unanswered - 1, 0, false, 0⟩
      else ⟨x.unanswered - 1, x.asked, false, x.lost⟩
  | .now (.onResume _ _) =>
      if p.state.activity.created = false then x
      -- a genuine return, or one from a dialog that the Activity knows, or does not
      else if x.unanswered = 0 then none
      else if p.state.activity.awaitingUsbPermission then x
      else { x with lost := x.asked }
  | .now .onCreate | .now .onDestroy =>
      { x with
        givenUp := x.givenUp || p.state.activity.awaitingUsbPermission
        lost := x.asked }
  | .now (.deviceDetached _ now) =>
      { x with
        givenUp := x.givenUp ||
          (p.state.activity.awaitingUsbPermission && p.state.reconnects now) }
  | _ => x

/-- One request more, by the Activity or by one that is gone. -/
def ask (x : Requests) : Process.Step → Requests
  | .now _ => { x with unanswered := x.unanswered + 1, asked := x.asked + 1 }
  | .late .. => ⟨x.unanswered + 1, x.asked + 1, true, x.lost + 1⟩

/-- After an event. -/
def see (p : Process) (x : Requests) (e : Process.Step) : Requests :=
  if p.asks e then (x.hear p e).ask e else x.hear p e

end Requests

/-- The process beside the requests. -/
abbrev Asking := Process × Requests

/-- At most `MAX_USB_PERMISSION_ATTEMPTS` requests without a grant, one at a time. -/
structure Limited (x : Asking) (e : Process.Step) : Prop where
  budget : (x.2.see x.1 e).asked ≤ maxUsbPermissionAttempts
  single : (x.2.see x.1 e).unanswered ≤ 1

/-- The event is an `onResume`. -/
def Process.Step.Resumes : Process.Step → Prop
  | .now (.onResume _ _) => True
  | _ => False

/-- What the code does not test where it asks. -/
structure Heeds (x : Asking) (e : Process.Step) : Prop where
  /-- No dialog is open: neither one that the Activity waits for nor one that was given up. -/
  single : x.1.asks e = true →
    x.1.state.activity.awaitingUsbPermission = false ∧ x.2.givenUp = false
  /-- There is an attempt left. -/
  budget : x.1.asks e = true → ¬ e.Resumes →
    x.1.state.activity.usbPermissionAttempts + x.2.lost < maxUsbPermissionAttempts

/-! ## The requests and the dialog -/

/-- As long as both rules hold, the open dialog is known or was given up, and the counter has
counted the requests or lost them. -/
structure Waits (d : Dialog) (x : Requests) : Prop where
  unanswered : x.unanswered = (d.awaitingUsbPermission || x.givenUp).toNat
  asked : x.asked = d.usbPermissionAttempts + x.lost
  limit : x.asked ≤ maxUsbPermissionAttempts

variable {d : Dialog} {x : Requests} {p : Process}

theorem Waits.single (h : Waits d x) : x.unanswered ≤ 1 := by
  rw [h.unanswered]
  exact Bool.toNat_le _

/-- Nothing is open exactly when nothing is waited for and nothing was given up. -/
theorem Waits.unanswered_eq_zero_iff (h : Waits d x) :
    x.unanswered = 0 ↔ d.awaitingUsbPermission = false ∧ x.givenUp = false := by
  rw [h.unanswered, Bool.toNat_eq_zero, Bool.or_eq_false_iff]

/-- An Activity that does not wait, and counts nothing, has given up what is open. -/
theorem Waits.anew (h : Waits d x) (created : Bool) :
    Waits ⟨created, false, 0⟩
      { x with givenUp := x.givenUp || d.awaitingUsbPermission, lost := x.asked } where
  unanswered := by
    rw [h.unanswered, Bool.false_or, Bool.or_comm]
  asked := (Nat.zero_add _).symm
  limit := h.limit

/-- An answer leaves nothing open, and a grant nothing counted. -/
theorem Waits.answer (h : Waits d x) (created granted : Bool) :
    Waits ⟨created, false, if granted then 0 else d.usbPermissionAttempts⟩
      (if granted then ⟨x.unanswered - 1, 0, false, 0⟩
        else ⟨x.unanswered - 1, x.asked, false, x.lost⟩) := by
  have hone : x.unanswered - 1 = 0 := Nat.sub_eq_zero_of_le h.single
  cases granted with
  | true => exact ⟨hone, rfl, Nat.zero_le _⟩
  | false => exact ⟨hone, h.asked, h.limit⟩

/-- **Before the search the counts agree.** -/
theorem Waits.hear {e : Event} (h : Waits p.state.activity.dialog x)
    (hcreated : p.state.activity.created = true) :
    Waits (p.state.heard e) (x.hear p (.now e)) := by
  cases e with
  | onCreate => exact h.anew true
  | onDestroy => exact h.anew false
  | usbPermission device granted o => exact h.answer _ (granted && device.isSome)
  | onResume found o =>
      simp only [State.heard, Requests.hear, hcreated, Bool.true_eq_false, if_false]
      by_cases hopen : x.unanswered = 0
      · obtain ⟨hfree, -⟩ := h.unanswered_eq_zero_iff.1 hopen
        have hawait : p.state.activity.awaitingUsbPermission = false := hfree
        rw [if_pos hopen, hawait, if_neg Bool.false_ne_true]
        refine ⟨?_, rfl, Nat.zero_le _⟩
        rw [hfree]
        rfl
      · rw [if_neg hopen]
        split_ifs
        · exact h
        · exact ⟨h.unanswered, (Nat.zero_add _).symm, h.limit⟩
  | deviceDetached device now =>
      refine ⟨?_, h.asked, h.limit⟩
      refine h.unanswered.trans ?_
      simp only [State.heard, Requests.hear, Activity.dialog]
      cases p.state.activity.awaitingUsbPermission <;> cases p.state.reconnects now <;>
        cases x.givenUp <;> rfl
  | _ => exact h

/-- Without an Activity the answer may still come. -/
theorem Waits.hear_gone {e : Event} (h : Waits ⟨false, false, 0⟩ x) (created : Bool)
    (hgone : p.state.activity.dialog = ⟨false, false, 0⟩) :
    Waits ⟨created, false, 0⟩ (x.hear p (.now e)) := by
  obtain ⟨hcreated, hawait, -⟩ := Dialog.mk.inj hgone
  cases e with
  | onCreate | onDestroy =>
      simp only [Requests.hear, hawait]
      exact h.anew created
  | usbPermission device granted o =>
      have hanswer := h.answer created (granted && device.isSome)
      rw [ite_self] at hanswer
      exact hanswer
  | onResume found o =>
      simp only [Requests.hear, hcreated, if_true]
      exact ⟨h.unanswered, h.asked, h.limit⟩
  | deviceDetached device now =>
      simp only [Requests.hear, hawait, Bool.false_and, Bool.or_false]
      exact ⟨h.unanswered, h.asked, h.limit⟩
  | _ => exact ⟨h.unanswered, h.asked, h.limit⟩

/-- A request of the Activity is counted and waited for. -/
theorem Waits.ask_now (h : Waits d x) (e : Event) (hopen : x.unanswered = 0)
    (hleft : x.asked < maxUsbPermissionAttempts) : Waits d.ask (x.ask (.now e)) where
  unanswered := by
    show x.unanswered + 1 = (true || x.givenUp).toNat
    rw [hopen, Bool.true_or]
    rfl
  asked := by
    show x.asked + 1 = d.usbPermissionAttempts + 1 + x.lost
    rw [h.asked, Nat.add_right_comm]
  limit := hleft

/-- One of an Activity that is gone is neither. -/
theorem Waits.ask_late (h : Waits d x) (i : ℕ) (l : Late) (found : Option Found) (o : Opening)
    (hopen : x.unanswered = 0) (hleft : x.asked < maxUsbPermissionAttempts) :
    Waits d (x.ask (.late i l found o)) where
  unanswered := by
    show x.unanswered + 1 = (d.awaitingUsbPermission || true).toNat
    rw [hopen, Bool.or_true]
    rfl
  asked := by
    show x.asked + 1 = d.usbPermissionAttempts + (x.lost + 1)
    rw [h.asked, Nat.add_assoc]
  limit := hleft

/-! ## Runs -/

/-- The counts agree, and an Activity that is not there knows nothing. -/
structure Agrees (x : Asking) : Prop where
  waits : Waits x.1.state.activity.dialog x.2
  gone : x.1.state.activity.created = false → x.1.state.activity.dialog = ⟨false, false, 0⟩

/-- Before the search of an event the rules hold. -/
theorem Agrees.hear {x : Asking} (h : Agrees x) (e : Process.Step) :
    (x.2.hear x.1 e).asked ≤ maxUsbPermissionAttempts ∧ (x.2.hear x.1 e).unanswered ≤ 1 := by
  cases e with
  | late i l found o => exact ⟨h.waits.limit, h.waits.single⟩
  | now e =>
      by_cases hcreated : x.1.state.activity.created = true
      · have hwaits := h.waits.hear (e := e) hcreated
        exact ⟨hwaits.limit, hwaits.single⟩
      · have hgone := h.gone (eq_false_of_ne_true hcreated)
        have hwaits := (hgone ▸ h.waits).hear_gone (e := e) false hgone
        exact ⟨hwaits.limit, hwaits.single⟩

/-- A search that asks is one request more; only an `onResume` may clear the counts first. -/
theorem see_of_asks {x : Asking} {e : Process.Step} (hasks : x.1.asks e = true)
    (hresumes : ¬ e.Resumes) : (x.2.see x.1 e).asked = x.2.asked + 1 ∧
      (x.2.see x.1 e).unanswered = x.2.unanswered + 1 := by
  rw [Requests.see, if_pos hasks]
  cases e with
  | late i l found o => exact ⟨rfl, rfl⟩
  | now e =>
      obtain ⟨-, hasks⟩ := Bool.and_eq_true_iff.1 hasks
      cases e with
      | onResume found o => exact absurd trivial hresumes
      | onServiceConnected | deviceAttached | runSearch | runReconnect | runPermissionRetry =>
          exact ⟨rfl, rfl⟩
      | _ => exact absurd hasks Bool.false_ne_true

/-- A genuine return begins with its request; in any other the dialog is one more. -/
theorem see_of_resumes {x : Asking} {e : Process.Step} (hasks : x.1.asks e = true)
    (hresumes : e.Resumes) : (x.2.unanswered = 0 → x.2.see x.1 e = ⟨1, 1, false, 0⟩) ∧
      (x.2.unanswered ≠ 0 → (x.2.see x.1 e).unanswered = x.2.unanswered + 1) := by
  rw [Requests.see, if_pos hasks]
  cases e with
  | late i l found o => exact absurd hresumes id
  | now e =>
      cases e with
      | onResume found o =>
          obtain ⟨hcreated, -⟩ := Bool.and_eq_true_iff.1 hasks
          simp only [Requests.hear, hcreated, Bool.true_eq_false, if_false]
          refine ⟨fun hopen => ?_, fun hopen => ?_⟩
          · rw [if_pos hopen]
            rfl
          · rw [if_neg hopen]
            by_cases hawait : x.1.state.activity.awaitingUsbPermission = true
            · rw [if_pos hawait]
              rfl
            · rw [if_neg hawait]
              rfl
      | _ => exact absurd hresumes id

/-- **One event.**  Both rules hold after it exactly when it heeds them. -/
theorem limited_step_iff (x : Asking) (e : Process.Step) (h : Agrees x) :
    Limited x e ↔ Heeds x e := by
  obtain ⟨hasked, hunanswered⟩ := h.hear e
  by_cases hasks : x.1.asks e = true
  · have hfree : x.2.unanswered = 0 ↔
        x.1.state.activity.awaitingUsbPermission = false ∧ x.2.givenUp = false :=
      h.waits.unanswered_eq_zero_iff
    by_cases hresumes : e.Resumes
    · obtain ⟨hgenuine, hdialog⟩ := see_of_resumes hasks hresumes
      by_cases hopen : x.2.unanswered = 0
      · have hsee := hgenuine hopen
        refine iff_of_true ⟨?_, ?_⟩ ⟨fun _ => hfree.1 hopen, fun _ hnot => absurd hresumes hnot⟩
        · rw [hsee]
          decide
        · rw [hsee]
      · have hmore := hdialog hopen
        refine iff_of_false (fun hlimited => ?_) fun hheeds => hopen (hfree.2 (hheeds.single hasks))
        have hsingle := hlimited.single
        omega
    · obtain ⟨hmore, hopen⟩ := see_of_asks hasks hresumes
      have hcount : x.2.asked = x.1.state.activity.usbPermissionAttempts + x.2.lost :=
        h.waits.asked
      constructor
      · rintro ⟨hbudget, hsingle⟩
        refine ⟨fun _ => hfree.1 (by omega), fun _ _ => ?_⟩
        rw [← hcount]
        omega
      · rintro ⟨hsingle, hbudget⟩
        have hzero := hfree.2 (hsingle hasks)
        have hleft := hbudget hasks hresumes
        exact ⟨by omega, by omega⟩
  · refine iff_of_true ⟨?_, ?_⟩ ⟨fun h => absurd h hasks, fun h => absurd h hasks⟩
    · rw [Requests.see, if_neg hasks]
      exact hasked
    · rw [Requests.see, if_neg hasks]
      exact hunanswered

/-- An `onDestroy` leaves no Activity, and does not ask. -/
theorem heard_gone {s : State} {e : Event} (hcreated : s.activity.created = true)
    (h : (s.heard e).created = false) : s.heard e = ⟨false, false, 0⟩ ∧ s.asks e = false := by
  cases e with
  | onDestroy => exact ⟨rfl, rfl⟩
  | onCreate => exact absurd h Bool.false_ne_true.symm
  | _ => exact absurd (hcreated.symm.trans h) Bool.false_ne_true.symm

/-- An Activity that is gone does nothing to the one that is there. -/
theorem activity_late (p : Process) (i : ℕ) (l : Late) (found : Option Found) (o : Opening) :
    (p.step (.late i l found o)).state.activity = p.state.activity := by
  rw [Process.step]
  split <;> rfl

/-- **One event keeps the counts in step**, when both rules hold after it. -/
theorem agrees_step (x : Asking) (e : Process.Step) (h : Agrees x) (hlimited : Limited x e) :
    Agrees (watched Process.step Requests.see x e) := by
  obtain ⟨p, x⟩ := x
  obtain ⟨hbudget, hsingle⟩ := hlimited
  show Agrees (p.step e, x.see p e)
  rw [Requests.see] at hbudget hsingle ⊢
  cases e with
  | late i l found o =>
      have hsame := activity_late p i l found o
      refine ⟨?_, fun hgone => ?_⟩
      · show Waits (p.step (.late i l found o)).state.activity.dialog _
        rw [hsame]
        split_ifs at hbudget hsingle ⊢ with hasks
        · exact h.waits.ask_late i l found o
            (Nat.eq_zero_of_le_zero (Nat.le_of_succ_le_succ hsingle)) hbudget
        · exact h.waits
      · simp only [hsame] at hgone ⊢
        exact h.gone hgone
  | now e =>
      by_cases hcreated : p.state.activity.created = true
      · have hasks : p.asks (.now e) = p.state.asks e := by
          rw [Process.asks, hcreated, Bool.true_and]
        have hwaits := h.waits.hear (e := e) hcreated
        have hdialog : (p.step (.now e)).state.activity.dialog =
            if p.state.asks e then (p.state.heard e).ask else p.state.heard e :=
          State.dialog_step p.state e hcreated
        rw [hasks] at hbudget hsingle ⊢
        refine ⟨?_, fun hgone => ?_⟩
        · show Waits (p.step (.now e)).state.activity.dialog _
          rw [hdialog]
          split_ifs at hbudget hsingle ⊢ with hask
          · exact hwaits.ask_now e
              (Nat.eq_zero_of_le_zero (Nat.le_of_succ_le_succ hsingle)) hbudget
          · exact hwaits
        · have hnone : (p.state.heard e).created = false := by
            have hnow : (p.step (.now e)).state.activity.dialog.created = false := hgone
            rw [hdialog] at hnow
            split_ifs at hnow <;> exact hnow
          obtain ⟨hheard, hask⟩ := heard_gone hcreated hnone
          show (p.step (.now e)).state.activity.dialog = _
          rw [hdialog, hask, if_neg Bool.false_ne_true, hheard]
      · have hgone := h.gone (eq_false_of_ne_true hcreated)
        have hasks : p.asks (.now e) = false := by
          rw [Process.asks, eq_false_of_ne_true hcreated, Bool.false_and]
        rw [hasks, if_neg Bool.false_ne_true]
        have hbefore : Waits ⟨false, false, 0⟩ x := hgone ▸ h.waits
        rcases State.dialog_step_gone p.state e (eq_false_of_ne_true hcreated) with hnew | hsame
        · refine ⟨?_, fun hnot => ?_⟩
          · show Waits (p.state.step e).activity.dialog _
            rw [hnew]
            exact hbefore.hear_gone true hgone
          · have hthere : (p.state.step e).activity.dialog.created = false := hnot
            rw [hnew] at hthere
            exact absurd hthere Bool.false_ne_true.symm
        · have hsame' : (p.state.step e).activity.dialog = ⟨false, false, 0⟩ := by
            rw [hsame]
            exact hgone
          refine ⟨?_, fun _ => hsame'⟩
          show Waits (p.state.step e).activity.dialog _
          rw [hsame']
          exact hbefore.hear_gone false hgone

/-- **When the dialogs are limited.**  For every run of callbacks, of commands and of what
waits on the views of Activities that are gone: there are never more than three requests
without a grant between two genuine returns to the foreground, and never two without an
answer, exactly when every search that asks finds no dialog open that was given up, or that
another Activity waits for, and, unless it is a genuine return, finds an attempt left, the
lost ones included. -/
theorem limited_iff (service : Service) (es : List Process.Step) :
    Along (watched Process.step Requests.see) Limited (.start service, .none) es ↔
      Along (watched Process.step Requests.see) Heeds (.start service, .none) es := by
  refine along_iff_of_invariant limited_step_iff ?_ ⟨⟨rfl, rfl, Nat.zero_le _⟩, fun _ => rfl⟩ es
  exact fun x e h hheeds => agrees_step x e h ((limited_step_iff x e h).2 hheeds)

/-- **Four dialogs, and two at a time.**  Three denials, after which the app gives up, and then
a flash drive is plugged in; a dongle that goes away under its dialog, and the next one. -/
theorem not_limited_attached :
    ¬ Along (watched Process.step Requests.see) Limited (.start .idle, .none)
        [.now .onCreate, .now (.onResume (some ⟨7, false⟩) ⟨true, true⟩),
          .now (.usbPermission (some 7) false ⟨true, true⟩),
          .now (.runPermissionRetry (some ⟨7, false⟩) ⟨true, true⟩),
          .now (.usbPermission (some 7) false ⟨true, true⟩),
          .now (.runPermissionRetry (some ⟨7, false⟩) ⟨true, true⟩),
          .now (.usbPermission (some 7) false ⟨true, true⟩),
          .now (.deviceAttached (some ⟨7, false⟩) ⟨true, true⟩)] ∧
      ¬ Along (watched Process.step Requests.see) Limited (.start .idle, .none)
        [.now .onCreate, .now (.onResume (some ⟨7, false⟩) ⟨true, true⟩),
          .now (.deviceDetached 7 1000),
          .now (.deviceAttached (some ⟨8, false⟩) ⟨true, true⟩)] := by
  constructor
  · rintro ⟨-, -, -, -, -, -, -, hlimited, -⟩
    exact absurd hlimited.budget (by decide)
  · rintro ⟨-, -, -, hlimited, -⟩
    exact absurd hlimited.single (by decide)

end App
end Carlinkit
