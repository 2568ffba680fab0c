/-
# Telling the session about the Surface

Three callbacks can come last before the picture: the dongle is opened
(`openDevice`), the service is connected to a session that is active already
(`onServiceConnected`), or the Surface is there (`surfaceChanged`).  Each of them
calls `onSurfaceReady` when the other two are done.  `surfaceChanged` first looks
at `pendingDevice`, and `onServiceConnected` leaves a pending device where it is
when there is a session.

`told_iff` says what this is good for: the session is told in every run in which no
`surfaceChanged` meets a device that is left over like this.
-/

import Carlinkit.App.Activity

namespace Carlinkit
namespace App
namespace State

open Machine

/-- With the service connected, a session active and the Surface there, the session was
told so, and is not muted. -/
def Told (s : State) : Prop :=
  s.activity.connected = true → s.service.isStarted = true → s.activity.sessionStarted = true →
    s.activity.lastSurface = some .changed →
      ∀ x ∈ s.service.session, x.surfaceReady = true ∧ x.muted = false

/-- No Surface comes while a device is pending although the session is open and waits for
the Surface. -/
def NotPending (s : State) : Event → Prop
  | .surfaceChanged _ _ =>
      s.activity.created = true → s.activity.pendingDevice ≠ none →
        s.activity.connected = true → s.service.isStarted = true →
          s.activity.sessionStarted = true →
            ∀ x ∈ s.service.session, x.surfaceReady = true
  | _ => True

/-- The events of the Activity and the searches that it scheduled; the service is given no
new device from outside, and the view changes its size with the Surface. -/
def OfActivity : Event → Prop
  | .serviceDeviceAttached .. | .layout .. => False
  | _ => True

/-- A Surface that was reported is ready. -/
def Shown (a : Activity) : Prop := a.lastSurface = some .changed → a.view.surfaceReady = true

/-- What every callback keeps. -/
structure Lit (s : State) : Prop where
  told : s.Told
  shown : Shown s.activity

variable {s : State}

/-- With no session open there is nothing to tell. -/
theorem Told.of_not_started (h : s.activity.sessionStarted = false) : s.Told := by
  intro _ _ hstarted
  simp [h] at hstarted

/-- A session that was just told. -/
theorem told_onSurfaceReady (a : Activity) (service : Service) :
    Told ⟨a, service.onSurfaceReady⟩ := by
  intro _ _ _ _ x hx
  obtain ⟨x', -, rfl⟩ : ∃ x', service.session = some x' ∧ x'.onSurfaceReady = x := by
    simpa [Service.onSurfaceReady] using hx
  exact ⟨rfl, rfl⟩

/-- What leaves `surfaceReady` and `muted` alone keeps what was told. -/
theorem Told.map (h : s.Told) (f : Session → Session)
    (hf : ∀ x, (f x).surfaceReady = x.surfaceReady ∧ (f x).muted = x.muted) :
    Told { s with service := { s.service with session := s.service.session.map f } } := by
  intro hc hs hst hchanged x hx
  obtain ⟨x', hx', rfl⟩ : ∃ x', s.service.session = some x' ∧ f x' = x := by simpa using hx
  have hs' : s.service.isStarted = true := by simpa [Service.isStarted] using hs
  rw [(hf x').1, (hf x').2]
  exact h hc hs' hst hchanged x' hx'

theorem shown_openDevice (h : Shown s.activity) (device : ℕ) (o : Opening) :
    Shown (openDevice device o s).activity := by
  rcases openDevice_cases device o s with
    ⟨-, heq⟩ | ⟨-, -, heq⟩ | ⟨-, -, -, ⟨-, heq⟩ | ⟨-, a, heq, hview, hlast⟩⟩
  · rwa [heq]
  · rw [heq]
    exact h
  · rw [heq]
    exact h
  · rw [heq, Shown, hview, hlast]
    exact h

theorem Lit.openDevice (h : s.Lit) (device : ℕ) (o : Opening) : (openDevice device o s).Lit := by
  refine ⟨?_, shown_openDevice h.shown device o⟩
  rcases openDevice_cases device o s with
    ⟨-, heq⟩ | ⟨hstarted, -, heq⟩ | ⟨hstarted, -, -, ⟨-, heq⟩ | ⟨-, a, heq, -⟩⟩
  · rw [heq]
    exact h.told
  · rw [heq]
    exact .of_not_started hstarted
  · rw [heq]
    exact .of_not_started hstarted
  · rw [heq]
    exact told_onSurfaceReady _ _

theorem Lit.congr (h : s.Lit) {a : Activity} (ha : a.Alike s.activity) : Lit ⟨a, s.service⟩ where
  told := by
    simp only [Told, ha.connected, ha.sessionStarted, ha.lastSurface]
    exact h.told
  shown := by
    simp only [Shown, ha.lastSurface, ha.view]
    exact h.shown

theorem Lit.findAndOpenDongle (h : s.Lit) (found : Option Found) (o : Opening) :
    (findAndOpenDongle found o s).Lit := by
  rcases findAndOpenDongle_cases found o s with
    ⟨-, -, d, -, -, a, heq, ha⟩ | ⟨-, a, heq, ha⟩
  · rw [heq]
    exact (h.congr ha).openDevice d.device o
  · rw [heq]
    exact h.congr ha

theorem Lit.delayedSearch (h : s.Lit) (found : Option Found) (o : Opening) :
    (delayedSearch found o s).Lit := by
  unfold State.delayedSearch
  split_ifs
  · exact h.findAndOpenDongle found o
  · exact h

/-- Letting go of the screen closes the session for the Activity. -/
theorem Lit.releaseSurface (h : s.Lit) : s.releaseSurface.Lit :=
  ⟨.of_not_started rfl, h.shown⟩

theorem Lit.scheduleDongleReconnect (h : s.Lit) (now : ℕ) :
    (scheduleDongleReconnect now s).Lit := by
  unfold State.scheduleDongleReconnect
  dsimp only
  split_ifs <;> exact ⟨h.told, h.shown⟩

theorem Lit.onResume (h : s.Lit) (found : Option Found) (o : Opening) :
    (onResume found o s).Lit := by
  unfold State.onResume
  refine Lit.findAndOpenDongle ?_ found o
  dsimp only
  split_ifs <;> exact ⟨h.told, h.shown⟩

theorem Lit.usbPermission (h : s.Lit) (device : Option ℕ) (granted : Bool) (o : Opening) :
    (usbPermission device granted o s).Lit := by
  unfold State.usbPermission
  split
  · refine Lit.openDevice ?_ _ o
    exact ⟨h.told, h.shown⟩
  · dsimp only
    split_ifs <;> exact ⟨h.told, h.shown⟩

/-- A session that is active already is told at once, or there is no Surface yet. -/
theorem Lit.onServiceConnected (h : s.Lit) (found : Option Found) (o : Opening) :
    (onServiceConnected found o s).Lit := by
  unfold State.onServiceConnected
  dsimp only
  by_cases hstarted : s.service.isStarted = true
  · rw [if_pos hstarted]
    split_ifs with hready
    · exact ⟨told_onSurfaceReady _ _, h.shown⟩
    · refine ⟨?_, h.shown⟩
      intro _ _ _ hchanged
      exact absurd (h.shown hchanged) hready
  · rw [if_neg hstarted]
    have hidle : ∀ a : Activity, Told ⟨a, s.service⟩ := fun a _ hs => absurd hs hstarted
    split
    · refine Lit.openDevice ?_ _ o
      exact ⟨hidle _, h.shown⟩
    · refine Lit.findAndOpenDongle ?_ found o
      exact ⟨hidle _, h.shown⟩

theorem Lit.run (h : s.Lit) {waiting : Posted → ℕ} {taken : Posted → Posted}
    {body : State → State} (hbody : ∀ s : State, s.Lit → (body s).Lit) :
    (run waiting taken body s).Lit := by
  unfold State.run
  split_ifs
  · exact h
  · exact hbody _ ⟨h.told, h.shown⟩

theorem Lit.muteDongleCheck (h : s.Lit) : (muteDongleCheck s).Lit := by
  unfold State.muteDongleCheck
  split_ifs
  · exact h
  · exact ⟨h.told, h.shown⟩
  · exact h

theorem Lit.sessionHeartbeat (h : s.Lit) : (sessionHeartbeat s).Lit := by
  unfold State.sessionHeartbeat
  split_ifs
  · exact h
  · exact ⟨h.told, h.shown⟩

/-- **The Surface comes.**  The session is told, unless the session is open and a device is
pending: then the device is dropped, and nothing else happens. -/
theorem told_surfaceChanged_iff (size : Size) (o : Opening) :
    (surfaceChanged size o s).Told ↔
      (s.activity.pendingDevice ≠ none → s.activity.connected = true →
        s.service.isStarted = true → s.activity.sessionStarted = true →
          ∀ x ∈ s.service.session, x.surfaceReady = true) := by
  unfold surfaceChanged
  dsimp only
  cases hpending : s.activity.pendingDevice with
  | none =>
      dsimp only
      refine iff_of_true ?_ (by simp)
      split_ifs with hconnected
      · exact told_onSurfaceReady _ _
      · exact fun hc => absurd hc hconnected
  | some d =>
      dsimp only
      by_cases hstarted : s.activity.sessionStarted = true
      · rw [openDevice, if_pos hstarted]
        constructor
        · exact fun htold _ hc hs hst x hx => (htold hc hs hst rfl x hx).1
        · intro hready hc hs hst _ x hx
          have hx' := hready (by simp) hc hs hst x hx
          exact ⟨hx', x.unmuted hx'⟩
      · refine iff_of_true ?_ fun _ _ _ hst => absurd hst hstarted
        refine (Lit.openDevice ?_ d o).told
        exact ⟨.of_not_started (by simpa using hstarted), fun _ => size.surfaceReady⟩

theorem shown_surfaceChanged (size : Size) (o : Opening) :
    Shown (surfaceChanged size o s).activity := by
  unfold surfaceChanged
  dsimp only
  split
  · exact shown_openDevice (fun _ => size.surfaceReady) _ o
  · split_ifs <;> exact fun _ => size.surfaceReady

/-- What comes to the service takes a session away or leaves it as it is. -/
theorem Lit.serviceStep (h : s.Lit) {e : Event} (ha : OfActivity e) :
    Lit { s with service := serviceStep s.service e } := by
  refine ⟨?_, h.shown⟩
  cases e with
  | stop => exact fun _ hs => by simp [State.serviceStep, Service.stopSession,
      Service.isStarted] at hs
  | serviceOnDestroy => exact fun _ hs => by simp [State.serviceStep, Service.stopSession,
      Service.isStarted] at hs
  | received => exact h.told.map _ fun x => ⟨rfl, rfl⟩
  | serviceDeviceAttached => exact absurd ha (by simp [OfActivity])
  | _ => exact h.told

theorem Lit.activityStep (h : s.Lit) {e : Event} (ha : OfActivity e)
    (hnot : ∀ size o, e ≠ .surfaceChanged size o) : (activityStep s e).Lit := by
  cases e with
  | onCreate => exact ⟨.of_not_started rfl, by simp [Shown, State.activityStep, Activity.fresh]⟩
  | onResume found o => exact h.onResume found o
  | onServiceConnected found o => exact h.onServiceConnected found o
  | onServiceDisconnected => exact ⟨.of_not_started rfl, h.shown⟩
  | usbPermission device granted o => exact h.usbPermission device granted o
  | deviceDetached device now => exact h.releaseSurface.scheduleDongleReconnect now
  | deviceAttached found o =>
      simp only [State.activityStep, deviceAttached]
      split_ifs
      · exact h
      · exact h.findAndOpenDongle found o
  | surfaceCreated =>
      refine ⟨?_, by simp [Shown, State.activityStep]⟩
      intro _ _ _ hchanged
      simp [State.activityStep] at hchanged
  | surfaceDestroyed =>
      refine ⟨?_, by simp [Shown, State.activityStep, surfaceDestroyed]⟩
      intro _ _ _ hchanged
      simp [State.activityStep, surfaceDestroyed] at hchanged
  | onUserLeaveHint recent =>
      simp only [State.activityStep]
      split_ifs
      · exact h
      · exact ⟨h.told, h.shown⟩
  | onBackPressed now inCall =>
      simp only [State.activityStep, onBackPressed]
      split_ifs
      · exact h
      · exact ⟨h.told, h.shown⟩
      · exact ⟨.of_not_started rfl, h.shown⟩
  | onWindowFocusChanged hasFocus =>
      simp only [State.activityStep]
      split_ifs
      · exact ⟨h.told.map _ fun x => ⟨rfl, rfl⟩, h.shown⟩
      · exact h
  | onStatusClick phoneConnected =>
      simp only [State.activityStep]
      split_ifs
      · exact h
      · exact ⟨.of_not_started rfl, h.shown⟩
  | onDestroy => exact ⟨.of_not_started rfl, by simp [Shown, State.activityStep, onDestroy,
      Activity.fresh]⟩
  | runSearch found o =>
      simp only [State.activityStep]
      exact h.run fun _ hs => hs.delayedSearch found o
  | runReconnect found o =>
      simp only [State.activityStep]
      exact h.run fun _ hs => hs.delayedSearch found o
  | runPermissionRetry found o =>
      simp only [State.activityStep]
      exact h.run fun _ hs => hs.findAndOpenDongle found o
  | runMuteCheck =>
      simp only [State.activityStep]
      exact h.run fun _ hs => hs.muteDongleCheck
  | runHeartbeat =>
      simp only [State.activityStep]
      exact h.run fun _ hs => hs.sessionHeartbeat
  | surfaceChanged size o => exact absurd rfl (hnot size o)
  | layout | serviceDeviceAttached => exact absurd ha (by simp [OfActivity])
  | onNewIntent => exact ⟨h.told, h.shown⟩
  | stop | serviceOnDestroy | received => exact h

/-- One callback keeps all of it, unless a Surface comes while a device is pending. -/
theorem Lit.step (h : s.Lit) {e : Event} (ha : OfActivity e) (hn : s.NotPending e) :
    (step s e).Lit := by
  have hservice := h.serviceStep ha
  rcases step_cases s e with ⟨hcreated, heq⟩ | ⟨-, -, heq⟩
  · rw [heq]
    cases e with
    | surfaceChanged size o =>
        refine ⟨?_, shown_surfaceChanged size o⟩
        exact (told_surfaceChanged_iff size o).2 (hn (hcreated.resolve_right (by simp)))
    | _ => exact hservice.activityStep ha (by simp)
  · rwa [heq]

theorem told_step_iff (h : s.Lit) {e : Event} (ha : OfActivity e) :
    (step s e).Told ↔ s.NotPending e := by
  constructor
  · intro htold
    cases e with
    | surfaceChanged size o =>
        intro hcreated
        simp only [step, hcreated, if_true] at htold
        exact (told_surfaceChanged_iff size o).1 htold
    | _ => trivial
  · exact fun hn => (h.step ha hn).told

/-- **When the session is told.**  For every order of the Activity's callbacks over every
service: with the service connected, a session active and open, and the Surface there, the
session was told so since it last lost the Surface, exactly when no Surface ever comes while
a device is pending although the session is open and waits. -/
theorem told_iff (service : Service) (es : List Event) (h : ∀ e ∈ es, OfActivity e) :
    Along step (fun s e => (step s e).Told) (start service) es ↔
      Along step NotPending (start service) es :=
  along_iff (I := Lit) (A := fun _ e => OfActivity e) (fun _ _ hs ha => told_step_iff hs ha)
    (fun _ _ hs ha hn => hs.step ha hn)
    ⟨.of_not_started rfl, by simp [Shown, start, Activity.fresh]⟩ (along_of_forall_mem h _)

/-- A service with a session that lost its Activity. -/
def background : Service where
  session := some (Session.started ⟨1, 0⟩).detachSurface
  connection := some ⟨1, 0⟩
  started := true
  detaches := []
  ensured := []

/-- Back in the app, which does not find the dongle before the service is connected; the Surface
comes, goes and comes back. -/
def returned (size : Size) : List Event :=
  [.onCreate, .onResume none ⟨true, true⟩, .onServiceConnected none ⟨true, true⟩,
    .surfaceCreated, .surfaceChanged size ⟨true, true⟩, .surfaceDestroyed, .surfaceCreated,
    .surfaceChanged size ⟨true, true⟩]

/-- The session that was active all the time is told both times. -/
theorem told_iff_returned :
    let es := returned ⟨800, 480, by decide, by decide⟩
    Along step (fun s e => (step s e).Told) (start background) es ∧
      (Machine.run step (start background) es).service.session.map
        (fun x => (x.surfaceReady, x.muted)) = some (true, false) := by
  intro es
  refine ⟨(told_iff background es (by simp [es, returned, OfActivity])).2
    ⟨trivial, trivial, trivial, trivial, ?_, trivial, trivial, ?_, trivial⟩, rfl⟩
  · exact fun _ hpending => absurd rfl hpending
  · exact fun _ hpending => absurd rfl hpending

/-- **Back in the app, and no picture.**  The session is still there.  `onResume` finds the
dongle before the service is connected and leaves it pending; `onServiceConnected` takes the
session and leaves the device; and the Surface, when it comes, is spent on the device. -/
theorem not_told_background :
    ¬ Along step (fun s e => (step s e).Told) (start background)
      [.onCreate, .onResume (some ⟨1, true⟩) ⟨true, true⟩, .onServiceConnected none ⟨true, true⟩,
        .surfaceCreated, .surfaceChanged ⟨800, 480, by decide, by decide⟩ ⟨true, true⟩] := by
  rintro ⟨-, -, -, -, htold, -⟩
  obtain ⟨hready, -⟩ := htold rfl rfl rfl rfl _ rfl
  exact absurd hready (by decide)

end State
end App
end Carlinkit
