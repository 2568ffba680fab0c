/-
# Opening the dongle again

`ensureStarted` answers yes as soon as there is a session.  The DETACHED broadcast
makes the Activity let go of the screen and search again, but nobody tells the
service: its session stays, on an instance of the dongle that is gone.  Only
`ACTION_STOP` and `ACTION_DEVICE_ATTACHED` end it.

`honest_iff` follows the answers of `ensureStarted` over every run of callbacks.
They are right exactly as long as the Activity asks for no device while the service
holds such a session (`Reuses`).
-/

import Carlinkit.App.Activity

namespace Carlinkit
namespace App
namespace State

open Machine

/-- A search found a device that may be opened. -/
def Granted (found : Option Found) : Prop := ∃ d ∈ found, d.permitted = true

instance (found : Option Found) : Decidable (Granted found) :=
  inferInstanceAs (Decidable (∃ d ∈ found, _))

/-- `openDevice` would reach `ensureStarted`, and the service has a session. -/
def Reusing (s : State) : Prop :=
  s.activity.sessionStarted = false ∧ s.activity.view.surfaceReady = true ∧
    s.activity.connected = true ∧ s.service.isStarted = true

instance (s : State) : Decidable s.Reusing := inferInstanceAs (Decidable (_ ∧ _ ∧ _ ∧ _))

/-- The callback calls `openDevice`, with the view as it is then, and `ensureStarted`
is going to find a session. -/
def Reuses (s : State) : Event → Prop
  | .usbPermission device granted _ => granted = true ∧ device ≠ none ∧ s.Reusing
  | .onResume found _ | .runPermissionRetry found _ =>
      s.activity.awaitingUsbPermission = false ∧ Granted found ∧ s.Reusing
  | .deviceAttached found _ | .runSearch found _ | .runReconnect found _ =>
      s.activity.userLeft = false ∧ s.activity.awaitingUsbPermission = false ∧ Granted found ∧
        s.Reusing
  | .surfaceChanged _ _ =>
      s.activity.pendingDevice ≠ none ∧ s.activity.sessionStarted = false ∧
        s.activity.connected = true ∧ s.service.isStarted = true
  | _ => False

/-- An event that has something to run: a `Runnable` waits, and the Activity is there. -/
def Happens (s : State) : Event → Prop
  | .runSearch _ _ => s.activity.created = true ∧ s.activity.posted.searches ≠ 0
  | .runReconnect _ _ => s.activity.created = true ∧ s.activity.posted.reconnects ≠ 0
  | .runPermissionRetry _ _ =>
      s.activity.created = true ∧ s.activity.posted.permissionRetries ≠ 0
  | _ => s.activity.created = true

/-- The Activity asks for no device while the service has a session on an instance that
is gone. -/
def Fresh (s : State) (e : Event) : Prop := s.Happens e → s.Reuses e → s.service.Live

/-- Every answer of `ensureStarted` is right after the step, and a reconnection that ends
with a session ends on a live connection. -/
def Honest (s : State) (e : Event) : Prop :=
  (step s e).service.Honest ∧
    match e with
    | .runReconnect _ _ =>
        s.activity.sessionStarted = false → (step s e).activity.sessionStarted = true →
          (step s e).service.Live
    | _ => True

variable {s : State}

/-- What an answer in `openDevice` is worth. -/
theorem honest_openDevice (h : s.service.Honest) (device : ℕ) (o : Opening) :
    (openDevice device o s).service.Honest ↔ (s.Reusing → s.service.Live) := by
  rcases openDevice_cases device o s with
    ⟨hstarted, heq⟩ | ⟨-, hnot, heq⟩ | ⟨hstarted, hready, hconnected, hopen⟩
  · rw [heq]
    refine iff_of_true h fun hreusing => ?_
    simp [hreusing.1] at hstarted
  · rw [heq]
    exact iff_of_true h fun hreusing => absurd ⟨hreusing.2.1, hreusing.2.2.1⟩ hnot
  · have hreusing : s.Reusing ↔ s.service.isStarted = true :=
      ⟨fun hr => hr.2.2.2, fun hs => ⟨hstarted, hready, hconnected, hs⟩⟩
    rw [hreusing, ← Service.honest_ensureStarted device o h]
    rcases hopen with ⟨-, heq⟩ | ⟨-, a, heq, -⟩
    · rw [heq]
    · rw [heq]
      rfl

/-- A session that `openDevice` ends with is live, unless it was there and was not. -/
theorem live_openDevice {device : ℕ} {o : Opening} (hbefore : s.activity.sessionStarted = false)
    (hafter : (openDevice device o s).activity.sessionStarted = true)
    (hlive : s.Reusing → s.service.Live) : (openDevice device o s).service.Live := by
  rcases openDevice_cases device o s with
    ⟨hstarted, -⟩ | ⟨-, -, heq⟩ | ⟨-, hready, hconnected, ⟨-, heq⟩ | ⟨hresult, a, heq, -⟩⟩
  · simp [hbefore] at hstarted
  · simp [heq, hbefore] at hafter
  · simp [heq, hbefore] at hafter
  · rw [heq]
    refine (Service.live_onSurfaceReady _).2 ((Service.live_attachSurface _ _).2 ?_)
    exact (Service.live_openSession device o hresult).2
      fun hs => hlive ⟨hbefore, hready, hconnected, hs⟩

theorem reusing_congr {a : Activity} (ha : a.Alike s.activity) :
    Reusing ⟨a, s.service⟩ ↔ s.Reusing := by
  simp only [Reusing, ha.sessionStarted, ha.view, ha.connected]

theorem honest_findAndOpenDongle (h : s.service.Honest) (found : Option Found) (o : Opening) :
    (findAndOpenDongle found o s).service.Honest ↔
      (s.activity.awaitingUsbPermission = false → Granted found → s.Reusing → s.service.Live) := by
  rcases findAndOpenDongle_cases found o s with
    ⟨-, hawait, d, hd, hpermitted, a, heq, ha⟩ | ⟨hnot, a, heq, -⟩
  · have hopen := honest_openDevice (s := ⟨a, s.service⟩) h d.device o
    rw [heq, hopen, reusing_congr ha]
    exact ⟨fun hlive _ _ => hlive, fun hlive => hlive hawait ⟨d, hd, hpermitted⟩⟩
  · rw [heq]
    exact iff_of_true h fun hawait hgranted hreusing =>
      absurd ⟨hreusing.1, hawait, hgranted⟩ hnot

theorem live_findAndOpenDongle {found : Option Found} {o : Opening}
    (hbefore : s.activity.sessionStarted = false)
    (hafter : (findAndOpenDongle found o s).activity.sessionStarted = true)
    (hlive : s.activity.awaitingUsbPermission = false → Granted found → s.Reusing →
      s.service.Live) : (findAndOpenDongle found o s).service.Live := by
  rcases findAndOpenDongle_cases found o s with
    ⟨-, hawait, d, hd, hpermitted, a, heq, ha⟩ | ⟨-, a, heq, ha⟩
  · rw [heq] at hafter ⊢
    refine live_openDevice (ha.sessionStarted.trans hbefore) hafter fun hreusing => ?_
    exact hlive hawait ⟨d, hd, hpermitted⟩ ((reusing_congr ha).1 hreusing)
  · simp [heq, ha.sessionStarted, hbefore] at hafter

theorem honest_delayedSearch (h : s.service.Honest) (found : Option Found) (o : Opening) :
    (delayedSearch found o s).service.Honest ↔
      (s.activity.userLeft = false → s.activity.awaitingUsbPermission = false →
        Granted found → s.Reusing → s.service.Live) := by
  unfold delayedSearch
  split_ifs with hgo
  · rw [honest_findAndOpenDongle h]
    exact ⟨fun hlive _ => hlive, fun hlive => hlive hgo.2⟩
  · refine iff_of_true h ?_
    intro hleft _ _ hreusing
    exact absurd ⟨hreusing.1, hleft⟩ hgo

theorem honest_onResume (h : s.service.Honest) (found : Option Found) (o : Opening) :
    (onResume found o s).service.Honest ↔
      (s.activity.awaitingUsbPermission = false → Granted found → s.Reusing →
        s.service.Live) := by
  unfold onResume
  dsimp only
  split_ifs with hawait
  · refine (honest_findAndOpenDongle ?_ found o).trans ?_
    · exact h
    · simp [Reusing]
  · refine (honest_findAndOpenDongle ?_ found o).trans ?_
    · exact h
    · simp [Reusing]

theorem honest_onServiceConnected (h : s.service.Honest) (found : Option Found) (o : Opening) :
    (onServiceConnected found o s).service.Honest := by
  unfold onServiceConnected
  dsimp only
  by_cases hstarted : s.service.isStarted = true
  · rw [if_pos hstarted]
    dsimp only
    split_ifs <;> exact h
  · -- with no session there is nothing to be wrong about
    rw [if_neg hstarted]
    split
    · refine (honest_openDevice ?_ _ o).2 fun hreusing => absurd hreusing.2.2.2 hstarted
      exact h
    · refine (honest_findAndOpenDongle ?_ found o).2
        fun _ _ hreusing => absurd hreusing.2.2.2 hstarted
      exact h

theorem honest_usbPermission (h : s.service.Honest) (device : Option ℕ) (granted : Bool)
    (o : Opening) :
    (usbPermission device granted o s).service.Honest ↔
      (granted = true ∧ device ≠ none ∧ s.Reusing → s.service.Live) := by
  unfold usbPermission
  cases granted with
  | false =>
      dsimp only
      refine iff_of_true ?_ (by simp)
      split_ifs <;> exact h
  | true =>
      cases device with
      | none =>
          dsimp only
          refine iff_of_true ?_ (by simp)
          split_ifs <;> exact h
      | some d =>
          dsimp only
          refine (honest_openDevice ?_ d o).trans ?_
          · exact h
          · simp [Reusing]

theorem honest_surfaceChanged (h : s.service.Honest) (size : Size) (o : Opening) :
    (surfaceChanged size o s).service.Honest ↔
      (s.activity.pendingDevice ≠ none ∧ s.activity.sessionStarted = false ∧
        s.activity.connected = true ∧ s.service.isStarted = true → s.service.Live) := by
  unfold surfaceChanged
  dsimp only
  cases hpending : s.activity.pendingDevice with
  | none =>
      dsimp only
      refine iff_of_true ?_ (by simp)
      split_ifs <;> exact h
  | some d =>
      dsimp only
      refine (honest_openDevice ?_ d o).trans ?_
      · exact h
      · simp [Reusing, size.surfaceReady]

theorem honest_left {service service' : Service} (h : service.Honest)
    (hleft : service.Left service') : service'.Honest := by
  rcases hleft with rfl | rfl | ⟨taken, rfl⟩ <;> exact h

theorem service_scheduleDongleReconnect (now : ℕ) :
    (scheduleDongleReconnect now s).service = s.service := by
  unfold scheduleDongleReconnect
  dsimp only
  split_ifs <;> rfl

/-- A `Runnable` that does not wait does nothing. -/
theorem honest_run (h : s.service.Honest) {waiting : Posted → ℕ} {taken : Posted → Posted}
    {body : State → State} {p : Prop}
    (hbody : ∀ posted, (body (s.setPosted posted)).service.Honest ↔ p) :
    (run waiting taken body s).service.Honest ↔ (waiting s.activity.posted ≠ 0 → p) := by
  unfold run
  split_ifs with hnone
  · simp [hnone, h]
  · rw [hbody]
    exact ⟨fun hp _ => hp, fun hp => hp hnone⟩

/-- **One callback.**  An answer goes wrong only where `openDevice` meets a session on an
instance that is gone. -/
theorem honest_activityStep (h : s.service.Honest) (hcreated : s.activity.created = true)
    (e : Event) : (activityStep s e).service.Honest ↔ s.Fresh e := by
  unfold Fresh Happens Reuses
  cases e with
  | onResume found o => simp [activityStep, honest_onResume h, hcreated]
  | onServiceConnected found o => simp [activityStep, honest_onServiceConnected h]
  | usbPermission device granted o => simp [activityStep, honest_usbPermission h, hcreated]
  | deviceAttached found o =>
      simp only [activityStep, deviceAttached, hcreated]
      split_ifs with hleft
      · simp [hleft, h]
      · simp [hleft, honest_findAndOpenDongle h]
  | surfaceChanged size o => simp [activityStep, honest_surfaceChanged h, hcreated]
  | deviceDetached device now =>
      refine iff_of_true ?_ (by simp)
      simp only [activityStep, deviceDetached, service_scheduleDongleReconnect]
      exact honest_left h (left_releaseSurface s)
  | onDestroy => exact iff_of_true (honest_left h (left_releaseSurface s)) (by simp)
  | runSearch found o =>
      simp only [activityStep, hcreated, true_and]
      refine honest_run h fun posted => ?_
      rw [honest_delayedSearch (s := s.setPosted posted) h]
      simp [setPosted, Reusing]
  | runReconnect found o =>
      simp only [activityStep, hcreated, true_and]
      refine honest_run h fun posted => ?_
      rw [honest_delayedSearch (s := s.setPosted posted) h]
      simp [setPosted, Reusing]
  | runPermissionRetry found o =>
      simp only [activityStep, hcreated, true_and]
      refine honest_run h fun posted => ?_
      rw [honest_findAndOpenDongle (s := s.setPosted posted) h]
      simp [setPosted, Reusing]
  | runMuteCheck =>
      refine iff_of_true ?_ (by simp)
      refine (honest_run h fun posted => ?_).2 fun _ => trivial
      refine iff_of_true ?_ trivial
      simp only [muteDongleCheck]
      split_ifs <;> exact h
  | onCreate | stop | serviceDeviceAttached | serviceOnDestroy | received =>
      exact iff_of_true h (by simp)
  | _ =>
      refine iff_of_true (honest_left h (left_activityStep ?_ s)) (by simp)
      trivial

/-- What comes from outside to the service itself never reuses a session. -/
theorem honest_serviceStep {service : Service} (h : service.Honest) (e : Event) :
    (serviceStep service e).Honest := by
  cases e with
  | serviceDeviceAttached device permitted o =>
      simp only [serviceStep, Service.deviceAttached]
      split_ifs
      · refine (Service.honest_ensureStarted device o ?_).2 ?_
        · exact h
        · simp [Service.isStarted, Service.stopSession]
      · exact h
  | _ => exact h

theorem fresh_serviceStep (e : Event) :
    ({ s with service := serviceStep s.service e } : State).Fresh e ↔ s.Fresh e := by
  cases e <;> first | rfl | simp [Fresh, Reuses]

theorem honest_service_step (h : s.service.Honest) (e : Event) :
    (step s e).service.Honest ↔ s.Fresh e := by
  have hservice := honest_serviceStep h e
  rcases step_cases s e with ⟨hcreated | rfl, heq⟩ | ⟨hnot, hcreate, heq⟩
  · rw [heq, ← fresh_serviceStep]
    exact honest_activityStep (s := { s with service := serviceStep s.service e }) hservice
      hcreated e
  · exact iff_of_true hservice (by simp [Fresh, Reuses])
  · rw [heq]
    refine iff_of_true hservice ?_
    unfold Fresh Happens
    cases e <;> simp [hnot]

/-- A reconnection that ends with a session ends on a live connection, when what it finds
is not reused or is live. -/
theorem live_runReconnect {found : Option Found} {o : Opening}
    (hfresh : s.Fresh (.runReconnect found o)) (hbefore : s.activity.sessionStarted = false)
    (hafter : (step s (.runReconnect found o)).activity.sessionStarted = true) :
    (step s (.runReconnect found o)).service.Live := by
  simp only [step, serviceStep, activityStep, run] at hafter ⊢
  split_ifs at hafter ⊢ with hcreated hnone
  · simp [hbefore] at hafter
  · unfold delayedSearch at hafter ⊢
    split_ifs at hafter ⊢ with hgo
    · refine live_findAndOpenDongle hgo.1 hafter ?_
      intro hawait hgranted hreusing
      exact hfresh ⟨hcreated, hnone⟩ ⟨hgo.2, hawait, hgranted, hreusing⟩
    · simp [setPosted, hbefore] at hafter
  · simp [hbefore] at hafter

theorem honest_step_iff (h : s.service.Honest) (e : Event) : s.Honest e ↔ s.Fresh e := by
  unfold Honest
  rw [honest_service_step h, and_iff_left_iff_imp]
  intro hfresh
  cases e with
  | runReconnect found o =>
      exact live_runReconnect hfresh
  | _ => trivial

/-- **When the answers are right.**  For every run of callbacks and commands, over every
service that starts without a session: each yes of `ensureStarted` comes with a session on
a live connection, and each reconnection that ends with a session ends on one, exactly when
the Activity never asks for a device while the service has a session on an instance that is
gone. -/
theorem honest_iff (es : List Event) :
    Along step Honest (start .idle) es ↔ Along step Fresh (start .idle) es :=
  along_iff_of_invariant (I := fun s => s.service.Honest) (fun _ e h => honest_step_iff h e)
    (fun _ e h hq => ((honest_step_iff h e).2 hq).1)
    (by simp [start, Service.idle, Service.Honest]) es

/-- A call of the native side that succeeds. -/
def opens : Opening := ⟨true, true⟩

/-- **A reconnection to a dongle that is gone.**  The dongle is detached while its session
runs; the search that was scheduled finds its new instance, and `ensureStarted` answers with
the old session. -/
theorem not_honest_reconnect :
    ¬ Along step Honest (start .idle) [.onCreate, .onServiceConnected (some ⟨1, true⟩) opens,
      .surfaceCreated, .surfaceChanged ⟨800, 480, by decide, by decide⟩ opens,
      .deviceDetached 1 1000, .runReconnect (some ⟨2, true⟩) opens] := by
  rintro ⟨-, -, -, -, -, ⟨hhonest, -⟩, -⟩
  revert hhonest
  decide +kernel

end State
end App
end Carlinkit
