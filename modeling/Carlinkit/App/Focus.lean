/-
# The focus of the window and the frames

`screenTakenByHeadUnit` is in the session, and makes it drop every frame.
`onWindowFocusChanged` sets it when the focus goes and clears it when the focus comes,
as far as there is a service to tell.  The session outlives the Activity; the Activity
that comes back may have the focus before it has the service.

The observer keeps the focus of the window.  `showing_of_handsBack` says that a ready
session of an Activity in focus shows its frames, as long as no Activity that has the
focus already is connected to an active session which still drops frames, and that from
such a connection on the screen can stay dark.
-/

import Carlinkit.App.Reopening

namespace Carlinkit
namespace App

open Machine

/-- The active session does not drop frames for the head unit. -/
def Service.Fed (s : Service) : Prop :=
  s.isStarted = true → ∀ x ∈ s.session, x.screenTakenByHeadUnit = false

instance (s : Service) : Decidable s.Fed := inferInstanceAs (Decidable (_ → ∀ x ∈ s.session, _))

/-- Whether the window has the focus: not before the system says so. -/
def focus (hasFocus : Bool) : Event → Bool
  | .onCreate | .onDestroy => false
  | .onWindowFocusChanged b => b
  | _ => hasFocus

/-- The Activity has the focus and the service, and its Surface is ready in the active
session: no frame is dropped. -/
def Showing (x : State × Bool) : Prop :=
  x.1.activity.created = true → x.2 = true → x.1.activity.connected = true →
    x.1.service.isStarted = true → ∀ y ∈ x.1.service.session, y.surfaceReady = true →
      y.surfaceView = some x.1.activity.serial → y.screenTakenByHeadUnit = false

instance (x : State × Bool) : Decidable (Showing x) :=
  inferInstanceAs (Decidable (_ → _ → _ → _ → ∀ y ∈ x.1.service.session, _))

/-- Where an Activity in focus gets the service, the active session does not drop frames. -/
def HandsBack (x : State × Bool) : Event → Prop
  | .onServiceConnected _ _ => x.1.activity.created = true → x.2 = true → x.1.service.Fed
  | _ => True

instance (x : State × Bool) : ∀ e, Decidable (HandsBack x e)
  | .onServiceConnected .. => inferInstanceAs (Decidable (_ → _ → _))
  | .onCreate | .onResume .. | .onServiceDisconnected | .usbPermission .. | .deviceDetached ..
  | .deviceAttached .. | .layout .. | .surfaceCreated | .surfaceChanged .. | .surfaceDestroyed
  | .onNewIntent | .onUserLeaveHint _ | .onBackPressed .. | .onWindowFocusChanged _
  | .onStatusClick _ | .onDestroy | .runSearch .. | .runReconnect .. | .runPermissionRetry ..
  | .runMuteCheck | .runHeartbeat | .stop | .serviceDeviceAttached .. | .serviceOnDestroy
  | .received => .isTrue trivial

/-! ## The service -/

namespace Service

variable {s : Service}

/-- What leaves the flag of the session alone leaves the frames alone. -/
theorem Fed.map (h : s.Fed) {f : Session → Session}
    (hf : ∀ x, (f x).screenTakenByHeadUnit = x.screenTakenByHeadUnit) :
    ({ s with session := s.session.map f } : Service).Fed := by
  intro hstarted x hx
  obtain ⟨y, hy, rfl⟩ := Option.map_eq_some_iff.1 hx
  rw [hf]
  exact h (by simpa [isStarted] using hstarted) y hy

theorem Fed.attachSurface (h : s.Fed) (view : ℕ) : (s.attachSurface view).Fed := h.map fun _ => rfl

theorem Fed.detachSurface (h : s.Fed) : s.detachSurface.Fed := h.map fun _ => rfl

theorem Fed.onSurfaceReady (h : s.Fed) : s.onSurfaceReady.Fed := h.map fun _ => rfl

theorem fed_of_not_isStarted (h : ¬ s.isStarted = true) : s.Fed := fun hstarted => absurd hstarted h

theorem fed_stopSession (s : Service) : s.stopSession.Fed :=
  fed_of_not_isStarted (by simp [isStarted, stopSession])

/-- Back on screen. -/
theorem fed_onScreenTakenByHeadUnit (s : Service) : (s.onScreenTakenByHeadUnit false).Fed := by
  intro _ x hx
  obtain ⟨y, -, rfl⟩ := Option.map_eq_some_iff.1 hx
  rfl

/-- A new session drops nothing. -/
theorem Fed.ensureStarted (h : s.Fed) (device : ℕ) (o : Opening) :
    (s.ensureStarted device o).2.Fed := by
  unfold Service.ensureStarted openSession
  split_ifs with hstarted
  · exact h
  · exact fed_of_not_isStarted hstarted
  · exact fed_of_not_isStarted (by simp [isStarted])
  · intro _ x hx
    obtain rfl := Option.some.inj hx
    rfl

end Service

/-! ## The Activity -/

namespace State

variable {s : State}

/-- The Activity stays as much there as it was, and the session is not told to drop
frames. -/
structure Spares (s t : State) : Prop where
  created : t.activity.created = s.activity.created
  connected : t.activity.connected = s.activity.connected
  fed : s.service.Fed → t.service.Fed

/-- The other data of the Activity say nothing of the frames. -/
theorem Spares.of_activity {a : Activity} {t : State} (h : Spares ⟨a, s.service⟩ t)
    (hcreated : a.created = s.activity.created) (hconnected : a.connected = s.activity.connected) :
    Spares s t :=
  ⟨h.created.trans hcreated, h.connected.trans hconnected, h.fed⟩

theorem spares_refl (s : State) : Spares s s := ⟨rfl, rfl, id⟩

theorem Tries.spares {t : State} (h : Tries s t) : Spares s t := by
  refine ⟨h.steady.created, h.steady.connected, fun hfed => ?_⟩
  obtain ⟨r, hasked, hservice⟩ := h.service
  have hr : r.Fed := by
    rcases hasked with rfl | ⟨device, o, rfl⟩
    · exact hfed
    · exact hfed.ensureStarted device o
  rcases hservice with heq | ⟨view, heq⟩
  · rwa [heq]
  · rw [heq]
    exact (hr.attachSurface view).onSurfaceReady

theorem spares_releaseSurface (s : State) : Spares s s.releaseSurface := by
  refine ⟨rfl, rfl, fun h => ?_⟩
  unfold releaseSurface
  dsimp only
  split_ifs
  · exact h.detachSurface
  · exact h

theorem spares_scheduleDongleReconnect (now : ℕ) (s : State) :
    Spares s (scheduleDongleReconnect now s) := by
  unfold scheduleDongleReconnect
  dsimp only
  split_ifs <;> exact ⟨rfl, rfl, id⟩

theorem spares_onResume (found : Option Found) (o : Opening) (s : State) :
    Spares s (onResume found o s) := by
  unfold onResume
  refine (tries_findAndOpenDongle found o _).spares.of_activity ?_ ?_
  · dsimp only
    split_ifs <;> rfl
  · dsimp only
    split_ifs <;> rfl

theorem spares_run {waiting : Posted → ℕ} {taken : Posted → Posted} {body : State → State}
    (hbody : ∀ s, Spares s (body s)) (s : State) : Spares s (run waiting taken body s) := by
  unfold run
  split_ifs
  · exact spares_refl s
  · exact (hbody _).of_activity rfl rfl

theorem spares_onBackPressed (now : ℕ) (inCall : Bool) (s : State) :
    Spares s (onBackPressed now inCall s) := by
  unfold onBackPressed
  split_ifs
  · exact spares_refl s
  · exact ⟨rfl, rfl, id⟩
  · exact (spares_releaseSurface _).of_activity rfl rfl

theorem spares_muteDongleCheck (s : State) : Spares s (muteDongleCheck s) := by
  unfold muteDongleCheck
  split_ifs <;> exact ⟨rfl, rfl, id⟩

theorem spares_sessionHeartbeat (s : State) : Spares s (sessionHeartbeat s) := by
  unfold sessionHeartbeat
  split_ifs <;> exact ⟨rfl, rfl, id⟩

/-- A service that comes to the Activity is no other service. -/
theorem fed_onServiceConnected (h : s.service.Fed) (found : Option Found) (o : Opening) :
    (onServiceConnected found o s).service.Fed := by
  unfold onServiceConnected
  dsimp only
  by_cases hstarted : s.service.isStarted = true
  · rw [if_pos hstarted]
    dsimp only
    split_ifs
    · exact (h.attachSurface _).onSurfaceReady
    · exact h.attachSurface _
  · rw [if_neg hstarted]
    split
    · exact (tries_openDevice _ o _).spares.fed h
    · exact (tries_findAndOpenDongle found o _).spares.fed h

/-- The Activity is in focus and has the service. -/
def Watched (a : Activity) (hasFocus : Bool) : Prop :=
  a.created = true ∧ hasFocus = true ∧ a.connected = true

/-- **One callback.**  Frames flow as long as the Activity is watched; only a connection can
begin to watch a session that drops them. -/
theorem fed_activityStep {hasFocus : Bool} (h : Watched s.activity hasFocus → s.service.Fed)
    (hcreated : s.activity.created = true) {e : Event} (he : HandsBack (s, hasFocus) e)
    (hwatched : Watched (activityStep s e).activity (focus hasFocus e)) :
    (activityStep s e).service.Fed := by
  have hspares : Spares s (activityStep s e) → focus hasFocus e = hasFocus →
      (activityStep s e).service.Fed := by
    intro hs hfocus
    obtain ⟨-, hhas, hconnected⟩ := hwatched
    exact hs.fed (h ⟨hcreated, hfocus ▸ hhas, hs.connected ▸ hconnected⟩)
  by_cases hopen : MayOpen e
  · refine hspares (tries_activityStep hopen s).spares ?_
    cases e with
    | onCreate | onDestroy | onWindowFocusChanged => exact absurd hopen id
    | _ => rfl
  · cases e with
    | onCreate => exact Bool.noConfusion hwatched.2.1
    | onDestroy => exact Bool.noConfusion hwatched.2.1
    | onServiceDisconnected => exact Bool.noConfusion hwatched.2.2
    | onServiceConnected found o =>
        exact fed_onServiceConnected (he hcreated hwatched.2.1) found o
    | onWindowFocusChanged b =>
        obtain ⟨-, rfl, hconnected⟩ := hwatched
        simp only [activityStep] at hconnected ⊢
        split_ifs at hconnected ⊢
        · exact Service.fed_onScreenTakenByHeadUnit s.service
        · contradiction
    | onResume found o => exact hspares (spares_onResume found o s) rfl
    | deviceDetached device now =>
        refine hspares ?_ rfl
        have hreleased := spares_releaseSurface s
        have hscheduled := spares_scheduleDongleReconnect now s.releaseSurface
        exact ⟨hscheduled.created, hscheduled.connected,
          fun hfed => hscheduled.fed (hreleased.fed hfed)⟩
    | surfaceDestroyed =>
        refine hspares ⟨rfl, rfl, fun hfed => ?_⟩ rfl
        simp only [activityStep, surfaceDestroyed]
        split_ifs
        · exact hfed.detachSurface
        · exact hfed
    | onUserLeaveHint recent =>
        refine hspares ?_ rfl
        simp only [activityStep]
        split_ifs <;> exact ⟨rfl, rfl, id⟩
    | onBackPressed now inCall => exact hspares (spares_onBackPressed now inCall s) rfl
    | onStatusClick phoneConnected =>
        refine hspares ?_ rfl
        simp only [activityStep]
        split_ifs <;> exact ⟨rfl, rfl, id⟩
    | runMuteCheck =>
        refine hspares ?_ rfl
        simp only [activityStep]
        exact spares_run spares_muteDongleCheck s
    | runHeartbeat =>
        refine hspares ?_ rfl
        simp only [activityStep]
        exact spares_run spares_sessionHeartbeat s
    | usbPermission | deviceAttached | surfaceChanged | runSearch | runReconnect
    | runPermissionRetry => exact absurd trivial hopen
    | _ => exact hspares ⟨rfl, rfl, id⟩ rfl

/-- What comes from outside to the service itself begins sessions that drop nothing. -/
theorem fed_serviceStep {service : Service} (h : service.Fed) (e : Event) :
    (serviceStep service e).Fed := by
  cases e with
  | stop => exact service.fed_stopSession
  | serviceOnDestroy => exact service.fed_stopSession
  | serviceDeviceAttached device permitted o =>
      simp only [serviceStep, Service.deviceAttached]
      split_ifs
      · exact service.fed_stopSession.ensureStarted device o
      · exact h
  | received => exact h.map fun _ => rfl
  | _ => exact h

/-- What an Activity in focus looks at is not dropped. -/
def Attended (x : State × Bool) : Prop := Watched x.1.activity x.2 → x.1.service.Fed

theorem attended_step {x : State × Bool} (h : Attended x) {e : Event} (he : HandsBack x e) :
    Attended (observed step focus x e) := by
  obtain ⟨s, hasFocus⟩ := x
  have he' : HandsBack ({ s with service := serviceStep s.service e }, hasFocus) e := by
    cases e <;> exact he
  intro hwatched
  rcases step_cases s e with ⟨hcreated | rfl, heq⟩ | ⟨hnot, -, heq⟩
  · simp only [observed, heq] at hwatched ⊢
    exact fed_activityStep (s := { s with service := serviceStep s.service e })
      (fun hwatched => fed_serviceStep (h hwatched) e) hcreated he' hwatched
  · exact Bool.noConfusion hwatched.2.1
  · simp only [observed, heq] at hwatched
    exact absurd hwatched.1 (by simp [hnot])

theorem Attended.showing {x : State × Bool} (h : Attended x) : Showing x :=
  fun hcreated hfocus hconnected hstarted y hy _ _ =>
    h ⟨hcreated, hfocus, hconnected⟩ hstarted y hy

/-! ## Runs -/

/-- An Activity in focus and with the service looks at an active session that drops
frames. -/
def Dark (x : State × Bool) : Prop :=
  Watched x.1.activity x.2 ∧ x.1.activity.sessionStarted = true ∧ ¬ x.1.service.Fed

/-- An 800x480 screen. -/
def screen : Size := ⟨800, 480, by decide, by decide⟩

theorem not_fed_map {service : Service} {f : Session → Session} (h : ¬ service.Fed)
    (hf : ∀ x, (f x).screenTakenByHeadUnit = x.screenTakenByHeadUnit) :
    ¬ ({ service with session := service.session.map f } : Service).Fed := by
  intro hfed
  refine h fun hstarted x hx => ?_
  rw [← hf]
  refine hfed (by simpa [Service.isStarted] using hstarted) _ ?_
  exact Option.map_eq_some_iff.2 ⟨x, hx, rfl⟩

/-- A connection in focus to a session that drops frames leaves the screen dark. -/
theorem dark_of_not_handsBack {x : State × Bool} {e : Event} (he : ¬ HandsBack x e) :
    Dark (observed step focus x e) := by
  cases e with
  | onServiceConnected found o =>
      simp only [HandsBack, Classical.not_imp] at he
      obtain ⟨hcreated, hfocus, hnot⟩ := he
      have hstarted : x.1.service.isStarted = true := by
        by_contra hidle
        exact hnot (Service.fed_of_not_isStarted hidle)
      have hattached : ¬ (x.1.service.attachSurface x.1.activity.serial).Fed :=
        not_fed_map hnot fun _ => rfl
      simp only [Dark, Watched, observed, focus, step, hcreated, if_true, activityStep,
        onServiceConnected, serviceStep, hstarted]
      refine ⟨⟨trivial, hfocus, trivial⟩, trivial, ?_⟩
      split_ifs
      · exact not_fed_map hattached fun _ => rfl
      · exact hattached
  | _ => exact absurd trivial he

/-- A pending device keeps the Surface from the session. -/
theorem step_surfaceChanged_some {d : ℕ} (hcreated : s.activity.created = true)
    (hstarted : s.activity.sessionStarted = true) (hpending : s.activity.pendingDevice = some d)
    (size : Size) (o : Opening) :
    step s (.surfaceChanged size o) =
      ⟨{ s.activity with
          view := ⟨size.width, size.height, true⟩
          lastSurface := some .changed
          pendingDevice := none }, s.service⟩ := by
  simp [step, hcreated, activityStep, surfaceChanged, openDevice, serviceStep, hpending, hstarted]

/-- Without one, the session gets the Surface. -/
theorem step_surfaceChanged_none (hcreated : s.activity.created = true)
    (hconnected : s.activity.connected = true) (hpending : s.activity.pendingDevice = none)
    (size : Size) (o : Opening) :
    step s (.surfaceChanged size o) =
      ⟨{ s.activity with
          view := ⟨size.width, size.height, true⟩
          lastSurface := some .changed },
        (s.service.attachSurface s.activity.serial).onSurfaceReady⟩ := by
  simp [step, hcreated, activityStep, surfaceChanged, serviceStep, hpending, hconnected]

/-- The Surface is ready, and its frames are dropped. -/
theorem Dark.not_showing {x : State × Bool} (h : Dark x)
    (hpending : x.1.activity.pendingDevice = none) (o : Opening) :
    ¬ Showing (observed step focus x (.surfaceChanged screen o)) := by
  obtain ⟨⟨hcreated, hfocus, hconnected⟩, -, hnot⟩ := h
  simp only [Service.Fed, Classical.not_imp, not_forall] at hnot
  obtain ⟨hstarted, y, hy, htaken⟩ := hnot
  intro hshowing
  simp only [Showing, observed, focus,
    step_surfaceChanged_none hcreated hconnected hpending] at hshowing
  refine htaken (hshowing hcreated hfocus hconnected ?_
    ((y.attachSurface x.1.activity.serial).onSurfaceReady) ?_ rfl rfl)
  · simpa [Service.isStarted, Service.attachSurface, Service.onSurfaceReady] using hstarted
  · simp [Service.attachSurface, Service.onSurfaceReady, Option.mem_def.1 hy]

/-- From a dark screen on a run can come to a Surface that is ready and shows nothing. -/
theorem Dark.lasts {x : State × Bool} (h : Dark x) :
    ∃ fs, ¬ Along (observed step focus) (fun x e => Showing (observed step focus x e)) x fs := by
  cases hpending : x.1.activity.pendingDevice with
  | none =>
      refine ⟨[.surfaceChanged screen opens], fun hshowing => ?_⟩
      exact h.not_showing hpending opens hshowing.1
  | some d =>
      refine ⟨[.surfaceChanged screen opens, .surfaceChanged screen opens], fun hshowing => ?_⟩
      have hnext := step_surfaceChanged_some h.1.1 h.2.1 hpending screen opens
      refine Dark.not_showing (x := observed step focus x (.surfaceChanged screen opens)) ?_ ?_
        opens hshowing.2.1
      · simp only [Dark, Watched, observed, focus, hnext]
        exact h
      · simp only [observed, hnext]

/-- **When the screen is handed back.**  For every run of callbacks and commands, over a
service with or without a session: the active session shows the frames of a ready Surface
in focus in every state, if no Activity in focus is connected to an active session that
drops them; and after any such connection the screen can stay dark. -/
theorem showing_of_handsBack (service : Service) (es : List Event) :
    (Along (observed step focus) HandsBack (start service, false) es →
        Along (observed step focus) (fun x e => Showing (observed step focus x e))
          (start service, false) es) ∧
      ∀ e, ¬ HandsBack (Machine.run (observed step focus) (start service, false) es) e →
        ∃ fs, ¬ Along (observed step focus) (fun x e => Showing (observed step focus x e))
          (start service, false) (es ++ e :: fs) := by
  refine ⟨fun h => ?_, fun e he => ?_⟩
  · refine h.imp_of_invariant (I := Attended) (fun x e hx he => attended_step hx he)
      (fun x e hx he => (attended_step hx he).showing) ?_
    exact fun hwatched => Bool.noConfusion hwatched.1
  · obtain ⟨fs, hfs⟩ := (dark_of_not_handsBack he).lasts
    refine ⟨fs, fun hall => hfs ?_⟩
    exact ((along_append _ _ _).1 hall).2.2

/-- An Activity that comes back and has the service before the focus; and the state before
the connection of `not_showing_relaunched`. -/
theorem showing_of_handsBack_relaunched :
    Along (observed step focus) (fun x e => Showing (observed step focus x e))
        (start .idle, false) [.onCreate, .onServiceConnected (some ⟨1, true⟩) opens,
          .surfaceCreated, .surfaceChanged screen opens, .onWindowFocusChanged false,
          .onDestroy, .onCreate, .onServiceConnected none opens, .onWindowFocusChanged true,
          .surfaceCreated, .surfaceChanged screen opens] ∧
      ∃ fs, ¬ Along (observed step focus) (fun x e => Showing (observed step focus x e))
        (start .idle, false) ([.onCreate, .onServiceConnected (some ⟨1, true⟩) opens,
          .surfaceCreated, .surfaceChanged screen opens, .onWindowFocusChanged false,
          .onDestroy, .onCreate, .onWindowFocusChanged true] ++
            .onServiceConnected none opens :: fs) :=
  ⟨(showing_of_handsBack .idle _).1 (by decide), (showing_of_handsBack .idle _).2 _ (by decide)⟩

/-- **Focus before the service.**  The Activity loses the focus and goes; the one that
comes back has the focus before it is connected to the session, and nothing tells the
session. -/
theorem not_showing_relaunched :
    ¬ Along (observed step focus) (fun x e => Showing (observed step focus x e))
      (start .idle, false) [.onCreate, .onServiceConnected (some ⟨1, true⟩) opens,
        .surfaceCreated, .surfaceChanged screen opens, .onWindowFocusChanged true,
        .onWindowFocusChanged false, .surfaceDestroyed, .onDestroy, .onCreate,
        .onWindowFocusChanged true, .onServiceConnected none opens, .surfaceCreated,
        .surfaceChanged screen opens] := by
  decide

end State
end App
end Carlinkit
