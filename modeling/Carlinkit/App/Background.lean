/-
# No sound without the screen

The dongle keeps sending audio while the app is in the background, and the head unit plays
something else by then: `detachSurface` mutes the player and `onSurfaceReady` lifts the mute.
A session starts with the mute off.  Where the Activity opens the dongle, the Surface is
ready and follows in the same callback (`Service.ClosedShown`).  `ACTION_DEVICE_ATTACHED`
opens it with no Activity, and nobody mutes that session.
-/

import Carlinkit.App.OpenCommand

namespace Carlinkit
namespace App

open Machine

/-- The session is muted, unless its Surface has been ready since it began and since the last
`detachSurface`. -/
def Service.Quiet (s : Service) : Prop :=
  ∀ x ∈ s.session, x.surfaceReady = false → x.muted = true

instance (s : Service) : Decidable s.Quiet :=
  inferInstanceAs (Decidable (∀ x ∈ s.session, _))

/-- A start command that opens a session with no Activity. -/
def Event.StartsAlone : Event → Prop
  | .serviceDeviceAttached _ permitted o =>
      permitted = true ∧ o.opened = true ∧ o.started = true
  | _ => False

instance : ∀ e : Event, Decidable e.StartsAlone
  | .serviceDeviceAttached .. => inferInstanceAs (Decidable (_ ∧ _ ∧ _))
  | .onCreate | .onResume .. | .onServiceConnected .. | .onServiceDisconnected
  | .usbPermission .. | .deviceDetached .. | .deviceAttached .. | .layout .. | .surfaceCreated
  | .surfaceChanged .. | .surfaceDestroyed | .onNewIntent | .onUserLeaveHint _
  | .onBackPressed .. | .onWindowFocusChanged _ | .onStatusClick _ | .onDestroy
  | .runSearch .. | .runReconnect .. | .runPermissionRetry .. | .runMuteCheck | .runHeartbeat
  | .stop | .serviceOnDestroy | .received => .isFalse id

namespace Service

variable {s : Service}

theorem Quiet.map (h : s.Quiet) {f : Session → Session}
    (hf : ∀ x, (f x).surfaceReady = false → (f x).muted = true ∨
      x.surfaceReady = false ∧ (f x).muted = x.muted) :
    Quiet { s with session := s.session.map f } := by
  intro x hx hready
  obtain ⟨y, hy, rfl⟩ := Option.map_eq_some_iff.1 hx
  rcases hf y hready with hmuted | ⟨hbefore, hmuted⟩
  · exact hmuted
  · exact hmuted.trans (h y hy hbefore)

/-- A session that knows of its Surface asks for nothing. -/
theorem quiet_onSurfaceReady (s : Service) : s.onSurfaceReady.Quiet := by
  intro x hx hready
  obtain ⟨y, -, rfl⟩ := Option.map_eq_some_iff.1 hx
  cases hready

/-- When `ensureStarted` says yes. -/
theorem ensureStarted_fst (device : ℕ) (o : Opening) (s : Service) :
    (s.ensureStarted device o).1 = (s.isStarted || (o.opened && o.started)) := by
  obtain ⟨opened, started⟩ := o
  unfold ensureStarted openSession
  cases s.isStarted <;> cases opened <;> cases started <;> rfl

/-- What `ensureStarted` leaves when it opens no session. -/
theorem quiet_ensureStarted (h : s.Quiet) (device : ℕ) {o : Opening}
    (hfails : s.isStarted = true ∨ ¬ (o.opened = true ∧ o.started = true)) :
    (s.ensureStarted device o).2.Quiet := by
  unfold ensureStarted openSession
  split_ifs with hstarted hopened hstart
  · exact h
  · exact h
  · exact fun x hx => by simp at hx
  · rcases hfails with hyes | hno
    · exact absurd hyes hstarted
    · exact absurd ⟨by simpa using hopened, by simpa using hstart⟩ hno

theorem closedShown_quiet : ClosedShown Quiet where
  refused device o h hresult := by
    rw [ensureStarted_fst, Bool.or_eq_false_iff] at hresult
    refine quiet_ensureStarted h device (.inr ?_)
    rintro ⟨hopened, hstart⟩
    simp [hopened, hstart] at hresult
  shown device o view _ _ := quiet_onSurfaceReady _
  attachSurface view h := h.map fun _ hready => .inr ⟨hready, rfl⟩
  detachSurface h := h.map fun _ _ => .inl rfl
  onSurfaceReady _ := quiet_onSurfaceReady _
  onScreenTakenByHeadUnit taken h := h.map fun _ hready => .inr ⟨hready, rfl⟩
  stopSession _ x hx := by simp [stopSession] at hx
  detached device h := h
  received h := h.map fun _ hready => .inr ⟨hready, rfl⟩

end Service

namespace State

variable {s : State}

theorem quiet_step_iff (h : s.service.Quiet) (e : Event) :
    (step s e).service.Quiet ↔ ¬ e.StartsAlone := by
  constructor
  · intro hquiet halone
    cases e with
    | serviceDeviceAttached device permitted o =>
        obtain ⟨opened, started⟩ := o
        obtain ⟨rfl, rfl, rfl⟩ := halone
        have hservice : (step s (.serviceDeviceAttached device true ⟨true, true⟩)).service =
            (s.service.stopSession.ensureStarted device ⟨true, true⟩).2 := by
          rcases step_cases s (.serviceDeviceAttached device true ⟨true, true⟩) with
            ⟨-, heq⟩ | ⟨-, -, heq⟩ <;> rw [heq] <;> rfl
        rw [hservice] at hquiet
        exact absurd (hquiet _ rfl rfl) Bool.false_ne_true
    | _ => exact halone
  · intro halone
    refine closedShown_step Service.closedShown_quiet h e ?_
    rintro device o rfl
    exact Service.quiet_ensureStarted (Service.closedShown_quiet.stopSession h) device
      (.inr fun ho => halone ⟨rfl, ho⟩)

/-- **When the background is silent.**  In every state of every run of callbacks and commands
the session is muted unless its Surface is ready, exactly when no start command opens a
session with no Activity. -/
theorem quiet_iff (h : s.service.Quiet) (es : List Event) :
    Along step (fun s e => (step s e).service.Quiet) s es ↔
      Along step (fun _ e => ¬ e.StartsAlone) s es :=
  along_step_iff (I := fun s : State => s.service.Quiet) (fun _ e h => quiet_step_iff h e) h es

/-- The app comes, plays, and goes to the background. -/
def visited : List Event :=
  [.onCreate, .onServiceConnected (some ⟨1, true⟩) opens, .surfaceCreated,
    .surfaceChanged ⟨800, 480, Nat.succ_pos _, Nat.succ_pos _⟩ opens, .surfaceDestroyed]

theorem quiet_iff_visited : Service.idle.Quiet ∧
    Along step (fun s e => (step s e).service.Quiet) (start .idle) visited :=
  ⟨by decide, (quiet_iff (s := start .idle) (by decide) visited).2 (by decide)⟩

/-- **The dongle enumerates, and the app was not even opened.**  The session plays. -/
theorem not_quiet_attached :
    ¬ ∀ es, Along step (fun s e => (step s e).service.Quiet) (start .idle) es := by
  intro h
  have halone := h [.serviceDeviceAttached 1 true opens]
  exact absurd halone (by decide)

end State
end App
end Carlinkit
