/-
# The size in the Open command

`openDevice` waits for the Surface, since the dongle is told the size once, in OPEN and in
BoxSettings.  But `ensureStarted` makes the session and starts it, and only then does
`attachSurface` give it the view: `start` finds no view and keeps the default of `Config`.

`Service.Closed` is the rule for what every operation of the service keeps.  By it every
session of every run was opened with 800x480, and `sized_iff` says when that is right.
-/

import Carlinkit.App.Reopening

namespace Carlinkit
namespace App

open Framing Protocol Driver Machine

/-! ## The size in the messages -/

/-- The OPEN message carries this size: its first two words. -/
def OpenSays (width height : ℕ) (m : Message) : Prop :=
  (wordAt m.payload 0).toNat = width ∧ (wordAt m.payload 4).toNat = height

/-- The BOX_SETTINGS message carries this size: the last two fields of its text. -/
def BoxSays (width height : ℕ) (m : Message) : Prop :=
  ∃ fields : String, m.payload = asciiBytes (fields ++
    ",\"androidAutoSizeW\":" ++ decimal width ++ ",\"androidAutoSizeH\":" ++ decimal height ++
      "\x7d")

/-- There is one OPEN and one BOX_SETTINGS among the messages, and both carry this size. -/
def CarrySize (width height : ℕ) (ms : List Message) : Prop :=
  (∃ m, ms.filter (·.type = MessageType.openDongle) = [m] ∧ OpenSays width height m) ∧
    ∃ m, ms.filter (·.type = MessageType.boxSettings) = [m] ∧ BoxSays width height m

theorem filter_openDongle_initSequence (c : Config) (now : BitVec 64) :
    (initSequence c now).filter (·.type = MessageType.openDongle) = [sendOpen c] := by
  unfold initSequence
  split_ifs <;> rfl

theorem filter_boxSettings_initSequence (c : Config) (now : BitVec 64) :
    (initSequence c now).filter (·.type = MessageType.boxSettings) = [sendBoxSettings c now] := by
  unfold initSequence
  split_ifs <;> rfl

theorem openSays_sendOpen (c : Config) (width height : ℕ) :
    OpenSays width height (sendOpen c) ↔ c.width.toNat = width ∧ c.height.toNat = height := by
  have hwidth : wordAt (sendOpen c).payload 0 = c.width := wordAt_le32 c.width
  have hheight : wordAt (sendOpen c).payload 4 = c.height := wordAt_le32 c.height
  rw [OpenSays, hwidth, hheight]

theorem boxSays_sendBoxSettings (c : Config) (now : BitVec 64) {width height : ℕ}
    (hwidth : c.width.toInt = width) (hheight : c.height.toInt = height) :
    BoxSays width height (sendBoxSettings c now) := by
  have hjson : boxSettingsJson c now = "\x7b\"mediaDelay\":" ++ decimal c.mediaDelay.toInt ++
      ",\"syncTime\":" ++ decimal now.toInt ++ ",\"androidAutoSizeW\":" ++ decimal width ++
      ",\"androidAutoSizeH\":" ++ decimal height ++ "\x7d" := by
    unfold boxSettingsJson
    rw [hwidth, hheight]
  exact ⟨_, (sendBoxSettings_payload c now).trans (congrArg asciiBytes hjson)⟩

/-- The init messages carry the size of the `Config`. -/
theorem carrySize_initSequence (c : Config) (now : BitVec 64) (width height : ℕ)
    (hwidth : c.width.toNat < 2 ^ 31) (hheight : c.height.toNat < 2 ^ 31) :
    CarrySize width height (initSequence c now) ↔
      c.width.toNat = width ∧ c.height.toNat = height := by
  simp only [CarrySize, filter_openDongle_initSequence, filter_boxSettings_initSequence,
    List.cons.injEq, and_true, exists_eq_left', openSays_sendOpen]
  refine and_iff_left_of_imp ?_
  rintro ⟨rfl, rfl⟩
  exact boxSays_sendBoxSettings c now (BitVec.toInt_eq_toNat_of_lt (by omega))
    (BitVec.toInt_eq_toNat_of_lt (by omega))

/-! ## What the service keeps -/

/-- What every operation of the service keeps. -/
structure Service.Closed (P : Service → Prop) : Prop where
  ensureStarted : ∀ {s} device o, P s → P (Service.ensureStarted device o s).2
  attachSurface : ∀ {s} view, P s → P (Service.attachSurface view s)
  detachSurface : ∀ {s}, P s → P (Service.detachSurface s)
  onSurfaceReady : ∀ {s}, P s → P (Service.onSurfaceReady s)
  onScreenTakenByHeadUnit : ∀ {s} taken, P s → P (Service.onScreenTakenByHeadUnit taken s)
  stopSession : ∀ {s}, P s → P (Service.stopSession s)
  detached : ∀ {s} device, P s → P (Service.detached device s)
  received : ∀ {s}, P s → P (Service.received s)

/-- What the operations of the service keep, where an opening that succeeds is followed by
the Surface. -/
structure Service.ClosedShown (P : Service → Prop) : Prop where
  refused : ∀ {s} device o, P s → (Service.ensureStarted device o s).1 = false →
    P (Service.ensureStarted device o s).2
  shown : ∀ {s} device o view, P s → (Service.ensureStarted device o s).1 = true →
    P ((Service.ensureStarted device o s).2.attachSurface view).onSurfaceReady
  attachSurface : ∀ {s} view, P s → P (Service.attachSurface view s)
  detachSurface : ∀ {s}, P s → P (Service.detachSurface s)
  onSurfaceReady : ∀ {s}, P s → P (Service.onSurfaceReady s)
  onScreenTakenByHeadUnit : ∀ {s} taken, P s → P (Service.onScreenTakenByHeadUnit taken s)
  stopSession : ∀ {s}, P s → P (Service.stopSession s)
  detached : ∀ {s} device, P s → P (Service.detached device s)
  received : ∀ {s}, P s → P (Service.received s)

theorem Service.Closed.shown {P : Service → Prop} (hP : Service.Closed P) :
    Service.ClosedShown P where
  refused device o h _ := hP.ensureStarted device o h
  shown device o view h _ := hP.onSurfaceReady (hP.attachSurface view (hP.ensureStarted device o h))
  attachSurface := hP.attachSurface
  detachSurface := hP.detachSurface
  onSurfaceReady := hP.onSurfaceReady
  onScreenTakenByHeadUnit := hP.onScreenTakenByHeadUnit
  stopSession := hP.stopSession
  detached := hP.detached
  received := hP.received

namespace State

variable {P : Service → Prop} {s : State}

theorem closed_openDevice (hP : Service.ClosedShown P) (h : P s.service) (device : ℕ)
    (o : Opening) : P (openDevice device o s).service := by
  rcases openDevice_cases device o s with ⟨-, heq⟩ | ⟨-, -, heq⟩ | ⟨-, -, -, hasked⟩
  · rwa [heq]
  · rwa [heq]
  · rcases hasked with ⟨hresult, heq⟩ | ⟨hresult, a, heq, -, -⟩
    · rw [heq]
      exact hP.refused device o h hresult
    · rw [heq]
      exact hP.shown device o _ h hresult

theorem closed_findAndOpenDongle (hP : Service.ClosedShown P) (h : P s.service)
    (found : Option Found) (o : Opening) : P (findAndOpenDongle found o s).service := by
  rcases findAndOpenDongle_cases found o s with ⟨-, -, d, -, -, a, heq, -⟩ | ⟨-, a, heq, -⟩
  · rw [heq]
    exact closed_openDevice (s := ⟨a, s.service⟩) hP h d.device o
  · rwa [heq]

theorem closed_left (hP : Service.ClosedShown P) {service service' : Service} (h : P service)
    (hleft : service.Left service') : P service' := by
  rcases hleft with rfl | rfl | ⟨taken, rfl⟩
  · exact h
  · exact hP.detachSurface h
  · exact hP.onScreenTakenByHeadUnit taken h

theorem closed_usbPermission (hP : Service.ClosedShown P) (h : P s.service)
    (device : Option ℕ) (granted : Bool) (o : Opening) :
    P (usbPermission device granted o s).service := by
  unfold usbPermission
  dsimp only
  split
  · exact closed_openDevice hP (by exact h) _ o
  · split_ifs <;> exact h

theorem closed_surfaceChanged (hP : Service.ClosedShown P) (h : P s.service) (size : Size)
    (o : Opening) : P (surfaceChanged size o s).service := by
  unfold surfaceChanged
  dsimp only
  split
  · exact closed_openDevice hP (by exact h) _ o
  · split_ifs
    · exact hP.onSurfaceReady (hP.attachSurface _ h)
    · exact h

theorem closed_onServiceConnected (hP : Service.ClosedShown P) (h : P s.service)
    (found : Option Found) (o : Opening) : P (onServiceConnected found o s).service := by
  unfold onServiceConnected
  dsimp only
  by_cases hstarted : s.service.isStarted = true
  · rw [if_pos hstarted]
    dsimp only
    split_ifs
    · exact hP.onSurfaceReady (hP.attachSurface _ h)
    · exact hP.attachSurface _ h
  · rw [if_neg hstarted]
    split
    · exact closed_openDevice hP (by exact h) _ o
    · exact closed_findAndOpenDongle hP (by exact h) found o

theorem closed_delayedSearch (hP : Service.ClosedShown P) (h : P s.service)
    (found : Option Found) (o : Opening) : P (delayedSearch found o s).service := by
  unfold delayedSearch
  split_ifs
  · exact closed_findAndOpenDongle hP h found o
  · exact h

theorem closed_run (h : P s.service) {waiting : Posted → ℕ} {taken : Posted → Posted}
    {body : State → State} (hbody : ∀ {s : State}, P s.service → P (body s).service) :
    P (run waiting taken body s).service := by
  unfold run
  split_ifs
  · exact h
  · exact hbody (by exact h)

/-- **What the Activity keeps of the service.** -/
theorem closed_activityStep (hP : Service.ClosedShown P) (h : P s.service) (e : Event) :
    P (activityStep s e).service := by
  cases e with
  | onResume found o => exact closed_findAndOpenDongle hP (by exact h) found o
  | onServiceConnected found o => exact closed_onServiceConnected hP h found o
  | usbPermission device granted o => exact closed_usbPermission hP h device granted o
  | deviceDetached device now =>
      simp only [activityStep, deviceDetached, service_scheduleDongleReconnect]
      exact closed_left hP h (left_releaseSurface s)
  | deviceAttached found o =>
      simp only [activityStep, deviceAttached]
      split_ifs
      · exact h
      · exact closed_findAndOpenDongle hP h found o
  | surfaceChanged size o => exact closed_surfaceChanged hP h size o
  | onDestroy => exact closed_left hP h (left_releaseSurface s)
  | runSearch found o | runReconnect found o =>
      exact closed_run h fun h => closed_delayedSearch hP h found o
  | runPermissionRetry found o =>
      exact closed_run h fun h => closed_findAndOpenDongle hP h found o
  | runMuteCheck =>
      simp only [activityStep]
      refine closed_run h fun h => ?_
      unfold muteDongleCheck
      split_ifs <;> exact h
  | onCreate | stop | serviceDeviceAttached | serviceOnDestroy | received => exact h
  | _ =>
      refine closed_left hP h (left_activityStep ?_ s)
      trivial

/-- **What the operations of the service keep, a callback keeps**, unless it opens a session
with no Activity. -/
theorem closedShown_step (hP : Service.ClosedShown P) (h : P s.service) (e : Event)
    (halone : ∀ device o, e = .serviceDeviceAttached device true o →
      P (s.service.stopSession.ensureStarted device o).2) : P (step s e).service := by
  have hservice : P (serviceStep s.service e) := by
    cases e with
    | deviceDetached device now => exact hP.detached device h
    | stop => exact hP.stopSession h
    | serviceOnDestroy => exact hP.stopSession h
    | serviceDeviceAttached device permitted o =>
        cases permitted with
        | false => exact h
        | true => exact halone device o rfl
    | received => exact hP.received h
    | _ => exact h
  rcases step_cases s e with ⟨-, heq⟩ | ⟨-, -, heq⟩
  · rw [heq]
    exact closed_activityStep (s := { s with service := serviceStep s.service e }) hP hservice e
  · rwa [heq]

/-- **What every operation of the service keeps, every callback keeps.** -/
theorem closed_step (hP : Service.Closed P) (h : P s.service) (e : Event) :
    P (step s e).service :=
  closedShown_step hP.shown h e fun device o _ => hP.ensureStarted device o (hP.stopSession h)

/-! ## The size of the session -/

/-- `openDevice` starts a new session in this callback. -/
def Opens (s : State) (e : Event) : Prop :=
  (s.service.isStarted = false ∧ (step s e).service.isStarted = true) ∧
    s.activity.sessionStarted = false ∧ (step s e).activity.sessionStarted = true

instance (s : State) (e : Event) : Decidable (s.Opens e) :=
  inferInstanceAs (Decidable ((_ ∧ _) ∧ _ ∧ _))

/-- The init messages of a new session carry the size of the Surface. -/
def Sized (s : State) (e : Event) : Prop :=
  s.Opens e → ∀ x ∈ (step s e).service.session, ∀ now,
    CarrySize (step s e).activity.view.width (step s e).activity.view.height
      (initSequence x.config now)

/-- The Surface of a new session has the size that `Config` starts with. -/
def Coincides (s : State) (e : Event) : Prop :=
  s.Opens e → (step s e).activity.view.width = 800 ∧ (step s e).activity.view.height = 480

instance (s : State) (e : Event) : Decidable (s.Coincides e) :=
  inferInstanceAs (Decidable (_ → _ ∧ _))

/-- A session was started without a view. -/
def Viewless (service : Service) : Prop :=
  ∀ x ∈ service.session, x.config = Session.startConfig none

theorem Viewless.map {service : Service} (h : Viewless service) {f : Session → Session}
    (hf : ∀ x, (f x).config = x.config) :
    Viewless { service with session := service.session.map f } := by
  intro x hx
  obtain ⟨y, hy, rfl⟩ := Option.map_eq_some_iff.1 hx
  exact (hf y).trans (h y hy)

theorem closed_viewless : Service.Closed Viewless where
  ensureStarted device o h := by
    unfold Service.ensureStarted Service.openSession
    split_ifs
    · exact h
    · exact h
    · exact fun x hx => by simp at hx
    · intro x hx
      obtain rfl := Option.some.inj hx
      rfl
  attachSurface view h := h.map fun _ => rfl
  detachSurface h := h.map fun _ => rfl
  onSurfaceReady h := h.map fun _ => rfl
  onScreenTakenByHeadUnit taken h := h.map fun _ => rfl
  stopSession _ x hx := by simp [Service.stopSession] at hx
  detached device h := h
  received h := h.map fun _ => rfl

theorem sized_step_iff (h : Viewless s.service) (e : Event) : s.Sized e ↔ s.Coincides e := by
  refine forall_congr' fun hopens => ?_
  have hnext : Viewless (step s e).service := closed_step closed_viewless h e
  have hsome : (step s e).service.session.isSome = true := by
    have hstarted := hopens.1.2
    rw [Service.isStarted, Bool.and_eq_true] at hstarted
    exact hstarted.2
  obtain ⟨x, hx⟩ := Option.isSome_iff_exists.1 hsome
  have hcarry : ∀ now, CarrySize (step s e).activity.view.width
      (step s e).activity.view.height (initSequence x.config now) ↔
        800 = (step s e).activity.view.width ∧ 480 = (step s e).activity.view.height := by
    intro now
    rw [hnext x hx]
    exact carrySize_initSequence _ now _ _ (by decide) (by decide)
  constructor
  · intro hall
    obtain ⟨hwidth, hheight⟩ := (hcarry 0).1 (hall x hx 0)
    exact ⟨hwidth.symm, hheight.symm⟩
  · rintro ⟨hwidth, hheight⟩ y hy now
    obtain rfl := Option.some.inj (hx.symm.trans hy)
    exact (hcarry now).2 ⟨hwidth.symm, hheight.symm⟩

/-- **When the size of the Surface reaches the dongle.**  For every run of callbacks and
commands: OPEN and BOX_SETTINGS of each session that `openDevice` starts carry the size of
the Surface, exactly when each of these Surfaces has 800x480. -/
theorem sized_iff (es : List Event) :
    Along step Sized (start .idle) es ↔ Along step Coincides (start .idle) es :=
  along_iff_of_invariant (I := fun s => Viewless s.service)
    (fun _ e h => sized_step_iff h e)
    (fun _ e h _ => closed_step closed_viewless h e)
    (fun x hx => by simp [start, Service.idle] at hx) es

/-- **A Surface of 800x417.**  The session that waited for it tells the dongle 800x480. -/
theorem not_sized_narrow :
    ¬ Along step Sized (start .idle) [.onCreate, .onServiceConnected (some ⟨1, true⟩) opens,
      .surfaceCreated, .surfaceChanged ⟨800, 417, by decide, by decide⟩ opens] := by
  rintro ⟨-, -, -, hsized, -⟩
  obtain ⟨⟨m, hm, -, hheight⟩, -⟩ := hsized (by decide) _ rfl 0
  rw [filter_openDongle_initSequence] at hm
  obtain rfl := List.singleton_inj.1 hm
  revert hheight
  decide

end State
end App
end Carlinkit
