/-
# The service and its session

`CarlinkitService` owns the USB connection and the `CarlinkitSession` on it; both
outlive the Activity.  `ensureStarted` opens the dongle, or says that a session is
active; `stopSession` ends it.  Everything here runs on the main thread.

Every enumeration of the dongle is a new device, so a device stands for one
instance.  `detaches` lists the instances that went away, `Connection.openedAt` is
the length of that list when the connection was opened, and a connection is live
as long as its device is not among the later ones.  `ensured` keeps what
`ensureStarted` answered, with what the session was worth at that moment.

Of the session this is what the screen is about.  `Carlinkit.App.VideoPath` takes its
calls apart, and `Carlinkit.App.Screen` shows that the read thread does not come
between.
-/

import Carlinkit.Driver.InitSequence

namespace Carlinkit
namespace App

/-- A `UsbDeviceConnection`. -/
structure Connection where
  device : ℕ
  openedAt : ℕ
deriving DecidableEq, Repr

/-- The device was not detached since the connection was opened. -/
def Connection.Live (detaches : List ℕ) (c : Connection) : Prop :=
  c.device ∉ detaches.drop c.openedAt

instance (detaches : List ℕ) (c : Connection) : Decidable (c.Live detaches) :=
  inferInstanceAs (Decidable (¬ _))

/-- `CarlinkitSession`: its connection, the `Config` it opened the dongle with, and
what it knows of the screen.  `onSurfaceReady` unmutes. -/
structure Session where
  connection : Connection
  config : Driver.Config
  surfaceView : Option ℕ
  surfaceReady : Bool
  muted : Bool
  screenTakenByHeadUnit : Bool
  receivedData : Bool
  unmuted : surfaceReady = true → muted = false

namespace Session

/-- The `Config` of `start`: the size of the view, if there is a view with a size. -/
def startConfig : Option (ℕ × ℕ) → Driver.Config
  | some (w, h) => if 0 < w ∧ 0 < h then { width := .ofNat 32 w, height := .ofNat 32 h } else {}
  | none => {}

/-- A session after `start`; it has no view yet. -/
def started (c : Connection) : Session where
  connection := c
  config := startConfig none
  surfaceView := none
  surfaceReady := false
  muted := false
  screenTakenByHeadUnit := false
  receivedData := false
  unmuted := by simp

/-- `attachSurface`. -/
def attachSurface (view : ℕ) (x : Session) : Session := { x with surfaceView := some view }

/-- `detachSurface`. -/
def detachSurface (x : Session) : Session :=
  { x with surfaceView := none, surfaceReady := false, muted := true, unmuted := by simp }

/-- `onSurfaceReady`. -/
def onSurfaceReady (x : Session) : Session :=
  { x with surfaceReady := true, muted := false, unmuted := by simp }

/-- `onSurfaceDestroyed`. -/
def onSurfaceDestroyed (x : Session) : Session :=
  { x with surfaceReady := false, unmuted := by simp }

/-- `onScreenTakenByHeadUnit`. -/
def onScreenTakenByHeadUnit (taken : Bool) (x : Session) : Session :=
  { x with screenTakenByHeadUnit := taken }

end Session

/-- What `ensureStarted` answered, and whether the session was on a live connection. -/
structure Ensured where
  device : ℕ
  result : Bool
  live : Bool
deriving DecidableEq, Repr

/-- How `openDevice` and `session.start` come out. -/
structure Opening where
  opened : Bool
  started : Bool
deriving DecidableEq, Repr

/-- `CarlinkitService`. -/
structure Service where
  session : Option Session
  connection : Option Connection
  started : Bool
  detaches : List ℕ
  ensured : List Ensured

namespace Service

/-- The service before its first session. -/
def idle : Service := ⟨none, none, false, [], []⟩

/-- `isStarted`. -/
def isStarted (s : Service) : Bool := s.started && s.session.isSome

/-- The session, if there is one, is on a live connection. -/
def Live (s : Service) : Prop := ∀ x ∈ s.session, x.connection.Live s.detaches

instance (s : Service) : Decidable s.Live := inferInstanceAs (Decidable (∀ x ∈ s.session, _))

/-- `ensureStarted` without the record. -/
def openSession (device : ℕ) (o : Opening) (s : Service) : Bool × Service :=
  if s.isStarted then (true, s)
  else if o.opened = false then (false, { s with connection := none })
  else if o.started = false then (false, { s with session := none, connection := none })
  else
    let c : Connection := ⟨device, s.detaches.length⟩
    (true, { s with session := some (.started c), connection := some c, started := true })

/-- `ensureStarted`. -/
def ensureStarted (device : ℕ) (o : Opening) (s : Service) : Bool × Service :=
  let r := s.openSession device o
  (r.1, { r.2 with ensured := r.2.ensured ++ [⟨device, r.1, decide r.2.Live⟩] })

/-- `attachSurface`. -/
def attachSurface (view : ℕ) (s : Service) : Service :=
  { s with session := s.session.map (·.attachSurface view) }

/-- `detachSurface`. -/
def detachSurface (s : Service) : Service :=
  { s with session := s.session.map (·.detachSurface) }

/-- `session().onSurfaceReady()`. -/
def onSurfaceReady (s : Service) : Service :=
  { s with session := s.session.map (·.onSurfaceReady) }

/-- `session().onScreenTakenByHeadUnit(taken)`. -/
def onScreenTakenByHeadUnit (taken : Bool) (s : Service) : Service :=
  { s with session := s.session.map (·.onScreenTakenByHeadUnit taken) }

/-- `stopSession`. -/
def stopSession (s : Service) : Service :=
  { s with started := false, session := none, connection := none }

/-- `onStartCommand` with `ACTION_DEVICE_ATTACHED`. -/
def deviceAttached (device : ℕ) (permitted : Bool) (o : Opening) (s : Service) : Service :=
  if permitted then (s.stopSession.ensureStarted device o).2 else s

/-- An instance of the dongle goes away. -/
def detached (device : ℕ) (s : Service) : Service := { s with detaches := s.detaches ++ [device] }

/-- Something arrived from the dongle. -/
def received (s : Service) : Service :=
  { s with session := s.session.map fun x => { x with receivedData := true } }

/-! ## Live connections -/

variable {s : Service}

/-- A connection that was opened just now is live. -/
theorem live_now (device : ℕ) (detaches : List ℕ) :
    Connection.Live detaches ⟨device, detaches.length⟩ := by
  simp [Connection.Live]

/-- A session that `ensureStarted` opens is on a live connection. -/
theorem live_openSession (device : ℕ) (o : Opening) (h : (s.openSession device o).1 = true) :
    (s.openSession device o).2.Live ↔ s.isStarted = true → s.Live := by
  unfold openSession at h ⊢
  split_ifs at h ⊢ with hstarted hopened hstart
  · simp [hstarted]
  · refine iff_of_true ?_ fun hs => absurd hs hstarted
    rintro x hx
    obtain rfl := Option.some.inj hx
    exact live_now device s.detaches

/-- Telling the session about the screen does not touch its connection. -/
theorem live_attachSurface (view : ℕ) (s : Service) : (s.attachSurface view).Live ↔ s.Live := by
  simp [Live, attachSurface, Session.attachSurface]

theorem live_onSurfaceReady (s : Service) : s.onSurfaceReady.Live ↔ s.Live := by
  simp [Live, onSurfaceReady, Session.onSurfaceReady]

/-- Every time that `ensureStarted` said yes there was a session on a live connection. -/
def Honest (s : Service) : Prop := ∀ e ∈ s.ensured, e.result = true → e.live = true

instance (s : Service) : Decidable s.Honest := inferInstanceAs (Decidable (∀ e ∈ s.ensured, _))

theorem ensured_openSession (device : ℕ) (o : Opening) :
    (s.openSession device o).2.ensured = s.ensured := by
  unfold openSession
  split_ifs <;> rfl

/-- **When the answer is right.**  `ensureStarted` looks at `started` and at the session,
never at the device. -/
theorem honest_ensureStarted (device : ℕ) (o : Opening) (h : s.Honest) :
    (s.ensureStarted device o).2.Honest ↔ (s.isStarted = true → s.Live) := by
  have hlast : (s.ensureStarted device o).2.Honest ↔
      ((s.openSession device o).1 = true → (s.openSession device o).2.Live) := by
    simp only [Honest, ensureStarted, ensured_openSession, List.mem_append, List.mem_singleton]
    constructor
    · intro hall hresult
      exact of_decide_eq_true (hall _ (.inr rfl) hresult)
    · rintro hnew e (he | rfl) hresult
      · exact h e he hresult
      · exact decide_eq_true (hnew hresult)
  rw [hlast]
  constructor
  · intro hlive hstarted
    have htrue : (s.openSession device o).1 = true := by simp [openSession, hstarted]
    exact (live_openSession device o htrue).1 (hlive htrue) hstarted
  · exact fun hlive htrue => (live_openSession device o htrue).2 hlive

end Service
end App
end Carlinkit
