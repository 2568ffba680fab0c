/-
# The Activity

`CarlinkitActivity` as far as it decides when the dongle is opened and when the
session is told about the Surface.  Its callbacks run on the main thread one after
another, together with the service's commands, so one `Event` is one callback and
a list of events is a run.

What Android decides is part of the event: the device that a search finds with its
permission (`Found`), how an attempt to open comes out (`Opening`), the clock, the
size of the view.  Delayed `Runnable`s wait in `posted`, counted by kind; an event
that runs one does nothing when none is waiting.  There is one Activity at a time;
`created` is false before `onCreate` and after `onDestroy`.

`lastSurface` keeps the last callback of the `SurfaceHolder`.
-/

import Carlinkit.App.Service
import Carlinkit.Machine.Run

namespace Carlinkit
namespace App

/-- `MAX_DONGLE_SEARCH_ATTEMPTS`. -/
def maxDongleSearchAttempts : ℕ := 10

/-- `MAX_DONGLE_RECONNECT_ATTEMPTS`. -/
def maxDongleReconnectAttempts : ℕ := 5

/-- `RECONNECT_WINDOW_MS`. -/
def reconnectWindowMs : ℕ := 120000

/-- `MAX_USB_PERMISSION_ATTEMPTS`. -/
def maxUsbPermissionAttempts : ℕ := 3

/-- `BACK_CONFIRM_WINDOW_MS`. -/
def backConfirmWindowMs : ℕ := 2500

/-- The supported device in the list of `UsbManager`, and whether it may be opened. -/
structure Found where
  device : ℕ
  permitted : Bool
deriving DecidableEq, Repr

/-- A callback of the `SurfaceHolder`. -/
inductive SurfaceEvent
  | created
  | changed
  | destroyed
deriving DecidableEq, Repr

/-- The `SurfaceView`: its size, and whether there is a valid Surface. -/
structure View where
  width : ℕ
  height : ℕ
  valid : Bool
deriving DecidableEq, Repr

/-- `surfaceReady()`. -/
def View.surfaceReady (v : View) : Bool := 0 < v.width && 0 < v.height && v.valid

/-- The size of a Surface. -/
structure Size where
  width : ℕ
  height : ℕ
  width_pos : 0 < width
  height_pos : 0 < height

/-- A Surface of this size is ready. -/
theorem Size.surfaceReady (size : Size) :
    (⟨size.width, size.height, true⟩ : View).surfaceReady = true := by
  simp [View.surfaceReady, size.width_pos, size.height_pos]

/-- The delayed `Runnable`s that wait on the view, by kind. -/
structure Posted where
  searches : ℕ
  reconnects : ℕ
  permissionRetries : ℕ
  muteChecks : ℕ
  heartbeats : ℕ
deriving DecidableEq, Repr

/-- `CarlinkitActivity`; `connected` says that `service` is not null. -/
structure Activity where
  created : Bool
  /-- Which Activity this is, and so which `SurfaceView`. -/
  serial : ℕ
  connected : Bool
  sessionStarted : Bool
  pendingDevice : Option ℕ
  userLeft : Bool
  awaitingUsbPermission : Bool
  usbPermissionAttempts : ℕ
  dongleSearchAttempts : ℕ
  dongleReconnectAttempts : ℕ
  firstReconnectAttemptAt : ℕ
  lastBackPressAt : ℕ
  view : View
  posted : Posted
  lastSurface : Option SurfaceEvent
deriving DecidableEq, Repr

/-- An Activity before its first callback. -/
def Activity.fresh (created : Bool) (serial : ℕ) : Activity where
  created := created
  serial := serial
  connected := false
  sessionStarted := false
  pendingDevice := none
  userLeft := false
  awaitingUsbPermission := false
  usbPermissionAttempts := 0
  dongleSearchAttempts := 0
  dongleReconnectAttempts := 0
  firstReconnectAttemptAt := 0
  lastBackPressAt := 0
  view := ⟨0, 0, false⟩
  posted := ⟨0, 0, 0, 0, 0⟩
  lastSurface := none

/-- The counters, the open questions and the waiting `Runnable`s may differ. -/
structure Activity.Alike (a b : Activity) : Prop where
  sessionStarted : a.sessionStarted = b.sessionStarted
  connected : a.connected = b.connected
  view : a.view = b.view
  lastSurface : a.lastSurface = b.lastSurface

/-- The Activity and the service. -/
structure State where
  activity : Activity
  service : Service

/-- A callback on the main thread. -/
inductive Event
  | onCreate
  | onResume (found : Option Found) (o : Opening)
  | onServiceConnected (found : Option Found) (o : Opening)
  | onServiceDisconnected
  /-- The answer to `requestPermission`. -/
  | usbPermission (device : Option ℕ) (granted : Bool) (o : Opening)
  /-- An instance of the dongle goes away, and the Activity hears of it. -/
  | deviceDetached (device now : ℕ)
  /-- Some USB device came. -/
  | deviceAttached (found : Option Found) (o : Opening)
  | layout (width height : ℕ)
  | surfaceCreated
  | surfaceChanged (size : Size) (o : Opening)
  | surfaceDestroyed
  | onNewIntent
  /-- `recent`: the app itself asked for the assistant or a call just before. -/
  | onUserLeaveHint (recent : Bool)
  /-- `inCall`: the session has a call. -/
  | onBackPressed (now : ℕ) (inCall : Bool)
  | onWindowFocusChanged (hasFocus : Bool)
  /-- A tap on the status line; `ACTION_STOP` follows as `stop`. -/
  | onStatusClick (phoneConnected : Bool)
  | onDestroy
  | runSearch (found : Option Found) (o : Opening)
  | runReconnect (found : Option Found) (o : Opening)
  | runPermissionRetry (found : Option Found) (o : Opening)
  | runMuteCheck
  | runHeartbeat
  /-- The service's `onStartCommand` with `ACTION_STOP`. -/
  | stop
  /-- The service's `onStartCommand` with `ACTION_DEVICE_ATTACHED`. -/
  | serviceDeviceAttached (device : ℕ) (permitted : Bool) (o : Opening)
  | serviceOnDestroy
  /-- The read thread got something from the dongle. -/
  | received

namespace State

/-- `openDevice`. -/
def openDevice (device : ℕ) (o : Opening) (s : State) : State :=
  if s.activity.sessionStarted then s
  else if s.activity.view.surfaceReady = false ∨ s.activity.connected = false then
    { s with activity := { s.activity with pendingDevice := some device } }
  else
    let r := s.service.ensureStarted device o
    if r.1 then
      { activity :=
          { s.activity with
            pendingDevice := none
            sessionStarted := true
            posted := { s.activity.posted with muteChecks := 1, heartbeats := 1 } }
        service := (r.2.attachSurface s.activity.serial).onSurfaceReady }
    else
      { activity := { s.activity with pendingDevice := none }
        service := r.2 }

/-- `findAndOpenDongle`. -/
def findAndOpenDongle (found : Option Found) (o : Opening) (s : State) : State :=
  if s.activity.sessionStarted ∨ s.activity.awaitingUsbPermission then s
  else
    match found with
    | some d =>
        let s := { s with activity := { s.activity with dongleSearchAttempts := 0 } }
        if d.permitted then s.openDevice d.device o
        else
          { s with
            activity :=
              { s.activity with
                awaitingUsbPermission := true
                usbPermissionAttempts := s.activity.usbPermissionAttempts + 1 } }
    | none =>
        if s.activity.dongleSearchAttempts < maxDongleSearchAttempts then
          { s with
            activity :=
              { s.activity with
                dongleSearchAttempts := s.activity.dongleSearchAttempts + 1
                posted :=
                  { s.activity.posted with searches := s.activity.posted.searches + 1 } } }
        else s

/-- `releaseSurface`. -/
def releaseSurface (s : State) : State where
  activity :=
    { s.activity with
      sessionStarted := false
      posted := { s.activity.posted with muteChecks := 0, heartbeats := 0 } }
  service := if s.activity.connected then s.service.detachSurface else s.service

/-- `scheduleDongleReconnect`. -/
def scheduleDongleReconnect (now : ℕ) (s : State) : State :=
  if s.activity.userLeft then s
  else
    let expired := 0 < s.activity.firstReconnectAttemptAt ∧
      reconnectWindowMs < now - s.activity.firstReconnectAttemptAt
    let attempts := if expired then 0 else s.activity.dongleReconnectAttempts
    let first := if expired then 0 else s.activity.firstReconnectAttemptAt
    if maxDongleReconnectAttempts ≤ attempts then
      { s with
        activity :=
          { s.activity with
            dongleReconnectAttempts := attempts
            firstReconnectAttemptAt := first } }
    else
      { s with
        activity :=
          { s.activity with
            firstReconnectAttemptAt := if first = 0 then now else first
            dongleReconnectAttempts := attempts + 1
            awaitingUsbPermission := false
            dongleSearchAttempts := 0
            posted :=
              { s.activity.posted with reconnects := s.activity.posted.reconnects + 1 } } }

/-- `onResume`. -/
def onResume (found : Option Found) (o : Opening) (s : State) : State :=
  let a :=
    if s.activity.awaitingUsbPermission then s.activity
    else
      { s.activity with
        usbPermissionAttempts := 0
        dongleSearchAttempts := 0
        dongleReconnectAttempts := 0
        firstReconnectAttemptAt := 0 }
  findAndOpenDongle found o { s with activity := { a with userLeft := false } }

/-- `onServiceConnected`. -/
def onServiceConnected (found : Option Found) (o : Opening) (s : State) : State :=
  let s := { s with activity := { s.activity with connected := true } }
  if s.service.isStarted then
    let service := s.service.attachSurface s.activity.serial
    { activity := { s.activity with sessionStarted := true }
      service := if s.activity.view.surfaceReady then service.onSurfaceReady else service }
  else
    match s.activity.pendingDevice with
    | some d => openDevice d o { s with activity := { s.activity with pendingDevice := none } }
    | none => findAndOpenDongle found o s

/-- The answer to the permission dialog. -/
def usbPermission (device : Option ℕ) (granted : Bool) (o : Opening) (s : State) : State :=
  let s := { s with activity := { s.activity with awaitingUsbPermission := false } }
  match granted, device with
  | true, some d =>
      openDevice d o { s with activity := { s.activity with usbPermissionAttempts := 0 } }
  | _, _ =>
      if s.activity.usbPermissionAttempts < maxUsbPermissionAttempts then
        { s with
          activity :=
            { s.activity with
              posted :=
                { s.activity.posted with
                  permissionRetries := s.activity.posted.permissionRetries + 1 } } }
      else s

/-- The DETACHED broadcast for the dongle. -/
def deviceDetached (now : ℕ) (s : State) : State := scheduleDongleReconnect now s.releaseSurface

/-- The ATTACHED broadcast. -/
def deviceAttached (found : Option Found) (o : Opening) (s : State) : State :=
  if s.activity.userLeft then s else findAndOpenDongle found o s

/-- `surfaceChanged`. -/
def surfaceChanged (size : Size) (o : Opening) (s : State) : State :=
  let s : State :=
    { s with
      activity :=
        { s.activity with
          view := ⟨size.width, size.height, true⟩
          lastSurface := some .changed } }
  match s.activity.pendingDevice with
  | some d => openDevice d o { s with activity := { s.activity with pendingDevice := none } }
  | none =>
      if s.activity.connected then
        { s with service := (s.service.attachSurface s.activity.serial).onSurfaceReady }
      else s

/-- `surfaceDestroyed`. -/
def surfaceDestroyed (s : State) : State where
  activity :=
    { s.activity with
      view := { s.activity.view with valid := false }
      lastSurface := some .destroyed }
  service := if s.activity.connected then s.service.detachSurface else s.service

/-- `onBackPressed`; the second press within the window leaves. -/
def onBackPressed (now : ℕ) (inCall : Bool) (s : State) : State :=
  if inCall ∧ s.activity.connected ∧ s.service.session.isSome then s
  else if backConfirmWindowMs < now - s.activity.lastBackPressAt then
    { s with activity := { s.activity with lastBackPressAt := now } }
  else releaseSurface { s with activity := { s.activity with userLeft := true } }

/-- `onDestroy`.  A search that still waits on the view of this Activity finds no Surface
there, and gets no further than its `pendingDevice`, or than `requestPermission`
(`PermissionRequests`). -/
def onDestroy (s : State) : State :=
  { s.releaseSurface with activity := .fresh false s.activity.serial }

/-- A delayed search, scheduled by `findAndOpenDongle` or by `scheduleDongleReconnect`. -/
def delayedSearch (found : Option Found) (o : Opening) (s : State) : State :=
  if s.activity.sessionStarted = false ∧ s.activity.userLeft = false then
    findAndOpenDongle found o s
  else s

/-- `muteDongleCheck`. -/
def muteDongleCheck (s : State) : State :=
  if s.activity.sessionStarted = false ∨ s.activity.userLeft then s
  else if s.activity.connected ∧ ∃ x ∈ s.service.session, x.receivedData = true then
    { s with
      activity := { s.activity with dongleReconnectAttempts := 0, firstReconnectAttemptAt := 0 } }
  else s

/-- `sessionHeartbeat` posts itself again. -/
def sessionHeartbeat (s : State) : State :=
  if s.activity.sessionStarted = false ∨ s.activity.userLeft then s
  else
    { s with
      activity :=
        { s.activity with
          posted := { s.activity.posted with heartbeats := s.activity.posted.heartbeats + 1 } } }

/-- Other `Runnable`s wait. -/
def setPosted (posted : Posted) (s : State) : State :=
  { s with activity := { s.activity with posted } }

/-- Takes a `Runnable` from those that wait and runs it. -/
def run (waiting : Posted → ℕ) (taken : Posted → Posted) (body : State → State)
    (s : State) : State :=
  if waiting s.activity.posted = 0 then s
  else body (s.setPosted (taken s.activity.posted))

/-- A callback of the Activity. -/
def activityStep (s : State) : Event → State
  | .onCreate => { s with activity := .fresh true (s.activity.serial + 1) }
  | .onResume found o => onResume found o s
  | .onServiceConnected found o => onServiceConnected found o s
  | .onServiceDisconnected =>
      { s with activity := { s.activity with connected := false, sessionStarted := false } }
  | .usbPermission device granted o => usbPermission device granted o s
  | .deviceDetached _ now => deviceDetached now s
  | .deviceAttached found o => deviceAttached found o s
  | .layout width height =>
      { s with activity := { s.activity with view := { s.activity.view with width, height } } }
  | .surfaceCreated =>
      { s with
        activity :=
          { s.activity with
            view := { s.activity.view with valid := true }
            lastSurface := some .created } }
  | .surfaceChanged size o => surfaceChanged size o s
  | .surfaceDestroyed => surfaceDestroyed s
  | .onNewIntent =>
      { s with activity := { s.activity with userLeft := false, lastBackPressAt := 0 } }
  | .onUserLeaveHint recent =>
      if s.activity.awaitingUsbPermission ∨ recent then s
      else { s with activity := { s.activity with userLeft := true } }
  | .onBackPressed now inCall => onBackPressed now inCall s
  | .onWindowFocusChanged hasFocus =>
      if s.activity.connected then
        { s with service := s.service.onScreenTakenByHeadUnit !hasFocus }
      else s
  | .onStatusClick phoneConnected =>
      if phoneConnected then s
      else { s with activity := { s.activity with sessionStarted := false } }
  | .onDestroy => onDestroy s
  | .runSearch found o =>
      run (·.searches) (fun p => { p with searches := p.searches - 1 })
        (delayedSearch found o) s
  | .runReconnect found o =>
      run (·.reconnects) (fun p => { p with reconnects := p.reconnects - 1 })
        (delayedSearch found o) s
  | .runPermissionRetry found o =>
      run (·.permissionRetries) (fun p => { p with permissionRetries := p.permissionRetries - 1 })
        (findAndOpenDongle found o) s
  | .runMuteCheck =>
      run (·.muteChecks) (fun p => { p with muteChecks := p.muteChecks - 1 }) muteDongleCheck s
  | .runHeartbeat =>
      run (·.heartbeats) (fun p => { p with heartbeats := p.heartbeats - 1 }) sessionHeartbeat s
  | .stop | .serviceDeviceAttached .. | .serviceOnDestroy | .received => s

/-- What an event does to the service before the Activity hears of it. -/
def serviceStep (s : Service) : Event → Service
  | .deviceDetached device _ => s.detached device
  | .stop => s.stopSession
  | .serviceDeviceAttached device permitted o => s.deviceAttached device permitted o
  | .serviceOnDestroy => s.stopSession
  | .received => s.received
  | _ => s

/-- One callback.  An Activity that is not there gets none but `onCreate`. -/
def step (s : State) (e : Event) : State :=
  let s := { s with service := serviceStep s.service e }
  match e with
  | .onCreate => activityStep s .onCreate
  | e => if s.activity.created then activityStep s e else s

/-- Before the first `onCreate`, over a service that may have a session. -/
def start (service : Service) : State := ⟨.fresh false 0, service⟩

/-! ## Opening and searching -/

/-- **What `openDevice` comes to.**  Nothing, when there is a session; a pending device, when
the Surface or the service is missing; otherwise what `ensureStarted` makes of it. -/
theorem openDevice_cases (device : ℕ) (o : Opening) (s : State) :
    (s.activity.sessionStarted = true ∧ openDevice device o s = s) ∨
      (s.activity.sessionStarted = false ∧
        ¬ (s.activity.view.surfaceReady = true ∧ s.activity.connected = true) ∧
        openDevice device o s =
          ⟨{ s.activity with pendingDevice := some device }, s.service⟩) ∨
      (s.activity.sessionStarted = false ∧ s.activity.view.surfaceReady = true ∧
        s.activity.connected = true ∧
        (((s.service.ensureStarted device o).1 = false ∧
            openDevice device o s =
              ⟨{ s.activity with pendingDevice := none },
                (s.service.ensureStarted device o).2⟩) ∨
          ((s.service.ensureStarted device o).1 = true ∧
            ∃ a, openDevice device o s = ⟨a, ((s.service.ensureStarted device
                o).2.attachSurface s.activity.serial).onSurfaceReady⟩ ∧
              a.view = s.activity.view ∧ a.lastSurface = s.activity.lastSurface))) := by
  unfold openDevice
  split_ifs with hstarted hnot
  · exact .inl ⟨hstarted, rfl⟩
  · refine .inr (.inl ⟨by simpa using hstarted, ?_, rfl⟩)
    rintro ⟨hready, hconnected⟩
    simp [hready, hconnected] at hnot
  · have hgo : s.activity.view.surfaceReady = true ∧ s.activity.connected = true := by
      simpa using hnot
    refine .inr (.inr ⟨by simpa using hstarted, hgo.1, hgo.2, ?_⟩)
    dsimp only
    split_ifs with hresult
    · exact .inr ⟨hresult, _, rfl, rfl, rfl⟩
    · exact .inl ⟨by simpa using hresult, rfl⟩

/-- **What a search comes to.**  It opens a device that it may open, or leaves everything
alone but its own counters. -/
theorem findAndOpenDongle_cases (found : Option Found) (o : Opening) (s : State) :
    (s.activity.sessionStarted = false ∧ s.activity.awaitingUsbPermission = false ∧
        ∃ d ∈ found, d.permitted = true ∧ ∃ a : Activity,
          findAndOpenDongle found o s = openDevice d.device o ⟨a, s.service⟩ ∧
            a.Alike s.activity) ∨
      (¬ (s.activity.sessionStarted = false ∧ s.activity.awaitingUsbPermission = false ∧
          ∃ d ∈ found, d.permitted = true) ∧
        ∃ a : Activity, findAndOpenDongle found o s = ⟨a, s.service⟩ ∧
          a.Alike s.activity) := by
  unfold findAndOpenDongle
  by_cases hnot : s.activity.sessionStarted ∨ s.activity.awaitingUsbPermission
  · rw [if_pos hnot]
    refine .inr ⟨?_, s.activity, rfl, ⟨rfl, rfl, rfl, rfl⟩⟩
    rintro ⟨hstarted, hawait, -⟩
    simp [hstarted, hawait] at hnot
  · rw [if_neg hnot]
    obtain ⟨hstarted, hawait⟩ := not_or.1 hnot
    cases found with
    | none =>
        refine .inr ⟨by simp, ?_⟩
        dsimp only
        split_ifs
        · exact ⟨_, rfl, ⟨rfl, rfl, rfl, rfl⟩⟩
        · exact ⟨_, rfl, ⟨rfl, rfl, rfl, rfl⟩⟩
    | some d =>
        dsimp only
        split_ifs with hpermitted
        · refine .inl ⟨by simpa using hstarted, by simpa using hawait, d, rfl, hpermitted, ?_⟩
          exact ⟨_, rfl, ⟨rfl, rfl, rfl, rfl⟩⟩
        · refine .inr ⟨?_, _, rfl, ⟨rfl, rfl, rfl, rfl⟩⟩
          rintro ⟨-, -, d', hd', hpermitted'⟩
          obtain rfl := Option.some.inj hd'
          exact hpermitted hpermitted'

/-! ## Callbacks that may open the dongle -/

end State

/-- What no search and no opening changes. -/
structure Activity.Steady (a b : Activity) : Prop where
  created : b.created = a.created
  connected : b.connected = a.connected
  userLeft : b.userLeft = a.userLeft
  dongleReconnectAttempts : b.dongleReconnectAttempts = a.dongleReconnectAttempts
  firstReconnectAttemptAt : b.firstReconnectAttemptAt = a.firstReconnectAttemptAt

/-- The counters of the search and of the permission are the same. -/
structure Activity.SameSearch (a b : Activity) : Prop where
  created : b.created = a.created
  awaitingUsbPermission : b.awaitingUsbPermission = a.awaitingUsbPermission
  usbPermissionAttempts : b.usbPermissionAttempts = a.usbPermissionAttempts
  dongleReconnectAttempts : b.dongleReconnectAttempts = a.dongleReconnectAttempts
  firstReconnectAttemptAt : b.firstReconnectAttemptAt = a.firstReconnectAttemptAt

/-- The session and its beats. -/
def Activity.SameBeats (a b : Activity) : Prop :=
  b.sessionStarted = a.sessionStarted ∧ b.posted.heartbeats = a.posted.heartbeats

/-- The session loses its Surface or the screen, or nothing happens to it. -/
def Service.Left (s t : Service) : Prop :=
  t = s ∨ t = s.detachSurface ∨ ∃ taken, t = s.onScreenTakenByHeadUnit taken

/-- The service is asked for a session, or is not. -/
def Service.Asked (s t : Service) : Prop := t = s ∨ ∃ device o, t = (s.ensureStarted device o).2

namespace State

/-- From `s` the dongle may be opened, and the session be given the Surface: the Activity
takes a session with its beats over from the service, or keeps what it had. -/
structure Tries (s t : State) : Prop where
  steady : s.activity.Steady t.activity
  beats : s.activity.SameBeats t.activity ∨ t.activity.posted.heartbeats = 1
  service : ∃ r, s.service.Asked r ∧
    (t.service = r ∨ ∃ view, t.service = (r.attachSurface view).onSurfaceReady)

/-- The other data of the Activity say nothing of these. -/
theorem Tries.of_activity {s t : State} {a : Activity} (h : Tries ⟨a, s.service⟩ t)
    (ha : s.activity.Steady a) (hbeats : s.activity.SameBeats a) : Tries s t where
  steady :=
    ⟨h.steady.created.trans ha.created, h.steady.connected.trans ha.connected,
      h.steady.userLeft.trans ha.userLeft,
      h.steady.dongleReconnectAttempts.trans ha.dongleReconnectAttempts,
      h.steady.firstReconnectAttemptAt.trans ha.firstReconnectAttemptAt⟩
  beats := h.beats.imp_left fun hsame => ⟨hsame.1.trans hbeats.1, hsame.2.trans hbeats.2⟩
  service := h.service

/-- Nothing happens but to other data of the Activity. -/
theorem tries_of_activity {s : State} {a : Activity} (ha : s.activity.Steady a)
    (hbeats : s.activity.SameBeats a) : Tries s ⟨a, s.service⟩ :=
  ⟨ha, .inl hbeats, s.service, .inl rfl, .inl rfl⟩

theorem tries_refl (s : State) : Tries s s :=
  tries_of_activity ⟨rfl, rfl, rfl, rfl, rfl⟩ ⟨rfl, rfl⟩

theorem tries_openDevice (device : ℕ) (o : Opening) (s : State) :
    Tries s (openDevice device o s) := by
  unfold openDevice
  split_ifs
  · exact tries_refl s
  · exact tries_of_activity ⟨rfl, rfl, rfl, rfl, rfl⟩ ⟨rfl, rfl⟩
  · have hasked : s.service.Asked (s.service.ensureStarted device o).2 := .inr ⟨device, o, rfl⟩
    dsimp only
    split_ifs
    · exact ⟨⟨rfl, rfl, rfl, rfl, rfl⟩, .inr rfl, _, hasked, .inr ⟨_, rfl⟩⟩
    · exact ⟨⟨rfl, rfl, rfl, rfl, rfl⟩, .inl ⟨rfl, rfl⟩, _, hasked, .inl rfl⟩

theorem tries_findAndOpenDongle (found : Option Found) (o : Opening) (s : State) :
    Tries s (findAndOpenDongle found o s) := by
  unfold findAndOpenDongle
  by_cases hnot : s.activity.sessionStarted ∨ s.activity.awaitingUsbPermission
  · rw [if_pos hnot]
    exact tries_refl s
  · rw [if_neg hnot]
    cases found with
    | none =>
        dsimp only
        split_ifs
        · exact tries_of_activity ⟨rfl, rfl, rfl, rfl, rfl⟩ ⟨rfl, rfl⟩
        · exact tries_refl s
    | some d =>
        dsimp only
        split_ifs
        · exact (tries_openDevice d.device o _).of_activity ⟨rfl, rfl, rfl, rfl, rfl⟩ ⟨rfl, rfl⟩
        · exact tries_of_activity ⟨rfl, rfl, rfl, rfl, rfl⟩ ⟨rfl, rfl⟩

theorem tries_delayedSearch (found : Option Found) (o : Opening) (s : State) :
    Tries s (delayedSearch found o s) := by
  unfold delayedSearch
  split_ifs
  · exact tries_findAndOpenDongle found o s
  · exact tries_refl s

theorem tries_usbPermission (device : Option ℕ) (granted : Bool) (o : Opening) (s : State) :
    Tries s (usbPermission device granted o s) := by
  unfold usbPermission
  dsimp only
  split
  · exact (tries_openDevice _ o _).of_activity ⟨rfl, rfl, rfl, rfl, rfl⟩ ⟨rfl, rfl⟩
  · split_ifs <;> exact tries_of_activity ⟨rfl, rfl, rfl, rfl, rfl⟩ ⟨rfl, rfl⟩

theorem tries_surfaceChanged (size : Size) (o : Opening) (s : State) :
    Tries s (surfaceChanged size o s) := by
  unfold surfaceChanged
  dsimp only
  split
  · exact (tries_openDevice _ o _).of_activity ⟨rfl, rfl, rfl, rfl, rfl⟩ ⟨rfl, rfl⟩
  · split_ifs
    · exact ⟨⟨rfl, rfl, rfl, rfl, rfl⟩, .inl ⟨rfl, rfl⟩, _, .inl rfl, .inr ⟨_, rfl⟩⟩
    · exact tries_of_activity ⟨rfl, rfl, rfl, rfl, rfl⟩ ⟨rfl, rfl⟩

theorem tries_run {s : State} {waiting : Posted → ℕ} {taken : Posted → Posted}
    {body : State → State} (htaken : ∀ p : Posted, (taken p).heartbeats = p.heartbeats)
    (hbody : ∀ s, Tries s (body s)) : Tries s (run waiting taken body s) := by
  unfold run
  split_ifs
  · exact tries_refl s
  · exact (hbody _).of_activity ⟨rfl, rfl, rfl, rfl, rfl⟩ ⟨rfl, htaken _⟩

/-- The callbacks that search or open, with the Activity as it is. -/
def MayOpen : Event → Prop
  | .usbPermission .. | .deviceAttached .. | .surfaceChanged .. | .runSearch ..
  | .runReconnect .. | .runPermissionRetry .. => True
  | _ => False

/-- **What a search or an opening comes to.** -/
theorem tries_activityStep {e : Event} (h : MayOpen e) (s : State) :
    Tries s (activityStep s e) := by
  cases e with
  | usbPermission device granted o => exact tries_usbPermission device granted o s
  | deviceAttached found o =>
      simp only [activityStep, deviceAttached]
      split_ifs
      · exact tries_refl s
      · exact tries_findAndOpenDongle found o s
  | surfaceChanged size o => exact tries_surfaceChanged size o s
  | runSearch found o =>
      simp only [activityStep]
      exact tries_run (fun _ => rfl) (tries_delayedSearch found o)
  | runReconnect found o =>
      simp only [activityStep]
      exact tries_run (fun _ => rfl) (tries_delayedSearch found o)
  | runPermissionRetry found o =>
      simp only [activityStep]
      exact tries_run (fun _ => rfl) (tries_findAndOpenDongle found o)
  | _ => exact absurd h id

/-! ## Callbacks that do neither -/

/-- The callbacks of the user, of the screen and of the heartbeat. -/
def Aside : Event → Prop
  | .onServiceDisconnected | .layout .. | .surfaceCreated | .surfaceDestroyed | .onNewIntent
  | .onUserLeaveHint _ | .onBackPressed .. | .onWindowFocusChanged _ | .onStatusClick _
  | .runHeartbeat => True
  | _ => False

/-- **They have nothing to do with the search.** -/
theorem sameSearch_activityStep {e : Event} (h : Aside e) (s : State) :
    s.activity.SameSearch (activityStep s e).activity := by
  cases e with
  | onUserLeaveHint recent =>
      simp only [activityStep]
      split_ifs <;> exact ⟨rfl, rfl, rfl, rfl, rfl⟩
  | onBackPressed now inCall =>
      simp only [activityStep, onBackPressed]
      split_ifs <;> exact ⟨rfl, rfl, rfl, rfl, rfl⟩
  | onWindowFocusChanged hasFocus =>
      simp only [activityStep]
      split_ifs <;> exact ⟨rfl, rfl, rfl, rfl, rfl⟩
  | onStatusClick phoneConnected =>
      simp only [activityStep]
      split_ifs <;> exact ⟨rfl, rfl, rfl, rfl, rfl⟩
  | runHeartbeat =>
      simp only [activityStep, run, sessionHeartbeat]
      split_ifs <;> exact ⟨rfl, rfl, rfl, rfl, rfl⟩
  | onServiceDisconnected | layout | surfaceCreated | surfaceDestroyed | onNewIntent =>
      exact ⟨rfl, rfl, rfl, rfl, rfl⟩
  | _ => exact absurd h id

theorem left_releaseSurface (s : State) : s.service.Left s.releaseSurface.service := by
  unfold releaseSurface
  dsimp only
  split_ifs
  · exact .inr (.inl rfl)
  · exact .inl rfl

/-- **They take no more from the session than its Surface.** -/
theorem left_activityStep {e : Event} (h : Aside e) (s : State) :
    s.service.Left (activityStep s e).service := by
  cases e with
  | surfaceDestroyed =>
      simp only [activityStep, surfaceDestroyed]
      split_ifs
      · exact .inr (.inl rfl)
      · exact .inl rfl
  | onUserLeaveHint recent =>
      simp only [activityStep]
      split_ifs <;> exact .inl rfl
  | onBackPressed now inCall =>
      simp only [activityStep, onBackPressed]
      split_ifs
      · exact .inl rfl
      · exact .inl rfl
      · exact left_releaseSurface _
  | onWindowFocusChanged hasFocus =>
      simp only [activityStep]
      split_ifs
      · exact .inr (.inr ⟨_, rfl⟩)
      · exact .inl rfl
  | onStatusClick phoneConnected =>
      simp only [activityStep]
      split_ifs <;> exact .inl rfl
  | runHeartbeat =>
      simp only [activityStep, run, sessionHeartbeat]
      split_ifs <;> exact .inl rfl
  | onServiceDisconnected | layout | surfaceCreated | onNewIntent => exact .inl rfl
  | _ => exact absurd h id

/-! ## One callback -/

/-- **Who hears of a callback.**  The service first, and then the Activity, when it is there
or begins. -/
theorem step_cases (s : State) (e : Event) :
    ((s.activity.created = true ∨ e = .onCreate) ∧
        step s e = activityStep { s with service := serviceStep s.service e } e) ∨
      (s.activity.created = false ∧ e ≠ .onCreate ∧
        step s e = { s with service := serviceStep s.service e }) := by
  by_cases hcreate : e = .onCreate
  · subst hcreate
    exact .inl ⟨.inr rfl, rfl⟩
  · by_cases hcreated : s.activity.created = true
    · refine .inl ⟨.inl hcreated, ?_⟩
      cases e with
      | onCreate => exact absurd rfl hcreate
      | _ => exact if_pos hcreated
    · refine .inr ⟨by simpa using hcreated, hcreate, ?_⟩
      cases e with
      | onCreate => exact absurd rfl hcreate
      | _ => exact if_neg hcreated

end State
end App
end Carlinkit
