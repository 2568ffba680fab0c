/-
# The steering wheel service

`HondaConnectManager` binds to the head unit's `ISteeringMenuService` and registers
one `SteeringMenuServiceCallback` there.  Three fields say how far that got: the
bound flag, the interface and the callback.  A new binder comes after the service
restarts, and by then one of three paths has let go of the old one:
`onServiceDisconnected`, the `Runnable` that the death recipient posts, or
`checkAndReconnectServices` at the next resume.  Only the first of them forgets
the callback, and `registerSteeringMenuCallback` does nothing while there is one.

The state holds the three fields, `hasAudioFocus_`, what Android knows (the bind
request, the binders with a death recipient, the dead binders, the posted
`Runnable`s) and what the service knows (registrations and display modes, by
binder).  All of it runs on the main thread but `onShowView`, which is one call of
`notifySteeringMenuDispMode`, so the lists of events are the interleavings.  Remote
calls return; they do not throw.

`settled` records the binders to which the manager was bound when
`onServiceConnected` or `initAudioBinding` came to its end, as long as nothing was
unregistered since.  `registered_iff` says when each of them has a callback.
-/

import Mathlib.Data.Int.Notation
import Carlinkit.Machine.Run

namespace Carlinkit
namespace Manager
namespace SteeringMenu

open Machine

/-- What the manager finds when it is made, and the address from the settings. -/
structure Config where
  /-- `pControl_`: whether there is an entry in the whitelist, and whether its
  `authType` is `AUTH_TYPE_PREINSTALL`. -/
  pControl_ : Option Bool
  /-- Whether there is a `modeMgrManager_`. -/
  modeMgrManager_ : Bool
  steeringWheelIdx : ℤ
deriving DecidableEq, Repr

/-- A callback that a binder got, and the address it got it for. -/
structure Registration where
  binder : ℕ
  callback : ℕ
  idx : ℤ
deriving DecidableEq, Repr

/-- A mode that a binder was told, and the address it was told it for. -/
structure DispMode where
  binder : ℕ
  idx : ℤ
  mode : ℕ
deriving DecidableEq, Repr

/-- The manager, Android and the service. -/
structure State where
  boundToSteeringMenuService_ : Bool
  steeringMenuServiceIface_ : Option ℕ
  steeringMenuServiceCallback_ : Option ℕ
  hasAudioFocus_ : Bool
  /-- `bindService` was called and `unbindService` was not. -/
  requested : Bool
  /-- The binders with `steeringMenuServiceDeathRecipient_`. -/
  linked : List ℕ
  dead : List ℕ
  /-- The `Runnable`s that the death recipient posted. -/
  posted : ℕ
  /-- How many `SteeringMenuServiceCallback`s were made. -/
  callbacks : ℕ
  registrations : List Registration
  dispModes : List DispMode
  settled : List ℕ
deriving DecidableEq, Repr

/-- The manager after its constructor. -/
def start : State where
  boundToSteeringMenuService_ := false
  steeringMenuServiceIface_ := none
  steeringMenuServiceCallback_ := none
  hasAudioFocus_ := false
  requested := false
  linked := []
  dead := []
  posted := 0
  callbacks := 0
  registrations := []
  dispModes := []
  settled := []

/-- A call of the manager, or of Android into it. -/
inductive Event
  | bindToWheelService
  | onServiceConnected (binder : ℕ)
  | onServiceDisconnected
  /-- The process behind a binder dies. -/
  | die (binder : ℕ)
  /-- The main thread comes to a `Runnable` of the death recipient. -/
  | runPosted
  | checkAndReconnectServices
  | requestAudioFocus
  | releaseAudioFocus
  | initAudioBinding
  | sendToBackground
  | endAudioBinding
  /-- The service calls a `SteeringMenuServiceCallback` that it got, at any time later. -/
  | onShowView
deriving DecidableEq, Repr

variable (c : Config)

/-- `bindToWheelService`; the binder comes later, with `onServiceConnected`. -/
def bindToWheelService (s : State) : State :=
  if s.boundToSteeringMenuService_ then s else { s with requested := true }

/-- `unlinkToDeath` on the interface. -/
def unlinkToDeath (s : State) : State :=
  match s.steeringMenuServiceIface_ with
  | none => s
  | some b => { s with linked := s.linked.erase b }

/-- `unbindToWheelService`. -/
def unbindToWheelService (s : State) : State :=
  if s.boundToSteeringMenuService_ then
    { unlinkToDeath s with
      requested := false
      boundToSteeringMenuService_ := false
      steeringMenuServiceIface_ := none }
  else s

/-- `notifySteeringMenuDispMode`. -/
def notifySteeringMenuDispMode (mode : ℕ) (s : State) : State :=
  match s.steeringMenuServiceIface_ with
  | none => s
  | some b =>
      if s.boundToSteeringMenuService_ ∧ 0 < c.steeringWheelIdx then
        { s with dispModes := s.dispModes ++ [⟨b, c.steeringWheelIdx, mode⟩] }
      else s

/-- `registerSteeringMenuCallback`; there is an interface whenever the flag is set. -/
def registerSteeringMenuCallback (s : State) : State :=
  if s.boundToSteeringMenuService_ ∧ s.steeringMenuServiceCallback_ = none then
    { s with
      steeringMenuServiceCallback_ := some s.callbacks
      callbacks := s.callbacks + 1
      registrations := s.registrations ++
        (s.steeringMenuServiceIface_.map
          fun b => ⟨b, s.callbacks, c.steeringWheelIdx⟩).toList }
  else s

/-- `unregisterSteeringMenuCallback`. -/
def unregisterSteeringMenuCallback (s : State) : State :=
  match s.boundToSteeringMenuService_, s.steeringMenuServiceIface_,
      s.steeringMenuServiceCallback_ with
  | true, some b, some callback =>
      { s with
        registrations := s.registrations.erase ⟨b, callback, c.steeringWheelIdx⟩
        steeringMenuServiceCallback_ := none
        settled := [] }
  | _, _, _ => { s with settled := [] }

/-- The binder that the manager is bound to has been served. -/
def settle (s : State) : State :=
  match s.steeringMenuServiceIface_ with
  | some b =>
      if s.boundToSteeringMenuService_ then { s with settled := b :: s.settled } else s
  | none => s

/-- `onServiceConnected`. -/
def onServiceConnected (binder : ℕ) (s : State) : State :=
  let s := { s with
    boundToSteeringMenuService_ := true
    steeringMenuServiceIface_ := some binder
    linked := binder :: s.linked }
  let s := registerSteeringMenuCallback c s
  settle <|
    match c.pControl_ with
    | none => s
    | some preinstall =>
        if preinstall = false ∨ s.hasAudioFocus_ then notifySteeringMenuDispMode c 1 s else s

/-- `onServiceDisconnected`. -/
def onServiceDisconnected (s : State) : State :=
  { unlinkToDeath s with
    boundToSteeringMenuService_ := false
    steeringMenuServiceIface_ := none
    steeringMenuServiceCallback_ := none }

/-- A process dies; `binderDied` posts to the main thread. -/
def die (binder : ℕ) (s : State) : State :=
  { s with
    dead := binder :: s.dead
    linked := s.linked.filter (· ≠ binder)
    posted := s.posted + s.linked.count binder }

/-- The `Runnable` of the death recipient. -/
def runPosted (s : State) : State :=
  if s.posted = 0 then s
  else bindToWheelService (unbindToWheelService { s with posted := s.posted - 1 })

/-- `checkAndReconnectServices`, the part about the wheel. -/
def checkAndReconnectServices (s : State) : State :=
  if s.boundToSteeringMenuService_ then
    if ∃ b ∈ s.steeringMenuServiceIface_, b ∉ s.dead then s
    else bindToWheelService (unbindToWheelService s)
  else bindToWheelService s

/-- `requestAudioFocus`, the part about the wheel. -/
def requestAudioFocus (s : State) : State :=
  if c.pControl_ = none ∨ c.modeMgrManager_ = false ∨ s.hasAudioFocus_ then s
  else { notifySteeringMenuDispMode c 1 s with hasAudioFocus_ := true }

/-- `releaseAudioFocus`, the part about the wheel. -/
def releaseAudioFocus (s : State) : State :=
  if c.pControl_ = none ∨ c.modeMgrManager_ = false ∨ s.hasAudioFocus_ = false then s
  else { notifySteeringMenuDispMode c 0 s with hasAudioFocus_ := false }

/-- `initAudioBinding`, the part about the wheel.  Without an entry in the whitelist it comes
to its end at once. -/
def initAudioBinding (s : State) : State :=
  if c.pControl_ = none then settle s
  else
    let s := checkAndReconnectServices s
    let s := if s.boundToSteeringMenuService_ then s else bindToWheelService s
    let s := registerSteeringMenuCallback c s
    settle (if s.hasAudioFocus_ then notifySteeringMenuDispMode c 1 s else s)

/-- `sendToBackground`, the part about the wheel. -/
def sendToBackground (s : State) : State :=
  notifySteeringMenuDispMode c 0 (unregisterSteeringMenuCallback c s)

/-- `endAudioBinding`, the part about the wheel. -/
def endAudioBinding (s : State) : State :=
  unbindToWheelService (unregisterSteeringMenuCallback c (releaseAudioFocus c s))

/-- `SteeringMenuServiceCallback.onShowView`. -/
def onShowView (s : State) : State := notifySteeringMenuDispMode c 1 s

/-- One event. -/
def step (s : State) : Event → State
  | .bindToWheelService => bindToWheelService s
  | .onServiceConnected binder => onServiceConnected c binder s
  | .onServiceDisconnected => onServiceDisconnected s
  | .die binder => die binder s
  | .runPosted => runPosted s
  | .checkAndReconnectServices => checkAndReconnectServices s
  | .requestAudioFocus => requestAudioFocus c s
  | .releaseAudioFocus => releaseAudioFocus c s
  | .initAudioBinding => initAudioBinding c s
  | .sendToBackground => sendToBackground c s
  | .endAudioBinding => endAudioBinding c s
  | .onShowView => onShowView c s

/-- A callback is registered on the binder. -/
def State.Has (s : State) (binder : ℕ) : Prop := ∃ r ∈ s.registrations, r.binder = binder

instance (s : State) (binder : ℕ) : Decidable (s.Has binder) :=
  inferInstanceAs (Decidable (∃ r ∈ s.registrations, _))

/-- Every binder that was served, with nothing unregistered since, has a callback. -/
def Registered (s : State) : Prop := ∀ b ∈ s.settled, s.Has b

instance (s : State) : Decidable (Registered s) :=
  inferInstanceAs (Decidable (∀ b ∈ s.settled, _))

/-- A binder comes when no callback is left over, or it has one already; and without an entry
in the whitelist `initAudioBinding` finds a callback in the field, or a binder that has one, or
no binder. -/
def Renewed (s : State) : Event → Prop
  | .onServiceConnected binder => s.steeringMenuServiceCallback_ = none ∨ s.Has binder
  | .initAudioBinding => c.pControl_ ≠ none ∨ s.steeringMenuServiceCallback_ ≠ none ∨
      ∀ b ∈ s.steeringMenuServiceIface_, s.Has b
  | _ => True

instance (s : State) : ∀ e, Decidable (Renewed c s e)
  | .onServiceConnected _ => inferInstanceAs (Decidable (_ ∨ _))
  | .initAudioBinding => inferInstanceAs (Decidable (_ ∨ _ ∨ _))
  | .bindToWheelService | .onServiceDisconnected | .die _ | .runPosted
  | .checkAndReconnectServices | .requestAudioFocus | .releaseAudioFocus
  | .sendToBackground | .endAudioBinding | .onShowView => .isTrue trivial

/-! ## What the calls keep -/

/-- The flag says whether there is an interface; a callback that is not forgotten is
registered there, and every binder that was served has one. -/
structure State.Sane (s : State) : Prop where
  bound_eq : s.boundToSteeringMenuService_ = s.steeringMenuServiceIface_.isSome
  has : ∀ b ∈ s.steeringMenuServiceIface_, s.steeringMenuServiceCallback_ ≠ none → s.Has b
  registered : Registered s

theorem sane_start : start.Sane where
  bound_eq := rfl
  has := by simp [start]
  registered := by simp [Registered, start]

variable {c} {s : State}

@[simp] theorem notifySteeringMenuDispMode_bound (mode : ℕ) :
    (notifySteeringMenuDispMode c mode s).boundToSteeringMenuService_ =
      s.boundToSteeringMenuService_ := by
  unfold notifySteeringMenuDispMode
  split <;> [skip; split_ifs] <;> rfl

@[simp] theorem notifySteeringMenuDispMode_iface (mode : ℕ) :
    (notifySteeringMenuDispMode c mode s).steeringMenuServiceIface_ =
      s.steeringMenuServiceIface_ := by
  unfold notifySteeringMenuDispMode
  split <;> [skip; split_ifs] <;> rfl

/-- Telling the service a mode changes nothing that `Sane` speaks of. -/
theorem State.Sane.notify (h : s.Sane) (mode : ℕ) :
    (notifySteeringMenuDispMode c mode s).Sane := by
  unfold notifySteeringMenuDispMode
  split
  · exact h
  · split_ifs
    · exact ⟨h.bound_eq, h.has, h.registered⟩
    · exact h

theorem State.Sane.bind (h : s.Sane) : (bindToWheelService s).Sane := by
  unfold bindToWheelService
  split_ifs
  · exact h
  · exact ⟨h.bound_eq, h.has, h.registered⟩

theorem unlinkToDeath_eq (s : State) : ∃ linked, unlinkToDeath s = { s with linked := linked } := by
  unfold unlinkToDeath
  split
  · exact ⟨s.linked, rfl⟩
  · exact ⟨_, rfl⟩

/-- Unbinding leaves no interface, so the callback that is left over is no matter yet. -/
theorem State.Sane.unbind (h : s.Sane) : (unbindToWheelService s).Sane := by
  unfold unbindToWheelService
  split_ifs
  · obtain ⟨linked, hlinked⟩ := unlinkToDeath_eq s
    rw [hlinked]
    exact ⟨rfl, by simp, h.registered⟩
  · exact h

theorem State.Sane.disconnected (h : s.Sane) : (onServiceDisconnected s).Sane := by
  obtain ⟨linked, hlinked⟩ := unlinkToDeath_eq s
  unfold onServiceDisconnected
  rw [hlinked]
  exact ⟨rfl, by simp, h.registered⟩

/-- Registering keeps what is there, and adds what is missing. -/
theorem State.Sane.register (h : s.Sane) : (registerSteeringMenuCallback c s).Sane ∧
    ∀ b ∈ s.steeringMenuServiceIface_, (registerSteeringMenuCallback c s).Has b := by
  unfold registerSteeringMenuCallback
  split_ifs with hnew
  · have hkept : ∀ b, s.Has b → ∀ more, ∃ r ∈ s.registrations ++ more, r.binder = b := by
      rintro b ⟨r, hr, hb⟩ more
      exact ⟨r, List.mem_append_left _ hr, hb⟩
    have hadded : ∀ b ∈ s.steeringMenuServiceIface_, ∃ r ∈ s.registrations ++
        (s.steeringMenuServiceIface_.map
          fun b => (⟨b, s.callbacks, c.steeringWheelIdx⟩ : Registration)).toList,
        r.binder = b := by
      intro b hb
      exact ⟨⟨b, s.callbacks, c.steeringWheelIdx⟩, by simp [Option.mem_def.1 hb], rfl⟩
    refine ⟨⟨h.bound_eq, fun b hb _ => hadded b hb, ?_⟩, hadded⟩
    intro b hb
    exact hkept b (h.registered b hb) _
  · refine ⟨h, fun b hb => h.has b hb fun hnone => hnew ⟨?_, hnone⟩⟩
    rw [h.bound_eq, Option.mem_def.1 hb]
    rfl

@[simp] theorem registerSteeringMenuCallback_iface :
    (registerSteeringMenuCallback c s).steeringMenuServiceIface_ =
      s.steeringMenuServiceIface_ := by
  unfold registerSteeringMenuCallback
  split_ifs <;> rfl

/-- Unregistering settles nobody any more. -/
theorem State.Sane.unregister (h : s.Sane) : (unregisterSteeringMenuCallback c s).Sane := by
  unfold unregisterSteeringMenuCallback
  split
  · exact ⟨h.bound_eq, by simp, by simp [Registered]⟩
  · exact ⟨h.bound_eq, h.has, by simp [Registered]⟩

/-- A binder is served rightly when it has a callback. -/
theorem State.Sane.settle (h : s.Sane) (hhas : ∀ b ∈ s.steeringMenuServiceIface_, s.Has b) :
    (settle s).Sane := by
  unfold SteeringMenu.settle
  split
  case h_1 b hb =>
    split_ifs
    · refine ⟨h.bound_eq, h.has, ?_⟩
      intro b' hb'
      rcases List.mem_cons.1 hb' with rfl | hb'
      · exact hhas b' hb
      · exact h.registered b' hb'
    · exact h
  case h_2 => exact h

@[simp] theorem has_settle {b : ℕ} : (settle s).Has b ↔ s.Has b := by
  unfold settle
  split <;> [split_ifs; skip] <;> rfl

@[simp] theorem has_notify {mode b : ℕ} :
    (notifySteeringMenuDispMode c mode s).Has b ↔ s.Has b := by
  unfold notifySteeringMenuDispMode
  split <;> [skip; split_ifs] <;> rfl

theorem State.Sane.requestAudioFocus (h : s.Sane) : (requestAudioFocus c s).Sane := by
  unfold SteeringMenu.requestAudioFocus
  split_ifs
  · exact h
  · have hn := h.notify (c := c) 1
    exact ⟨hn.bound_eq, hn.has, hn.registered⟩

theorem State.Sane.releaseAudioFocus (h : s.Sane) : (releaseAudioFocus c s).Sane := by
  unfold SteeringMenu.releaseAudioFocus
  split_ifs
  · exact h
  · have hn := h.notify (c := c) 0
    exact ⟨hn.bound_eq, hn.has, hn.registered⟩

theorem State.Sane.checkAndReconnectServices (h : s.Sane) :
    (checkAndReconnectServices s).Sane := by
  unfold SteeringMenu.checkAndReconnectServices
  split_ifs
  · exact h
  · exact h.unbind.bind
  · exact h.bind

theorem State.Sane.runPosted (h : s.Sane) : (runPosted s).Sane := by
  unfold SteeringMenu.runPosted
  split_ifs
  · exact h
  · have hposted : ({ s with posted := s.posted - 1 } : State).Sane :=
      ⟨h.bound_eq, h.has, h.registered⟩
    exact hposted.unbind.bind

/-- Registering, perhaps telling the mode, and being done. -/
theorem State.Sane.serve (h : s.Sane) {s' : State}
    (hs' : s' = registerSteeringMenuCallback c s ∨
      s' = notifySteeringMenuDispMode c 1 (registerSteeringMenuCallback c s)) :
    (SteeringMenu.settle s').Sane := by
  obtain ⟨hreg, hhas⟩ := h.register (c := c)
  rcases hs' with rfl | rfl
  · exact hreg.settle fun b hb => hhas b (by simpa using hb)
  · exact (hreg.notify 1).settle fun b hb => has_notify.2 (hhas b (by simpa using hb))

/-- Without an entry in the whitelist nothing is registered, and nothing need be. -/
theorem State.Sane.initAudioBinding (h : s.Sane) (hr : Renewed c s .initAudioBinding) :
    (initAudioBinding c s).Sane := by
  by_cases hnone : c.pControl_ = none
  · rw [SteeringMenu.initAudioBinding, if_pos hnone]
    refine h.settle fun b hb => ?_
    rcases hr.resolve_left (not_not.2 hnone) with hcallback | hhas
    · exact h.has b hb hcallback
    · exact hhas b hb
  · have hcheck := h.checkAndReconnectServices
    have hbind : (if (SteeringMenu.checkAndReconnectServices s).boundToSteeringMenuService_
        then SteeringMenu.checkAndReconnectServices s
        else bindToWheelService (SteeringMenu.checkAndReconnectServices s)).Sane := by
      split_ifs
      · exact hcheck
      · exact hcheck.bind
    rw [SteeringMenu.initAudioBinding, if_neg hnone]
    refine hbind.serve (c := c) ?_
    split_ifs <;> simp

/-! ## A new binder -/

/-- The state in which a new binder finds the manager's fields. -/
def connected (binder : ℕ) (s : State) : State :=
  { s with
    boundToSteeringMenuService_ := true
    steeringMenuServiceIface_ := some binder
    linked := binder :: s.linked }

@[simp] theorem has_connected {binder b : ℕ} : (connected binder s).Has b ↔ s.Has b := Iff.rfl

/-- The test of `authType` decides about a mode only. -/
theorem onServiceConnected_eq (binder : ℕ) (s : State) :
    ∃ s', (s' = registerSteeringMenuCallback c (connected binder s) ∨
        s' = notifySteeringMenuDispMode c 1
          (registerSteeringMenuCallback c (connected binder s))) ∧
      onServiceConnected c binder s = settle s' := by
  refine ⟨_, ?_, rfl⟩
  unfold connected
  split
  · exact .inl rfl
  · split_ifs
    · exact .inr rfl
    · exact .inl rfl

theorem State.Sane.connected {binder : ℕ} (h : s.Sane)
    (hr : s.steeringMenuServiceCallback_ = none ∨ s.Has binder) :
    (connected binder s).Sane where
  bound_eq := rfl
  has := by
    intro b hb hcallback
    obtain rfl : binder = b := by simpa [SteeringMenu.connected] using hb
    exact hr.resolve_left hcallback
  registered := h.registered

theorem State.Sane.onServiceConnected {binder : ℕ} (h : s.Sane)
    (hr : s.steeringMenuServiceCallback_ = none ∨ s.Has binder) :
    (onServiceConnected c binder s).Sane := by
  obtain ⟨s', hs', heq⟩ := onServiceConnected_eq (c := c) binder s
  rw [heq]
  exact (h.connected hr).serve hs'

/-- A callback that is left over keeps the new binder from getting one. -/
theorem registered_onServiceConnected {binder : ℕ}
    (hreg : Registered (onServiceConnected c binder s)) :
    s.steeringMenuServiceCallback_ = none ∨ s.Has binder := by
  by_contra hnot
  obtain ⟨hcallback, hhas⟩ := not_or.1 hnot
  have hskip : registerSteeringMenuCallback c (connected binder s) = connected binder s := by
    simp [registerSteeringMenuCallback, connected, hcallback]
  obtain ⟨s', hs', heq⟩ := onServiceConnected_eq (c := c) binder s
  rw [heq] at hreg
  rw [hskip] at hs'
  refine hhas ?_
  rcases hs' with rfl | rfl
  · have hserved := hreg binder (by simp [settle, connected])
    simpa using hserved
  · have hserved := hreg binder (by simp [settle, connected])
    simpa using hserved

/-- Without an entry in the whitelist `initAudioBinding` serves the binder as it is. -/
theorem registered_initAudioBinding (h : s.Sane)
    (hreg : Registered (initAudioBinding c s)) : Renewed c s .initAudioBinding := by
  refine or_iff_not_imp_left.2 fun hnone => .inr fun b hb => ?_
  rw [initAudioBinding, if_pos (not_not.1 hnone)] at hreg
  have hbound : s.boundToSteeringMenuService_ = true := by
    rw [h.bound_eq, Option.mem_def.1 hb, Option.isSome_some]
  exact has_settle.1 (hreg b (by simp [settle, Option.mem_def.1 hb, hbound]))

/-- One event keeps all of it, unless a binder comes while a callback is left over, or is served
without one. -/
theorem State.Sane.step (h : s.Sane) {e : Event} (hr : Renewed c s e) : (step c s e).Sane := by
  cases e with
  | bindToWheelService => exact h.bind
  | onServiceConnected binder => exact h.onServiceConnected hr
  | onServiceDisconnected => exact h.disconnected
  | die binder => exact ⟨h.bound_eq, h.has, h.registered⟩
  | runPosted => exact h.runPosted
  | checkAndReconnectServices => exact h.checkAndReconnectServices
  | requestAudioFocus => exact h.requestAudioFocus
  | releaseAudioFocus => exact h.releaseAudioFocus
  | initAudioBinding => exact h.initAudioBinding hr
  | sendToBackground => exact h.unregister.notify 0
  | endAudioBinding => exact h.releaseAudioFocus.unregister.unbind
  | onShowView => exact h.notify 1

theorem registered_step_iff (h : s.Sane) (e : Event) :
    Registered (step c s e) ↔ Renewed c s e := by
  constructor
  · intro hreg
    cases e with
    | onServiceConnected binder => exact registered_onServiceConnected hreg
    | initAudioBinding => exact registered_initAudioBinding h hreg
    | _ => trivial
  · exact fun hr => (h.step hr).registered

/-- **When every binder has its callback.**  For every order of the events: each
binder that was served has a callback exactly when every new binder comes at a time
when no callback is left over, or has one from before, and no `initAudioBinding` without
an entry in the whitelist finds a binder that has none.  A callback is left over when
the manager let go of the last binder through `unbindToWheelService`; a binder has none
after `sendToBackground`. -/
theorem registered_iff (c : Config) (es : List Event) :
    Along (step c) (fun s e => Registered (step c s e)) start es ↔
      Along (step c) (Renewed c) start es :=
  along_iff_of_invariant (I := State.Sane) (fun _ e hs => registered_step_iff hs e)
    (fun _ _ hs hr => hs.step hr) sane_start es

/-- **The wheel is dead after its service restarted.**  The service dies, the posted
`Runnable` unbinds and binds again, and the new binder finds the callback of the old
one in the manager's field. -/
theorem not_registered_restarted :
    ¬ Along (step ⟨some true, true, 1⟩) (fun s e => Registered (step ⟨some true, true, 1⟩ s e))
      start [.bindToWheelService, .onServiceConnected 0, .initAudioBinding, .die 0, .runPosted,
        .onServiceConnected 1] := by
  decide +kernel

/-- Without an entry in the whitelist the wheel is dead from the first pause on. -/
example : ¬ Along (step ⟨none, true, 1⟩) (fun s e => Registered (step ⟨none, true, 1⟩ s e))
    start [.bindToWheelService, .onServiceConnected 0, .initAudioBinding, .sendToBackground,
      .initAudioBinding] := by
  decide +kernel

end SteeringMenu
end Manager
end Carlinkit
