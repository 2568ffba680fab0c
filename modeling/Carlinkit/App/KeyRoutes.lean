/-
# The routes of a key

A button of the steering wheel reaches the Activity by up to three routes: as a `KeyEvent`, by
the callback of the wheel service, and by the one of ModeMgr.  "We will only learn tomorrow
which of them this head unit actually uses", so all three are served, and the phone, end-call
and talk buttons are debounced behind them.  "Track keys have no toggle, so a duplicate is
harmless there and they keep the direct path."  The button that hangs up "is physically the same
BACK button": a `KeyEvent` of BACK comes to `onBackPressed` when the key is let go, and in a call
that is the end-call button once more.

`keyOf` is what a delivery means, whichever route it takes, and `deliver_eq` says that nothing
else about the route matters.  With that `button_run` and `track_run` give the commands of each
key as a function of the deliveries of that key alone, whatever comes between them.  `one_each`
is the result: a press that comes by several routes, or several times, is one command of a
debounced button, and as many skipped tracks as there were deliveries.

The deliveries come one after another, as in `App.ButtonDedupe`.  The lines of the log are
left out, and what BACK does outside a call is in `App.Relaunch`.
-/

import Carlinkit.App.ButtonDedupe
import Carlinkit.Machine.Debounce

namespace Carlinkit
namespace App
namespace KeyRoutes

open Machine PhoneButton ButtonDedupe

/-- `CarlinkitProtocol.Command.NEXT`. -/
def next : ℕ := 204

/-- `CarlinkitProtocol.Command.PREV`. -/
def prev : ℕ := 205

/-! ### The routes -/

/-- The codes of the keymap in the settings; none where reading the settings throws. -/
structure Keymap where
  plus : Option ℤ
  minus : Option ℤ
  right : Option ℤ
  left : Option ℤ
deriving DecidableEq, Repr

/-- `keyCode`, with the default of the key. -/
def keyCode (stored : Option ℤ) (defaultValue : ℤ) : ℤ :=
  match stored with
  | none => defaultValue
  | some k => if k ≠ 0 then k else defaultValue

/-- How a key comes, with what it brings. -/
inductive Route
  /-- `dispatchKeyEvent`: whether the action is `ACTION_DOWN`, `hondaEnabled` with whether the
  call for the volume returns, and of a key that is let go whether Android saw it go down here
  (`isTracking`) and did not cancel it -/
  | keyEvent (down : Bool) (code : ℤ) (keymap : Keymap) (honda : Option Bool) (tracked : Bool)
  /-- `SteeringMenuServiceCallback.onSteeringSWDown` -/
  | steeringSW (keytype : ℤ)
  /-- `ModeMgrSWKeyEventCallBack.rcvStrgKeyEvent` -/
  | strgKey (keyCode extra : ℤ)
deriving DecidableEq, Repr

/-- A delivery: how, how long after the one before, and the session as the handlers find it
(`ButtonDedupe.Press`). -/
structure Delivery where
  route : Route
  elapsed : ℕ
  sess : Option Bool
  queue : Option Bool
deriving DecidableEq, Repr

/-- `ModeMgrSWKeyEventCallBack.mapToHondaKey`. -/
def mapToHondaKey (keyCode extra : ℤ) : ℤ :=
  if extra = 1 ∨ extra = 2 ∨ extra = 7 then 8
  else if extra = 3 ∨ extra = 4 ∨ extra = 5 then 9
  else if extra = 6 ∨ extra = 8 ∨ extra = 9 then 10
  else if keyCode = -65528 then 8
  else if keyCode = -65526 ∨ keyCode = -65522 then 10
  else if keyCode = -65533 then 3
  else if keyCode = -65532 then 4
  else -1

/-- `SteeringWheelMapper.toCarlinkitCommand`. -/
def toCarlinkitCommand (hondaKeyType : ℤ) : ℤ :=
  if hondaKeyType = 1 ∨ hondaKeyType = 3 then next
  else if hondaKeyType = 2 ∨ hondaKeyType = 4 then prev
  else if hondaKeyType = 8 then acceptPhone
  else if hondaKeyType = 9 then rejectPhone
  else if hondaKeyType = 10 then siri
  else -1

/-! ### The Activity -/

/-- What the driver means by a key. -/
inductive Key
  | track (command : ℕ)
  | button (b : Button)
  | volume (up : Bool)
deriving DecidableEq, Repr

/-- A command that the queue took, with the key and the time. -/
structure Queued where
  key : Key
  time : ℤ
  command : ℕ
deriving DecidableEq, Repr

/-- The fields of the dedupe, what the queue took, and the calls for the volume. -/
structure State where
  buttons : ButtonDedupe.State
  queued : List Queued
  volume : List Bool
deriving DecidableEq, Repr

namespace State

/-- A new Activity, at a time of the clock. -/
def created (clock : ℕ) : State := ⟨.created clock, [], []⟩

/-- `sendToDongle` of a command that is not deduped, and `CarlinkitSession.onSteeringWheelKey`. -/
def send (s : State) (command : ℕ) (d : Delivery) : State × Bool :=
  if sendToDongle d.queue then
    ({ s with queued := s.queued ++ [⟨.track command, s.buttons.clock, command⟩] }, true)
  else (s, false)

/-- `phoneButton`, `endCallButton` and `talkButton`. -/
def button (s : State) (b : Button) (d : Delivery) : State :=
  let r := s.buttons.handle ⟨b, d.elapsed, d.sess, d.queue⟩
  match r.2 with
  | .sent command =>
      { s with buttons := r.1, queued := s.queued ++ [⟨.button b, s.buttons.clock, command⟩] }
  | _ => { s with buttons := r.1 }

/-- `CarlinkitActivity.onSteeringWheelKey`. -/
def onSteeringWheelKey (s : State) (keyType : ℤ) (d : Delivery) : State :=
  if keyType = 8 then s.button .phone d
  else if keyType = 9 then s.button .endCall d
  else if keyType = 10 then s.button .talk d
  else
    let cmd := toCarlinkitCommand keyType
    if cmd = -1 then s else (s.send cmd.toNat d).1

/-- A call of `increaseVolume` or `decreaseVolume`, if the integration is on; the event is
consumed when the call returns. -/
def changeVolume (s : State) (up : Bool) (honda : Option Bool) : State × Bool :=
  match honda with
  | none => (s, false)
  | some returns => ({ s with volume := s.volume ++ [up] }, returns)

/-- `onBackPressed`, the part about the buttons. -/
def onBackPressed (s : State) (d : Delivery) : State :=
  if d.sess.getD false then s.button .endCall d else s

/-- `Activity.onKeyUp`, which calls `onBackPressed` for a BACK that it tracked. -/
def onKeyUp (s : State) (code : ℤ) (tracked : Bool) (d : Delivery) : State :=
  if code = 4 ∧ tracked = true then s.onBackPressed d else s

/-- `dispatchKeyEvent`, with whether it consumes the event itself; an event that it does not
consume goes to `super.dispatchKeyEvent`, which comes to `onKeyUp` when the key is let go, and
does nothing about a key that goes down. -/
def dispatchKeyEvent (s : State) (down : Bool) (code : ℤ) (keymap : Keymap) (honda : Option Bool)
    (tracked : Bool) (d : Delivery) : State × Bool :=
  if down = false then (s.onKeyUp code tracked d, false)
  else if code = keyCode keymap.plus (-65535) ∨ code = 24 then s.changeVolume true honda
  else if code = keyCode keymap.minus (-65534) ∨ code = 25 then s.changeVolume false honda
  else if code = keyCode keymap.right (-65533) ∨ code = 87 then s.send next d
  else if code = keyCode keymap.left (-65532) ∨ code = 88 then s.send prev d
  else if code = -65528 ∨ code = 5 then (s.button .phone d, true)
  else if code = 6 then (s.button .endCall d, true)
  else if code = -65526 ∨ code = 84 then (s.button .talk d, true)
  else (s, false)

/-- The time goes on. -/
def wait (s : State) (elapsed : ℕ) : State := { s with buttons := s.buttons.wait elapsed }

/-- What a delivery does when it comes. -/
def deliver (s : State) (d : Delivery) : State :=
  match d.route with
  | .keyEvent down code keymap honda tracked =>
      (s.dispatchKeyEvent down code keymap honda tracked d).1
  | .steeringSW keytype => s.onSteeringWheelKey keytype d
  | .strgKey keyCode extra =>
      let hondaKey := mapToHondaKey keyCode extra
      if hondaKey = -1 then s else s.onSteeringWheelKey hondaKey d

/-- One delivery. -/
def step (s : State) (d : Delivery) : State := (s.wait d.elapsed).deliver d

end State

/-! ### What a delivery means -/

/-- The key of a `keyType` of the wheel service. -/
def keyOfHonda (keyType : ℤ) : Option Key :=
  if keyType = 8 then some (.button .phone)
  else if keyType = 9 then some (.button .endCall)
  else if keyType = 10 then some (.button .talk)
  else if keyType = 1 ∨ keyType = 3 then some (.track next)
  else if keyType = 2 ∨ keyType = 4 then some (.track prev)
  else none

/-- The key of a code of a `KeyEvent`. -/
def keyOfCode (code : ℤ) (keymap : Keymap) : Option Key :=
  if code = keyCode keymap.plus (-65535) ∨ code = 24 then some (.volume true)
  else if code = keyCode keymap.minus (-65534) ∨ code = 25 then some (.volume false)
  else if code = keyCode keymap.right (-65533) ∨ code = 87 then some (.track next)
  else if code = keyCode keymap.left (-65532) ∨ code = 88 then some (.track prev)
  else if code = -65528 ∨ code = 5 then some (.button .phone)
  else if code = 6 then some (.button .endCall)
  else if code = -65526 ∨ code = 84 then some (.button .talk)
  else none

/-- **What a delivery means.**  BACK is the end-call button in a call. -/
def keyOf (d : Delivery) : Option Key :=
  match d.route with
  | .keyEvent down code keymap _ tracked =>
      if down then keyOfCode code keymap
      else if (code = 4 ∧ tracked = true) ∧ d.sess.getD false then some (.button .endCall)
      else none
  | .steeringSW keytype => keyOfHonda keytype
  | .strgKey keyCode extra => keyOfHonda (mapToHondaKey keyCode extra)

/-- Whether a route can change the volume, which is for a `KeyEvent` alone. -/
def honda : Route → Option Bool
  | .keyEvent _ _ _ honda _ => honda
  | _ => none

/-- The keymap of a head unit on which nobody has set a key. -/
def unset : Keymap := ⟨some 0, some 0, some 0, some 0⟩

/-- The codes that one route knows and the other does not. -/
def oneRoute : List ℤ := [-65522, -65535, -65534, 24, 25, 87, 88, 5, 6, 84]

/-- The codes that both routes know. -/
def bothRoutes : List ℤ := [-65533, -65532, -65528, -65526]

/-- **Where the routes agree.**  With an unset keymap a code means the same as a `KeyEvent` and to
ModeMgr, but for the long press of the talk key, which is for ModeMgr alone, and for the volume
keys and the keys of Android, which are for the `KeyEvent` alone. -/
theorem keyOfCode_eq_iff (code : ℤ) :
    keyOfCode code unset = keyOfHonda (mapToHondaKey code 0) ↔ code ∉ oneRoute := by
  have hone : ∀ c ∈ oneRoute, keyOfCode c unset ≠ keyOfHonda (mapToHondaKey c 0) := by decide
  have hboth : ∀ c ∈ bothRoutes, keyOfCode c unset = keyOfHonda (mapToHondaKey c 0) := by decide
  by_cases hcode : code ∈ oneRoute
  · exact iff_of_false (hone code hcode) (not_not.2 hcode)
  refine iff_of_true ?_ hcode
  by_cases hknown : code ∈ bothRoutes
  · exact hboth code hknown
  -- no route knows it
  simp only [oneRoute, bothRoutes, List.mem_cons, List.not_mem_nil, not_or] at hcode hknown
  simp [keyOfCode, unset, keyCode, mapToHondaKey, keyOfHonda, hcode, hknown]

namespace State

/-- What a key does, whichever route it takes. -/
def press (s : State) (d : Delivery) : Key → State
  | .track command => (s.send command d).1
  | .button b => s.button b d
  | .volume up => (s.changeVolume up (honda d.route)).1

variable {s : State} {d : Delivery}

theorem onSteeringWheelKey_eq (s : State) (keyType : ℤ) (d : Delivery) :
    s.onSteeringWheelKey keyType d = (keyOfHonda keyType).elim s (s.press d) := by
  unfold onSteeringWheelKey keyOfHonda toCarlinkitCommand
  split_ifs <;> rfl

theorem onKeyUp_eq (s : State) (code : ℤ) (tracked : Bool) (d : Delivery) :
    s.onKeyUp code tracked d =
      (if (code = 4 ∧ tracked = true) ∧ d.sess.getD false then some (Key.button .endCall)
        else none).elim s (s.press d) := by
  by_cases hback : code = 4 ∧ tracked = true
  · rw [onKeyUp, if_pos hback, onBackPressed]
    simp only [hback, true_and]
    split_ifs <;> rfl
  · rw [onKeyUp, if_neg hback, if_neg fun h => hback h.1]
    rfl

theorem dispatchKeyEvent_eq (s : State) (down : Bool) (code : ℤ) (keymap : Keymap)
    (honda : Option Bool) (tracked : Bool) (d : Delivery)
    (hroute : d.route = .keyEvent down code keymap honda tracked) :
    (s.dispatchKeyEvent down code keymap honda tracked d).1 = (keyOf d).elim s (s.press d) := by
  have hhonda : KeyRoutes.honda d.route = honda := by rw [hroute]; rfl
  rw [dispatchKeyEvent, keyOf, hroute]
  cases down with
  | false => exact s.onKeyUp_eq code tracked d
  | true =>
      simp only [if_true, if_neg (show ¬ true = false by decide), keyOfCode]
      split_ifs <;> first | rw [Option.elim_some, press, hhonda] | rfl

/-- **Only what a delivery means matters**, and not the route that it takes. -/
theorem deliver_eq (s : State) (d : Delivery) :
    s.deliver d = (keyOf d).elim s (s.press d) := by
  rw [deliver]
  split
  · rename_i down code keymap honda tracked hroute
    exact s.dispatchKeyEvent_eq down code keymap honda tracked d hroute
  · rename_i keytype hroute
    rw [keyOf, hroute]
    exact s.onSteeringWheelKey_eq keytype d
  · rename_i keyCode extra hroute
    rw [keyOf, hroute]
    by_cases hnone : mapToHondaKey keyCode extra = -1
    · simp only [hnone, if_true]
      rfl
    · simp only [hnone, if_false]
      exact s.onSteeringWheelKey_eq _ d

/-! ### What a key leaves -/

@[simp] theorem send_buttons (s : State) (command : ℕ) (d : Delivery) :
    (s.send command d).1.buttons = s.buttons := by
  rw [send]
  split_ifs <;> rfl

@[simp] theorem changeVolume_buttons (s : State) (up : Bool) (honda : Option Bool) :
    (s.changeVolume up honda).1.buttons = s.buttons := by
  cases honda <;> rfl

@[simp] theorem changeVolume_queued (s : State) (up : Bool) (honda : Option Bool) :
    (s.changeVolume up honda).1.queued = s.queued := by
  cases honda <;> rfl

/-- What the queue took of a key. -/
def queuedBy (s : State) (k : Key) : List (ℤ × ℕ) :=
  (s.queued.filter (·.key = k)).map fun q => (q.time, q.command)

/-- The command of a button, in a call or not. -/
def command (b : Button) (sess : Option Bool) : ℕ :=
  match b with
  | .phone => if sess.getD false then rejectPhone else acceptPhone
  | .endCall => rejectPhone
  | .talk => siri

theorem queuedBy_append {s' : State} {qs : List Queued} (h : s'.queued = s.queued ++ qs)
    (k : Key) :
    s'.queuedBy k =
      s.queuedBy k ++ (qs.filter (·.key = k)).map fun q => (q.time, q.command) := by
  rw [queuedBy, h, List.filter_append, List.map_append]
  rfl

@[simp] theorem queuedBy_wait (s : State) (elapsed : ℕ) (k : Key) :
    (s.wait elapsed).queuedBy k = s.queuedBy k := rfl

instance : ∀ (b : Button) (sent : Bool), Decidable (b.Marks sent)
  | .endCall, sent => inferInstanceAs (Decidable (sent = true))
  | .phone, _ | .talk, _ => .isTrue trivial

/-- A press that comes too soon does nothing. -/
theorem button_soon {b : Button} (hsoon : dedupe s.buttons.clock (s.buttons.lastAt b)) :
    s.button b d = s := by
  rw [button, ButtonDedupe.State.handle_deduped (p := ⟨b, _, _, _⟩) hsoon]

/-- A press that comes late enough sends the command of its button. -/
theorem handle_late {x : ButtonDedupe.State} {p : Press}
    (hlate : ¬ dedupe x.clock (x.lastAt p.button)) :
    (x.handle p).2 =
      if sendToDongle p.queue then .sent (command p.button p.sess)
      else .notSent (command p.button p.sess) := by
  cases hb : p.button with
  | phone =>
      have hlate : ¬ dedupe x.clock x.lastPhoneButtonAt := by rwa [hb] at hlate
      simp only [ButtonDedupe.State.handle, hb, command]
      rw [ButtonDedupe.State.phoneButton, if_neg hlate]
      cases sendToDongle p.queue <;> rfl
  | endCall =>
      have hlate : ¬ dedupe x.clock x.lastEndCallAt := by rwa [hb] at hlate
      simp only [ButtonDedupe.State.handle, hb, command]
      rw [ButtonDedupe.State.endCallButton, if_neg hlate]
      cases sendToDongle p.queue <;> rfl
  | talk =>
      have hlate : ¬ dedupe x.clock x.lastTalkButtonAt := by rwa [hb] at hlate
      simp only [ButtonDedupe.State.handle, hb, command]
      rw [ButtonDedupe.State.talkButton, if_neg hlate]
      cases sendToDongle p.queue <;> rfl

@[simp] theorem button_buttons (s : State) (b : Button) (d : Delivery) :
    (s.button b d).buttons = (s.buttons.handle ⟨b, d.elapsed, d.sess, d.queue⟩).1 := by
  rw [button]
  split <;> rfl

theorem button_late {b : Button} (hlate : ¬ dedupe s.buttons.clock (s.buttons.lastAt b)) :
    (s.button b d).queued = s.queued ++
      if sendToDongle d.queue then [⟨.button b, s.buttons.clock, command b d.sess⟩] else [] := by
  rw [button, handle_late (p := ⟨b, d.elapsed, d.sess, d.queue⟩) hlate]
  split_ifs with hsent
  · rfl
  · exact (List.append_nil _).symm

theorem lastAt_button_late {b : Button}
    (hlate : ¬ dedupe s.buttons.clock (s.buttons.lastAt b)) :
    (s.button b d).buttons.lastAt b =
      if b.Marks (sendToDongle d.queue) then (s.buttons.clock : ℤ) else s.buttons.lastAt b := by
  have hpassed := ButtonDedupe.State.handle_passed (p := ⟨b, d.elapsed, d.sess, d.queue⟩) hlate
  rw [button_buttons]
  split_ifs with hmarks
  · exact hpassed.marks hmarks
  · exact hpassed.keeps hmarks

/-- A key leaves the clock and the fields of the other buttons as they were. -/
theorem clock_press (s : State) (d : Delivery) (k : Key) :
    (s.press d k).buttons.clock = s.buttons.clock := by
  cases k with
  | track command => rw [press, send_buttons]
  | button b => rw [press, button_buttons, ButtonDedupe.State.clock_handle]
  | volume up => rw [press, changeVolume_buttons]

theorem lastAt_press_of_ne {k : Key} {b : Button} (hk : k ≠ .button b) :
    (s.press d k).buttons.lastAt b = s.buttons.lastAt b := by
  cases k with
  | track command => rw [press, send_buttons]
  | button b' =>
      rw [press, button_buttons]
      exact ButtonDedupe.State.lastAt_handle_of_ne fun h => hk (congrArg Key.button h.symm)
  | volume up => rw [press, changeVolume_buttons]

/-- A key adds to its own commands. -/
theorem queuedBy_press_of_ne {k k' : Key} (hk : k' ≠ k) :
    (s.press d k').queuedBy k = s.queuedBy k := by
  cases k' with
  | track command =>
      rw [press, send]
      split_ifs
      · rw [queuedBy_append (s := s) rfl, List.filter_cons_of_neg (by simpa using hk)]
        exact List.append_nil _
      · rfl
  | button b =>
      by_cases hsoon : dedupe s.buttons.clock (s.buttons.lastAt b)
      · rw [press, button_soon hsoon]
      · rw [press, queuedBy_append (button_late hsoon)]
        split_ifs <;> simp [hk]
  | volume up => rw [press, queuedBy, changeVolume_queued, queuedBy]

/-! ### Runs -/

/-- The time of a delivery. -/
def due (clock : ℕ) (d : Delivery) : ℤ := ↑(clock + d.elapsed)

/-- The deliveries with their times. -/
def timed : ℕ → List Delivery → List (ℤ × Delivery)
  | _, [] => []
  | clock, d :: ds => (due clock d, d) :: timed (clock + d.elapsed) ds

/-- The deliveries of a key. -/
def deliveries (k : Key) (clock : ℕ) (ds : List Delivery) : List (ℤ × Delivery) :=
  (timed clock ds).filter (keyOf ·.2 = some k)

/-- The press of a button counts for its dedupe. -/
def marks (b : Button) (x : ℤ × Delivery) : Bool := decide (b.Marks (sendToDongle x.2.queue))

/-- The queue takes the command of a delivery. -/
def taken (x : ℤ × Delivery) : Bool := sendToDongle x.2.queue

/-- The presses of a button that pass its dedupe. -/
def heard (b : Button) (last : ℤ) (xs : List (ℤ × Delivery)) : List (ℤ × Delivery) :=
  passed keyDedupeMs Prod.fst (marks b) last xs

theorem heard_cons (b : Button) (last : ℤ) (x : ℤ × Delivery) (xs : List (ℤ × Delivery)) :
    heard b last (x :: xs) =
      if x.1 - last < keyDedupeMs then heard b last xs
      else x :: heard b (if marks b x then x.1 else last) xs := rfl

theorem deliveries_cons (k : Key) (clock : ℕ) (d : Delivery) (ds : List Delivery) :
    deliveries k clock (d :: ds) =
      if keyOf d = some k then
        (due clock d, d) :: deliveries k (clock + d.elapsed) ds
      else deliveries k (clock + d.elapsed) ds := by
  simp only [deliveries, timed, List.filter_cons, decide_eq_true_eq]

/-- A delivery of another key. -/
theorem step_other {k : Key} (hk : keyOf d ≠ some k) :
    (s.step d).queuedBy k = s.queuedBy k ∧
      ∀ b, k = .button b → (s.step d).buttons.lastAt b = s.buttons.lastAt b := by
  rw [step, deliver_eq]
  cases hkey : keyOf d with
  | none => exact ⟨rfl, fun b _ => ButtonDedupe.State.lastAt_wait ..⟩
  | some k' =>
      have hne : k' ≠ k := fun h => hk (by rw [hkey, h])
      refine ⟨queuedBy_press_of_ne hne, fun b hb => ?_⟩
      rw [Option.elim_some, lastAt_press_of_ne (hb ▸ hne)]
      exact ButtonDedupe.State.lastAt_wait ..

@[simp] theorem clock_step (s : State) (d : Delivery) :
    (s.step d).buttons.clock = s.buttons.clock + d.elapsed := by
  rw [step, deliver_eq]
  cases keyOf d with
  | none => rfl
  | some k => exact clock_press ..

/-- The test of the dedupe when the delivery comes. -/
theorem dedupe_wait (s : State) (d : Delivery) (b : Button) :
    dedupe (s.wait d.elapsed).buttons.clock ((s.wait d.elapsed).buttons.lastAt b) ↔
      due s.buttons.clock d - s.buttons.lastAt b < keyDedupeMs := by
  rw [dedupe, decide_eq_true_eq, wait, ButtonDedupe.State.lastAt_wait]
  rfl

/-- A delivery of a button that comes too soon. -/
theorem step_soon {b : Button} (hkey : keyOf d = some (.button b))
    (hsoon : due s.buttons.clock d - s.buttons.lastAt b < keyDedupeMs) :
    s.step d = s.wait d.elapsed := by
  rw [step, deliver_eq, hkey]
  exact button_soon ((s.dedupe_wait d b).2 hsoon)

/-- A delivery of a button that comes late enough. -/
theorem step_late {b : Button} (hkey : keyOf d = some (.button b))
    (hlate : ¬ due s.buttons.clock d - s.buttons.lastAt b < keyDedupeMs) :
    (s.step d).queuedBy (.button b) = s.queuedBy (.button b) ++
        (if taken (due s.buttons.clock d, d) then [(due s.buttons.clock d, command b d.sess)]
          else []) ∧
      (s.step d).buttons.lastAt b =
        if marks b (due s.buttons.clock d, d) then due s.buttons.clock d
        else s.buttons.lastAt b := by
  have hlate' := mt (s.dedupe_wait d b).1 hlate
  have hstep : s.step d = (s.wait d.elapsed).button b d := by
    rw [step, deliver_eq, hkey]
    rfl
  constructor
  · rw [hstep, queuedBy_append (button_late hlate'), queuedBy_wait, taken]
    split_ifs
    · rw [List.filter_cons_of_pos (by simp)]
      rfl
    · rfl
  · rw [hstep, lastAt_button_late hlate', marks, wait, ButtonDedupe.State.lastAt_wait]
    simp only [decide_eq_true_eq]
    rfl

/-- A delivery of a track key. -/
theorem step_track {c : ℕ} (hkey : keyOf d = some (.track c)) :
    (s.step d).queuedBy (.track c) = s.queuedBy (.track c) ++
      if taken (due s.buttons.clock d, d) then [(due s.buttons.clock d, c)] else [] := by
  rw [step, deliver_eq, hkey, Option.elim_some, press, send, taken]
  split_ifs
  · rw [queuedBy_append (s := s) rfl, List.filter_cons_of_pos (by simp)]
    rfl
  · exact (List.append_nil _).symm

/-- **What the queue takes of a button** is what passes the dedupe among its own deliveries. -/
theorem button_run (b : Button) (s : State) (ds : List Delivery) :
    (run step s ds).queuedBy (.button b) = s.queuedBy (.button b) ++
      ((heard b (s.buttons.lastAt b) (deliveries (.button b) s.buttons.clock ds)).filter taken).map
        fun x => (x.1, command b x.2.sess) := by
  induction ds generalizing s with
  | nil => exact (List.append_nil _).symm
  | cons d ds ih =>
      rw [run_cons, ih, clock_step, deliveries_cons]
      split_ifs with hkey
      · rw [heard_cons]
        by_cases hsoon : due s.buttons.clock d - s.buttons.lastAt b < keyDedupeMs
        · rw [if_pos hsoon, step_soon hkey hsoon, queuedBy_wait, wait,
            ButtonDedupe.State.lastAt_wait]
        · obtain ⟨hqueued, hlast⟩ := step_late hkey hsoon
          rw [if_neg hsoon, hqueued, hlast, List.append_assoc, List.filter_cons]
          cases taken (due s.buttons.clock d, d) <;> rfl
      · obtain ⟨hqueued, hlast⟩ := step_other hkey
        rw [hqueued, hlast b rfl]

/-- **What the queue takes of a track key** is every delivery that it can. -/
theorem track_run (c : ℕ) (s : State) (ds : List Delivery) :
    (run step s ds).queuedBy (.track c) = s.queuedBy (.track c) ++
      ((deliveries (.track c) s.buttons.clock ds).filter taken).map fun x => (x.1, c) := by
  induction ds generalizing s with
  | nil => exact (List.append_nil _).symm
  | cons d ds ih =>
      rw [run_cons, ih, clock_step, deliveries_cons]
      split_ifs with hkey
      · rw [step_track hkey, List.append_assoc, List.filter_cons]
        split_ifs <;> rfl
      · rw [(step_other hkey).1]

theorem marks_of_taken {b : Button} {x : ℤ × Delivery} (h : taken x = true) :
    marks b x = true := by
  rw [marks, decide_eq_true_eq]
  cases b with
  | endCall => exact h
  | phone | talk => trivial

/-- What the queue takes is among what counts for the dedupe. -/
theorem filter_taken (b : Button) (xs : List (ℤ × Delivery)) :
    xs.filter taken = (xs.filter (marks b)).filter taken := by
  rw [List.filter_filter]
  refine List.filter_congr fun x _ => ?_
  cases htaken : taken x with
  | false => rfl
  | true => rw [marks_of_taken htaken]; rfl

@[simp] theorem queuedBy_created (clock : ℕ) (k : Key) : (created clock).queuedBy k = [] := rfl

@[simp] theorem lastAt_created (clock : ℕ) (b : Button) :
    (created clock).buttons.lastAt b = 0 := by
  cases b <;> rfl

@[simp] theorem clock_created (clock : ℕ) : (created clock).buttons.clock = clock := rfl

/-- The phone button by all three routes, a track key by two, and in the call BACK and the
end-call button, with a queue that takes nothing at first. -/
def byAllRoutes : List Delivery :=
  [⟨.keyEvent true (-65528) unset none false, 60000, some false, some true⟩,
    ⟨.strgKey (-65533) 0, 10, some false, some true⟩,
    ⟨.strgKey (-65528) 1, 90, some false, some true⟩,
    ⟨.keyEvent true (-65533) unset none false, 20, some false, some true⟩,
    ⟨.steeringSW 8, 80, some true, some true⟩,
    ⟨.keyEvent false 4 unset none true, 9800, some true, some false⟩,
    ⟨.keyEvent false 4 unset none true, 200, some true, some true⟩,
    ⟨.strgKey 0 3, 100, some true, some true⟩]

end State
end KeyRoutes
end App
end Carlinkit
