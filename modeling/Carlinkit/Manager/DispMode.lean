/-
# The display of the wheel in the background

`notifySteeringMenuDispMode(1)` gives the display of the wheel to the app, and `0` gives it back.
`sendToBackground` and `endAudioBinding` give it back when the app leaves the foreground.  But
`onServiceConnected` does not ask where the app is: when the wheel service restarts behind the
back of an app that is not preinstalled, the new binder is told `1` while the radio plays.
`onShowView` does not ask either: the service is told `1` whenever it wants its view shown.

`away_iff` says that nothing else does it: the service that the manager is bound to never has
`1` as its last mode in the background, exactly when no binder comes there that is told `1` or
still has it, and no `onShowView` comes there that can tell it.
-/

import Carlinkit.Manager.SteeringMenu

namespace Carlinkit
namespace Manager
namespace SteeringMenu

open Machine

/-- The last mode that a binder was told. -/
def State.told (s : State) (binder : ℕ) : Option ℕ :=
  ((s.dispModes.filter fun d => d.binder = binder).getLast?).map DispMode.mode

/-- Whether a screen of the app is in front: it asks for the focus and the wheel when it comes,
and gives up the wheel when it goes. -/
def inFront (front : Bool) : Event → Bool
  | .requestAudioFocus | .initAudioBinding => true
  | .sendToBackground | .endAudioBinding => false
  | _ => front

/-- In the background the service was not told `1` last. -/
def Away (x : State × Bool) : Prop :=
  x.2 = false → ∀ b ∈ x.1.steeringMenuServiceIface_, x.1.told b ≠ some 1

variable (c : Config)

/-- `onServiceConnected` tells the service `1`. -/
def Tells (s : State) : Prop :=
  0 < c.steeringWheelIdx ∧ ∃ preinstall ∈ c.pControl_, preinstall = false ∨ s.hasAudioFocus_ = true

/-- A binder that comes in the background is not told `1`, and does not have it; and the service
does not ask there for its view. -/
def Stays (x : State × Bool) : Event → Prop
  | .onServiceConnected binder => x.2 = false → ¬ Tells c x.1 ∧ x.1.told binder ≠ some 1
  | .onShowView => x.2 = false → ¬ 0 < c.steeringWheelIdx ∨ x.1.steeringMenuServiceIface_ = none
  | _ => True

/-- The flag says whether there is an interface, and without an address nobody is told
anything. -/
structure State.Plain (s : State) : Prop where
  bound_eq : s.boundToSteeringMenuService_ = s.steeringMenuServiceIface_.isSome
  unaddressed : ¬ 0 < c.steeringWheelIdx → s.dispModes = []

variable {c} {s : State} {mode : ℕ}

theorem plain_start : start.Plain c := ⟨rfl, fun _ => rfl⟩

/-! ### Telling -/

theorem notify_of_bound (h : s.Plain c) {b : ℕ} (hb : s.steeringMenuServiceIface_ = some b)
    (hidx : 0 < c.steeringWheelIdx) :
    notifySteeringMenuDispMode c mode s =
      { s with dispModes := s.dispModes ++ [⟨b, c.steeringWheelIdx, mode⟩] } := by
  have hbound : s.boundToSteeringMenuService_ = true := by rw [h.bound_eq, hb, Option.isSome_some]
  simp [notifySteeringMenuDispMode, hb, hbound, hidx]

theorem notify_of_unaddressed (hidx : ¬ 0 < c.steeringWheelIdx) :
    notifySteeringMenuDispMode c mode s = s := by
  unfold notifySteeringMenuDispMode
  cases s.steeringMenuServiceIface_ <;> simp [hidx]

theorem told_concat (b : ℕ) (idx : ℤ) (mode : ℕ) :
    State.told { s with dispModes := s.dispModes ++ [⟨b, idx, mode⟩] } b = some mode := by
  simp [State.told, List.filter_append]

theorem State.Plain.notify (h : s.Plain c) (mode : ℕ) :
    (notifySteeringMenuDispMode c mode s).Plain c := by
  refine ⟨by simpa using h.bound_eq, fun hidx => ?_⟩
  rw [notify_of_unaddressed hidx]
  exact h.unaddressed hidx

/-- The service is told `1`, if there is an address and a binder. -/
theorem told_notify_one (h : s.Plain c) (hold : ∀ b ∈ s.steeringMenuServiceIface_,
    s.told b ≠ some 1) :
    (∀ b ∈ s.steeringMenuServiceIface_, (notifySteeringMenuDispMode c 1 s).told b ≠ some 1) ↔
      ¬ 0 < c.steeringWheelIdx ∨ s.steeringMenuServiceIface_ = none := by
  by_cases hidx : 0 < c.steeringWheelIdx
  · rw [or_iff_right (not_not.2 hidx)]
    cases hiface : s.steeringMenuServiceIface_ with
    | none => exact iff_of_true (fun b hb => nomatch hb) rfl
    | some b =>
        refine iff_of_false (fun hall => hall b rfl ?_) (Option.some_ne_none b)
        rw [notify_of_bound h hiface hidx, told_concat]
  · rw [notify_of_unaddressed hidx]
    exact iff_of_true hold (.inl hidx)

/-- The service is told `0`. -/
theorem told_notify_zero (h : s.Plain c) :
    ∀ b ∈ s.steeringMenuServiceIface_, (notifySteeringMenuDispMode c 0 s).told b ≠ some 1 := by
  intro b hb
  by_cases hidx : 0 < c.steeringWheelIdx
  · rw [notify_of_bound h hb hidx, told_concat]
    decide
  · rw [notify_of_unaddressed hidx, State.told, h.unaddressed hidx]
    simp

/-! ### What the calls leave alone -/

/-- A call that does not tell the service anything. -/
structure Mute (s s' : State) : Prop where
  dispModes : s'.dispModes = s.dispModes
  hasAudioFocus_ : s'.hasAudioFocus_ = s.hasAudioFocus_
  bound_eq : s.boundToSteeringMenuService_ = s.steeringMenuServiceIface_.isSome →
    s'.boundToSteeringMenuService_ = s'.steeringMenuServiceIface_.isSome
  iface : ∀ b ∈ s'.steeringMenuServiceIface_, b ∈ s.steeringMenuServiceIface_

theorem Mute.refl (s : State) : Mute s s := ⟨rfl, rfl, id, fun _ => id⟩

theorem Mute.trans {s₁ s₂ s₃ : State} (h₁ : Mute s₁ s₂) (h₂ : Mute s₂ s₃) : Mute s₁ s₃ :=
  ⟨h₂.dispModes.trans h₁.dispModes, h₂.hasAudioFocus_.trans h₁.hasAudioFocus_,
    fun h => h₂.bound_eq (h₁.bound_eq h), fun b hb => h₁.iface b (h₂.iface b hb)⟩

theorem Mute.plain {s' : State} (h : Mute s s') (hs : s.Plain c) : s'.Plain c :=
  ⟨h.bound_eq hs.bound_eq, fun hidx => h.dispModes.trans (hs.unaddressed hidx)⟩

theorem Mute.told {s' : State} (h : Mute s s') (b : ℕ) : s'.told b = s.told b := by
  rw [State.told, h.dispModes, State.told]

theorem mute_bind (s : State) : Mute s (bindToWheelService s) := by
  unfold bindToWheelService
  split_ifs <;> exact ⟨rfl, rfl, id, fun _ => id⟩

theorem mute_unbind (s : State) : Mute s (unbindToWheelService s) := by
  unfold unbindToWheelService
  split_ifs
  · obtain ⟨linked, hlinked⟩ := unlinkToDeath_eq s
    rw [hlinked]
    exact ⟨rfl, rfl, fun _ => rfl, fun _ => nofun⟩
  · exact Mute.refl s

theorem mute_disconnected (s : State) : Mute s (onServiceDisconnected s) := by
  unfold onServiceDisconnected
  obtain ⟨linked, hlinked⟩ := unlinkToDeath_eq s
  rw [hlinked]
  exact ⟨rfl, rfl, fun _ => rfl, fun _ => nofun⟩

theorem mute_runPosted (s : State) : Mute s (runPosted s) := by
  unfold runPosted
  split_ifs
  · exact Mute.refl s
  · have hposted : Mute s { s with posted := s.posted - 1 } := ⟨rfl, rfl, id, fun _ => id⟩
    exact hposted.trans ((mute_unbind _).trans (mute_bind _))

theorem mute_check (s : State) : Mute s (checkAndReconnectServices s) := by
  unfold checkAndReconnectServices
  split_ifs
  · exact Mute.refl s
  · exact (mute_unbind s).trans (mute_bind _)
  · exact mute_bind s

theorem mute_register (s : State) : Mute s (registerSteeringMenuCallback c s) := by
  unfold registerSteeringMenuCallback
  split_ifs <;> exact ⟨rfl, rfl, id, fun _ => id⟩

theorem mute_unregister (s : State) : Mute s (unregisterSteeringMenuCallback c s) := by
  unfold unregisterSteeringMenuCallback
  split <;> exact ⟨rfl, rfl, id, fun _ => id⟩

theorem mute_settle (s : State) : Mute s (settle s) := by
  unfold settle
  split
  · split_ifs <;> exact ⟨rfl, rfl, id, fun _ => id⟩
  · exact Mute.refl s

/-- A call that tells the service nothing keeps it away. -/
theorem Mute.away {s' : State} (h : Mute s s') {front front' : Bool} (haway : Away (s, front))
    (hfront : front' = front) : Away (s', front') := by
  intro hback b hb
  rw [h.told]
  exact haway (hfront ▸ hback) b (h.iface b hb)

/-! ### A new binder -/

/-- The state in which `onServiceConnected` comes to the test of `authType`. -/
def registered (c : Config) (binder : ℕ) (s : State) : State :=
  registerSteeringMenuCallback c (connected binder s)

theorem onServiceConnected_of_tells {binder : ℕ} (h : Tells c s) :
    onServiceConnected c binder s =
      settle (notifySteeringMenuDispMode c 1 (registered c binder s)) := by
  obtain ⟨-, preinstall, hp, hfocus⟩ := h
  have hfocus' : preinstall = false ∨ (registered c binder s).hasAudioFocus_ = true := by
    rwa [registered, (mute_register (connected binder s)).hasAudioFocus_]
  unfold onServiceConnected
  rw [Option.mem_def.1 hp]
  exact congrArg settle (if_pos hfocus')

theorem onServiceConnected_of_not_tells {binder : ℕ} (h : ¬ Tells c s) :
    onServiceConnected c binder s = settle (registered c binder s) := by
  unfold onServiceConnected
  cases hp : c.pControl_ with
  | none => rfl
  | some preinstall =>
      dsimp only
      split_ifs with hfocus
      · have hidx : ¬ 0 < c.steeringWheelIdx := fun hidx => by
          refine h ⟨hidx, preinstall, hp, ?_⟩
          rwa [(mute_register _).hasAudioFocus_] at hfocus
        rw [notify_of_unaddressed hidx]
        rfl
      · rfl

theorem plain_registered (h : s.Plain c) (binder : ℕ) : (registered c binder s).Plain c :=
  (mute_register _).plain ⟨rfl, h.unaddressed⟩

theorem plain_onServiceConnected (h : s.Plain c) (binder : ℕ) :
    (onServiceConnected c binder s).Plain c := by
  by_cases htells : Tells c s
  · rw [onServiceConnected_of_tells htells]
    exact (mute_settle _).plain ((plain_registered h binder).notify 1)
  · rw [onServiceConnected_of_not_tells htells]
    exact (mute_settle _).plain (plain_registered h binder)

theorem settle_iface (s : State) :
    (settle s).steeringMenuServiceIface_ = s.steeringMenuServiceIface_ := by
  unfold settle
  split <;> [split_ifs; skip] <;> rfl

theorem iface_onServiceConnected (binder : ℕ) (s : State) :
    (onServiceConnected c binder s).steeringMenuServiceIface_ = some binder := by
  obtain ⟨s', hs', heq⟩ := onServiceConnected_eq (c := c) binder s
  rw [heq, settle_iface]
  rcases hs' with rfl | rfl
  · rw [registerSteeringMenuCallback_iface]
    rfl
  · rw [notifySteeringMenuDispMode_iface, registerSteeringMenuCallback_iface]
    rfl

/-- **What a new binder was told last.** -/
theorem told_onServiceConnected (h : s.Plain c) (binder : ℕ) :
    (onServiceConnected c binder s).told binder = some 1 ↔ Tells c s ∨ s.told binder = some 1 := by
  by_cases htells : Tells c s
  · refine iff_of_true ?_ (.inl htells)
    rw [onServiceConnected_of_tells htells, (mute_settle _).told,
      notify_of_bound (plain_registered h binder) (b := binder) ?_ htells.1, told_concat]
    rw [registered, registerSteeringMenuCallback_iface]
    rfl
  · rw [onServiceConnected_of_not_tells htells, (mute_settle _).told, registered,
      (mute_register _).told, or_iff_right htells]
    rfl

/-! ### The step -/

theorem State.Plain.releaseAudioFocus (h : s.Plain c) : (releaseAudioFocus c s).Plain c := by
  unfold SteeringMenu.releaseAudioFocus
  split_ifs
  · exact h
  · exact ⟨(h.notify 0).bound_eq, (h.notify 0).unaddressed⟩

theorem State.Plain.requestAudioFocus (h : s.Plain c) : (requestAudioFocus c s).Plain c := by
  unfold SteeringMenu.requestAudioFocus
  split_ifs
  · exact h
  · exact ⟨(h.notify 1).bound_eq, (h.notify 1).unaddressed⟩

/-- The end of `initAudioBinding`. -/
theorem State.Plain.serve (h : s.Plain c) :
    (settle (if s.hasAudioFocus_ then notifySteeringMenuDispMode c 1 s else s)).Plain c := by
  refine (mute_settle _).plain ?_
  split_ifs
  · exact h.notify 1
  · exact h

theorem State.Plain.initAudioBinding (h : s.Plain c) : (initAudioBinding c s).Plain c := by
  by_cases hnone : c.pControl_ = none
  · rw [SteeringMenu.initAudioBinding, if_pos hnone]
    exact (mute_settle s).plain h
  · have hcheck := (mute_check s).plain h
    have hbind : (if (checkAndReconnectServices s).boundToSteeringMenuService_
        then checkAndReconnectServices s
        else bindToWheelService (checkAndReconnectServices s)).Plain c := by
      split_ifs
      · exact hcheck
      · exact (mute_bind _).plain hcheck
    rw [SteeringMenu.initAudioBinding, if_neg hnone]
    exact ((mute_register _).plain hbind).serve

/-- Unbinding leaves no interface. -/
theorem iface_unbind (h : s.Plain c) :
    (unbindToWheelService s).steeringMenuServiceIface_ = none := by
  unfold unbindToWheelService
  split_ifs with hbound
  · rfl
  · rw [h.bound_eq] at hbound
    simpa using hbound

theorem State.Plain.step (h : s.Plain c) (e : Event) : (step c s e).Plain c := by
  cases e with
  | bindToWheelService => exact (mute_bind s).plain h
  | onServiceConnected binder => exact plain_onServiceConnected h binder
  | onServiceDisconnected => exact (mute_disconnected s).plain h
  | die binder => exact ⟨h.bound_eq, h.unaddressed⟩
  | runPosted => exact (mute_runPosted s).plain h
  | checkAndReconnectServices => exact (mute_check s).plain h
  | requestAudioFocus => exact h.requestAudioFocus
  | releaseAudioFocus => exact h.releaseAudioFocus
  | initAudioBinding => exact h.initAudioBinding
  | sendToBackground => exact ((mute_unregister s).plain h).notify 0
  | endAudioBinding =>
      exact (mute_unbind _).plain ((mute_unregister _).plain h.releaseAudioFocus)
  | onShowView => exact h.notify 1

/-- Giving up the focus tells the service `0`, or nothing. -/
theorem away_release (hplain : s.Plain c) {front : Bool} (h : Away (s, front)) :
    Away (releaseAudioFocus c s, front) := by
  unfold releaseAudioFocus
  split_ifs
  · exact h
  · intro _ b hb
    exact told_notify_zero hplain b (by simpa using hb)

theorem away_step {x : State × Bool} (hplain : x.1.Plain c) (h : Away x) (e : Event) :
    Away (observed (step c) inFront x e) ↔ Stays c x e := by
  obtain ⟨s, front⟩ := x
  cases e with
  | onServiceConnected binder =>
      simp only [Away, Stays, observed, inFront, step, iface_onServiceConnected, Option.mem_def,
        Option.some.injEq, forall_eq', ne_eq, told_onServiceConnected hplain, not_or]
  | requestAudioFocus | initAudioBinding => exact iff_of_true (fun hback => (nomatch hback)) trivial
  | bindToWheelService => exact iff_of_true ((mute_bind s).away h rfl) trivial
  | onServiceDisconnected => exact iff_of_true ((mute_disconnected s).away h rfl) trivial
  | die binder => exact iff_of_true h trivial
  | runPosted => exact iff_of_true ((mute_runPosted s).away h rfl) trivial
  | checkAndReconnectServices => exact iff_of_true ((mute_check s).away h rfl) trivial
  | releaseAudioFocus => exact iff_of_true (away_release hplain h) trivial
  | sendToBackground =>
      refine iff_of_true (fun _ b hb => ?_) trivial
      exact told_notify_zero ((mute_unregister s).plain hplain) b
        (by simpa [observed, step, sendToBackground] using hb)
  | endAudioBinding =>
      refine iff_of_true (fun _ b hb => ?_) trivial
      have hnone : (endAudioBinding c s).steeringMenuServiceIface_ = none :=
        iface_unbind ((mute_unregister _).plain hplain.releaseAudioFocus)
      rw [observed, step, hnone] at hb
      cases hb
  | onShowView =>
      cases front with
      | true => exact iff_of_true (fun hback => nomatch hback) (fun hback => nomatch hback)
      | false =>
          have htold := told_notify_one hplain (h rfl)
          simpa [Away, Stays, observed, inFront, step, onShowView] using htold

end SteeringMenu
end Manager
end Carlinkit
