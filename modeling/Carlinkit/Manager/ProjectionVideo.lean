/-
# Who has the screen

The head unit's `StateMgr` sends an update with the fields that changed.  From two of them,
the parking sensor and the address of the video that is shown, `HondaConnectManager` decides
whether the projection lost the screen: "Either signal saying taken wins; both must clear for
a resume."  `evaluateProjectionVideoTaken` looks at the fields of one update alone, so a field
that did not change counts for nothing, and `notifyProjectionVideoTaken` passes on what
differs from the last time.

`Known` keeps the latest value of both fields, and `told_screen_iff` says when the listener hears
what follows from them.
-/

import Mathlib.Data.Int.Notation
import Carlinkit.Machine.Run

namespace Carlinkit
namespace Manager
namespace ProjectionVideo

open Machine

/-- `StateMgrInfo`: the two fields, and their flags in `updateState`. -/
structure StateMgrInfo where
  parkingSensorC : Bool
  parkingSensor : ℤ
  videoAddressC : Bool
  videoAddress : ℤ
deriving DecidableEq, Repr

/-- The fields of the manager that have to do with the screen. -/
structure State where
  /-- The `getModeMgrOnVideoAddr()` of the mode manager, if there is one. -/
  modeMgrManager_ : Option ℤ
  projectionVideoTaken_ : Option Bool
  /-- Whether there is a `projectionVideoListener_`. -/
  projectionVideoListener_ : Bool
  /-- What the listener was called with, in order. -/
  given : List Bool
deriving DecidableEq, Repr

/-- A manager with a listener, before the first update. -/
def start (modeMgrManager_ : Option ℤ) : State := ⟨modeMgrManager_, none, true, []⟩

namespace State

/-- `ours`. -/
def ours (s : State) : ℤ := s.modeMgrManager_.getD (-1)

/-- `away`, for an address. -/
def away (s : State) (videoAddress : ℤ) : Bool :=
  decide (0 < s.ours) && decide (videoAddress ≠ s.ours)

/-- `notifyProjectionVideoTaken`. -/
def notifyProjectionVideoTaken (taken : Bool) (s : State) : State :=
  if s.projectionVideoTaken_ = some taken then s
  else { s with
    projectionVideoTaken_ := some taken
    given := if s.projectionVideoListener_ then s.given ++ [taken] else s.given }

/-- `taken`, at the end of `evaluateProjectionVideoTaken`. -/
def taken (s : State) (info : StateMgrInfo) : Option Bool :=
  let taken := if info.parkingSensorC then some (decide (info.parkingSensor ≠ 0)) else none
  if info.videoAddressC then
    match taken with
    | none => some (s.away info.videoAddress)
    | some taken => some (taken || s.away info.videoAddress)
  else taken

/-- `evaluateProjectionVideoTaken`. -/
def evaluateProjectionVideoTaken (s : State) (info : StateMgrInfo) : State :=
  match s.taken info with
  | none => s
  | some taken => s.notifyProjectionVideoTaken taken

end State

/-! ### What is known -/

/-- The latest known value of both fields. -/
structure Known where
  parkingSensor : Option ℤ
  videoAddress : Option ℤ
deriving DecidableEq, Repr

namespace Known

/-- Before the first update. -/
def nothing : Known := ⟨none, none⟩

/-- What is known after an update. -/
def see (_ : State) (k : Known) (info : StateMgrInfo) : Known where
  parkingSensor := if info.parkingSensorC then some info.parkingSensor else k.parkingSensor
  videoAddress := if info.videoAddressC then some info.videoAddress else k.videoAddress

/-- The latest parking sensor says taken. -/
def parked (k : Known) : Bool := k.parkingSensor.any fun p => decide (p ≠ 0)

/-- The latest address says taken. -/
def elsewhere (s : State) (k : Known) : Bool := k.videoAddress.any s.away

/-- Either signal says taken. -/
def taken (s : State) (k : Known) : Bool := k.parked || k.elsewhere s

/-- The state of the screen, unknown before the first value of either field. -/
def screen (s : State) (k : Known) : Option Bool :=
  if k.parkingSensor = none ∧ k.videoAddress = none then none else some (k.taken s)

end Known

/-- The manager beside what is known. -/
abbrev Watched := State × Known

/-- The manager after an update. -/
def step (x : Watched) (info : StateMgrInfo) : Watched :=
  watched State.evaluateProjectionVideoTaken Known.see x info

/-- The listener hears the state of the screen. -/
structure Told (x : Watched) (info : StateMgrInfo) : Prop where
  /-- After an update of either field the last call agrees with the latest values. -/
  last : info.parkingSensorC = true ∨ info.videoAddressC = true →
    (step x info).1.given.getLast? = some ((step x info).2.taken x.1)
  /-- There is a call exactly when the state of the screen changes. -/
  calls : (step x info).1.given = x.1.given ++
    if (step x info).2.screen x.1 = x.2.screen x.1 then [] else [(step x info).2.taken x.1]
  /-- A resume is reported when both signals have cleared. -/
  resume : (step x info).1.given = x.1.given ++ [false] →
    (step x info).2.parked = false ∧ (step x info).2.elsewhere x.1 = false

/-- An update of one field that clears it comes while the other field is clear. -/
structure ClearsAlone (x : Watched) (info : StateMgrInfo) : Prop where
  parking : info.parkingSensorC = true → info.videoAddressC = false → info.parkingSensor = 0 →
    x.2.elsewhere x.1 = false
  video : info.videoAddressC = true → info.parkingSensorC = false →
    x.1.away info.videoAddress = false → x.2.parked = false

/-! ### One update -/

/-- What the manager remembers, and what the listener heard last, is the state of the
screen. -/
structure Agrees (x : Watched) : Prop where
  listens : x.1.projectionVideoListener_ = true
  remembers : x.1.projectionVideoTaken_ = x.2.screen x.1
  heard : x.1.given.getLast? = x.2.screen x.1

/-- An update of another field changes nothing. -/
theorem step_other {x : Watched} {info : StateMgrInfo} (hparking : info.parkingSensorC = false)
    (hvideo : info.videoAddressC = false) : step x info = x := by
  have htaken : x.1.taken info = none := by simp [State.taken, hparking, hvideo]
  have hsee : Known.see x.1 x.2 info = x.2 := by simp [Known.see, hparking, hvideo]
  rw [step, watched, hsee, State.evaluateProjectionVideoTaken, htaken]

/-- What the parking sensor says after an update. -/
theorem parked_see (s : State) (k : Known) (info : StateMgrInfo) :
    (Known.see s k info).parked =
      if info.parkingSensorC then decide (info.parkingSensor ≠ 0) else k.parked := by
  rw [Known.parked, Known.see]
  split_ifs <;> rfl

/-- What the address says after an update. -/
theorem elsewhere_see (s : State) (k : Known) (info : StateMgrInfo) :
    (Known.see s k info).elsewhere s =
      if info.videoAddressC then s.away info.videoAddress else k.elsewhere s := by
  rw [Known.elsewhere, Known.see]
  split_ifs <;> rfl

/-- **What one update says is what is known, unless it clears one signal alone.** -/
theorem taken_eq_iff {x : Watched} {info : StateMgrInfo}
    (hsome : info.parkingSensorC = true ∨ info.videoAddressC = true) :
    x.1.taken info = some ((Known.see x.1 x.2 info).taken x.1) ↔ ClearsAlone x info := by
  rw [Known.taken, parked_see, elsewhere_see]
  cases hparking : info.parkingSensorC with
  | false =>
      have hvideo : info.videoAddressC = true := by simpa [hparking] using hsome
      have hjudged : x.1.taken info = some (x.1.away info.videoAddress) := by
        simp [State.taken, hparking, hvideo]
      simp only [hjudged, hvideo, Bool.false_eq_true, if_false, if_true, Option.some_inj]
      constructor
      · intro h
        refine ⟨fun hset => absurd hset (by simp [hparking]), fun _ _ haway => ?_⟩
        simpa [haway] using h
      · rintro ⟨-, hhere⟩
        cases haway : x.1.away info.videoAddress with
        | false => rw [hhere hvideo hparking haway, Bool.or_false]
        | true => rw [Bool.or_true]
  | true =>
      cases hvideo : info.videoAddressC with
      | false =>
          have hjudged : x.1.taken info = some (decide (info.parkingSensor ≠ 0)) := by
            simp [State.taken, hparking, hvideo]
          simp only [hjudged, Bool.false_eq_true, if_false, if_true, Option.some_inj]
          constructor
          · intro h
            refine ⟨fun _ _ hzero => ?_, fun hset => absurd hset (by simp [hvideo])⟩
            simpa [hzero] using h
          · rintro ⟨hclear, -⟩
            by_cases hzero : info.parkingSensor = 0
            · rw [hclear hparking hvideo hzero, Bool.or_false]
            · rw [decide_eq_true hzero, Bool.true_or]
      | true =>
          have hjudged : x.1.taken info =
              some (decide (info.parkingSensor ≠ 0) || x.1.away info.videoAddress) := by
            simp [State.taken, hparking, hvideo]
          refine iff_of_true (by simp [hjudged]) ⟨fun _ hnot => ?_, fun _ hnot => ?_⟩
          · exact absurd hnot (by simp [hvideo])
          · exact absurd hnot (by simp [hparking])

/-- After an update of either field the state of the screen is known. -/
theorem screen_see {x : Watched} {info : StateMgrInfo}
    (hsome : info.parkingSensorC = true ∨ info.videoAddressC = true) :
    (Known.see x.1 x.2 info).screen x.1 = some ((Known.see x.1 x.2 info).taken x.1) := by
  rw [Known.screen, if_neg]
  rintro ⟨hparking, hvideo⟩
  rcases hsome with hset | hset
  · simp [Known.see, hset] at hparking
  · simp [Known.see, hset] at hvideo

/-- The own address is fixed. -/
theorem modeMgrManager_step (x : Watched) (info : StateMgrInfo) :
    (step x info).1.modeMgrManager_ = x.1.modeMgrManager_ := by
  show (x.1.evaluateProjectionVideoTaken info).modeMgrManager_ = _
  rw [State.evaluateProjectionVideoTaken]
  split
  · rfl
  · rw [State.notifyProjectionVideoTaken]
    split_ifs <;> rfl

/-- So what is known says the same after the update. -/
theorem screen_step (x : Watched) (info : StateMgrInfo) (k : Known) :
    k.screen (step x info).1 = k.screen x.1 := by
  have haway : (step x info).1.away = x.1.away := by
    funext a
    rw [State.away, State.away, State.ours, State.ours, modeMgrManager_step]
  rw [Known.screen, Known.screen, Known.taken, Known.taken, Known.elsewhere, Known.elsewhere,
    haway]

/-- **What an update of either field tells the listener.** -/
theorem given_step {x : Watched} {info : StateMgrInfo} {taken : Bool} (h : Agrees x)
    (htaken : x.1.taken info = some taken) :
    (step x info).1.given =
        x.1.given ++ (if x.2.screen x.1 = some taken then [] else [taken]) ∧
      (step x info).1.given.getLast? = some taken ∧
      (step x info).1.projectionVideoTaken_ = some taken ∧
      (step x info).1.projectionVideoListener_ = true := by
  have hstep : (step x info).1 = x.1.notifyProjectionVideoTaken taken := by
    show x.1.evaluateProjectionVideoTaken info = _
    rw [State.evaluateProjectionVideoTaken, htaken]
  rw [hstep, State.notifyProjectionVideoTaken, h.remembers, if_pos h.listens]
  split_ifs with hsame
  · exact ⟨(List.append_nil _).symm, h.heard.trans hsame, h.remembers.trans hsame, h.listens⟩
  · exact ⟨rfl, List.getLast?_concat, rfl, h.listens⟩

/-- What is not news is not said again. -/
theorem append_news {given : List Bool} {before : Option Bool} {taken : Bool}
    (h : given ++ (if before = some taken then [] else [taken]) = given ++ [false]) :
    taken = false := by
  have hnews := List.append_cancel_left h
  split_ifs at hnews
  exact List.head_eq_of_cons_eq hnews

/-- **The listener is told of an update exactly when it does not clear one signal alone.** -/
theorem told_step_iff (x : Watched) (info : StateMgrInfo) (h : Agrees x) :
    Told x info ↔ ClearsAlone x info := by
  by_cases hsome : info.parkingSensorC = true ∨ info.videoAddressC = true
  · rw [← taken_eq_iff hsome]
    constructor
    · intro htold
      obtain ⟨taken, htaken⟩ : ∃ taken, x.1.taken info = some taken := by
        rw [State.taken]
        rcases hsome with hset | hset <;> simp only [hset] <;> split_ifs <;> exact ⟨_, rfl⟩
      rw [htaken, ← (given_step h htaken).2.1]
      exact htold.last hsome
    · intro htaken
      obtain ⟨hgiven, hlast, -, -⟩ := given_step h htaken
      refine ⟨fun _ => hlast, ?_, fun hfalse => ?_⟩
      · rw [hgiven, show (step x info).2.screen x.1 = _ from screen_see hsome]
        simp only [eq_comm]
        rfl
      · rw [hgiven] at hfalse
        exact Bool.or_eq_false_iff.1 (append_news hfalse)
  · rw [not_or, Bool.not_eq_true, Bool.not_eq_true] at hsome
    obtain ⟨hparking, hvideo⟩ := hsome
    have hstep := step_other (x := x) hparking hvideo
    refine iff_of_true ⟨fun hset => ?_, ?_, fun hfalse => ?_⟩ ⟨fun hset => ?_, fun hset => ?_⟩
    · simp [hparking, hvideo] at hset
    · rw [hstep, if_pos rfl, List.append_nil]
    · rw [hstep] at hfalse
      simp at hfalse
    · simp [hparking] at hset
    · simp [hvideo] at hset

/-- **Such an update leaves the manager and the listener with the state of the screen.** -/
theorem agrees_step (x : Watched) (info : StateMgrInfo) (h : Agrees x)
    (hclears : ClearsAlone x info) : Agrees (step x info) := by
  by_cases hsome : info.parkingSensorC = true ∨ info.videoAddressC = true
  · obtain ⟨-, hlast, hremembers, hlistens⟩ := given_step h ((taken_eq_iff hsome).2 hclears)
    have hscreen : (step x info).2.screen (step x info).1 =
        some ((step x info).2.taken x.1) := by
      rw [screen_step]
      exact screen_see hsome
    exact ⟨hlistens, hremembers.trans hscreen.symm, hlast.trans hscreen.symm⟩
  · rw [not_or, Bool.not_eq_true, Bool.not_eq_true] at hsome
    rw [step_other hsome.1 hsome.2]
    exact h

/-! ### All updates -/

/-- **When the listener hears what the two signals say together.**  Whatever the own address
is, the listener follows the state of the screen along a run of updates exactly when each
update that brings one signal without the other, and says that it is clear, comes while the
other one is clear. -/
theorem told_screen_iff (modeMgrManager_ : Option ℤ) (infos : List StateMgrInfo) :
    Along step Told (start modeMgrManager_, Known.nothing) infos ↔
      Along step ClearsAlone (start modeMgrManager_, Known.nothing) infos :=
  along_iff_of_invariant told_step_iff agrees_step ⟨rfl, rfl, rfl⟩ infos

/-- Reverse gear, and then the address of the app itself in an update of its own: the listener
is told to resume, while the sensor is still armed. -/
theorem resumed_in_reverse :
    ¬ Along step Told (start (some 5), Known.nothing)
      [⟨true, 1, false, 0⟩, ⟨false, 0, true, 5⟩] := by
  intro h
  exact absurd (h.2.1.last (by decide)) (by decide)

end ProjectionVideo
end Manager
end Carlinkit
