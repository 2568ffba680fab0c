/-
# One press of the phone button

The steering wheel has one phone button, and a press of it may reach `phoneButton` by three
routes: the `KeyEvent` on the main thread, and the callbacks of the wheel service and of
ModeMgr on Binder threads.  `dedupe` is there for that: a second ACCEPT is a REJECT once the
call is answered.  But `phoneButton` tests `lastPhoneButtonAt` and writes it in two steps,
and another delivery may test in between.

A delivery is one call of `phoneButton`, and there are any number of them, of a type `ι`.
`single_run` says that this is all that can go wrong.
-/

import Mathlib.Data.Fintype.Basic
import Mathlib.Data.Int.Notation
import Carlinkit.Machine.Run
import Carlinkit.Machine.Threads

namespace Carlinkit
namespace App
namespace PhoneButton

open Machine

/-- `KEY_DEDUPE_MS`. -/
def keyDedupeMs : ℤ := 600

/-- `ACCEPT_PHONE`. -/
def acceptPhone : ℕ := 300

/-- `REJECT_PHONE`. -/
def rejectPhone : ℕ := 301

/-- `dedupe`. -/
def dedupe (now lastAt : ℤ) : Bool := now - lastAt < keyDedupeMs

/-- Where a call of `phoneButton` is, with what it holds. -/
inductive Pc
  | idle
  | test (now : ℤ)
  | write (now : ℤ)
  | ask (now : ℤ)
  | send (now : ℤ) (inCall : Bool)
  | arm (now : ℤ)
  | done
deriving DecidableEq, Repr

/-- The fields of the Activity, and the session: whether there is one, and its
`isPhoneCallActive`. -/
structure State (ι : Type*) where
  lastPhoneButtonAt : ℤ
  lastScreenStealingCommandAt : ℤ
  session : Option Bool
  pcs : ι → Pc
  /-- The commands that were accepted into the queue of the dongle. -/
  sent : List ℕ

/-- What happens next. -/
inductive Event (ι : Type*)
  /-- A delivery begins, and reads the clock. -/
  | press (i : ι) (now : ℤ)
  /-- A delivery goes on; `queued` says whether the queue of the driver takes a command. -/
  | go (i : ι) (queued : Bool)
  /-- The session comes, goes, or hears of a call. -/
  | session (x : Option Bool)
deriving DecidableEq, Repr

variable {ι : Type*}

namespace State

variable [DecidableEq ι]

/-- A delivery is somewhere else. -/
def setPc (s : State ι) (i : ι) (pc : Pc) : State ι :=
  { s with pcs := Function.update s.pcs i pc }

/-- A step of `phoneButton`. -/
def goStep (s : State ι) (i : ι) (queued : Bool) : State ι :=
  match s.pcs i with
  | .idle | .done => s
  | .test now => s.setPc i (if dedupe now s.lastPhoneButtonAt then .done else .write now)
  | .write now => { s.setPc i (.ask now) with lastPhoneButtonAt := now }
  | .ask now => s.setPc i (.send now (s.session.getD false))
  | .send now inCall =>
      -- `sendToDongle` looks for the session again
      if s.session.isSome && queued then
        { s.setPc i (if inCall then .done else .arm now) with
          sent := s.sent ++ [if inCall then rejectPhone else acceptPhone] }
      else s.setPc i .done
  | .arm now => { s.setPc i .done with lastScreenStealingCommandAt := now }

/-- One step. -/
def step (s : State ι) : Event ι → State ι
  | .press i now => if s.pcs i = .idle then s.setPc i (.test now) else s
  | .go i queued => s.goStep i queued
  | .session x => { s with session := x }

end State

/-- The delivery passed the test, and did not send yet. -/
def Pc.Accepted : Pc → Prop
  | .write _ | .ask _ | .send .. => True
  | _ => False

/-- The delivery passed the test, and did not write yet. -/
def Pc.Writes : Pc → Prop
  | .write _ => True
  | _ => False

instance : ∀ pc : Pc, Decidable pc.Writes
  | .write _ => .isTrue trivial
  | .idle | .test _ | .ask _ | .send .. | .arm _ | .done => .isFalse id

/-- The delivery wrote, and did not send yet. -/
def Pc.Sends : Pc → Prop
  | .ask _ | .send .. => True
  | _ => False

/-- The delivery is at the test. -/
def Pc.Tests : Pc → Prop
  | .test _ => True
  | _ => False

instance : ∀ pc : Pc, Decidable pc.Tests
  | .test _ => .isTrue trivial
  | .idle | .write _ | .ask _ | .send .. | .arm _ | .done => .isFalse id

namespace State

/-- The clock is read within `KEY_DEDUPE_MS` from `t`. -/
def Timely (t : ℤ) : Event ι → Prop
  | .press _ now => t ≤ now ∧ now < t + keyDedupeMs
  | _ => True

/-- A delivery tests between the test and the write of another. -/
def Overtakes (s : State ι) : Event ι → Prop
  | .go i _ => (s.pcs i).Tests ∧ ∃ j, (s.pcs j).Writes
  | _ => False

/-- Nobody has begun, and the button was last accepted `KEY_DEDUPE_MS` before `t`. -/
structure Rested (t : ℤ) (s : State ι) : Prop where
  last : s.lastPhoneButtonAt + keyDedupeMs ≤ t
  idle : ∀ i, s.pcs i = .idle
  sent : s.sent = []

/-- At most one delivery passed the test.  Before it writes nothing is sent, and after that
nobody passes. -/
structure Single (t : ℤ) (s : State ι) : Prop where
  clock : ∀ i now, s.pcs i = .test now ∨ s.pcs i = .write now → t ≤ now ∧ now < t + keyDedupeMs
  owner : ∃ owner, OwnerOf owner Pc.Accepted s.pcs
  phase : (s.lastPhoneButtonAt + keyDedupeMs ≤ t ∧ s.sent = [] ∧ ∀ i, ¬ (s.pcs i).Sends) ∨
    (t ≤ s.lastPhoneButtonAt ∧ ∀ i, ¬ (s.pcs i).Writes)
  sent : s.sent = [] ∨ s.sent.length = 1 ∧ ∀ i, ¬ (s.pcs i).Accepted

variable {t : ℤ} {s : State ι}

theorem Rested.single (h : s.Rested t) : s.Single t where
  clock i now hpc := by simp [h.idle] at hpc
  owner := ⟨none, OwnerOf.of_empty none fun i => by simp [h.idle, Pc.Accepted]⟩
  phase := .inl ⟨h.last, h.sent, fun i => by simp [h.idle, Pc.Sends]⟩
  sent := .inl h.sent

variable [DecidableEq ι] {s' : State ι} {i : ι} {pc : Pc}

/-- A delivery goes on, and passes nothing. -/
theorem Single.moves (h : s.Single t) (hpcs : s'.pcs = Function.update s.pcs i pc)
    (hlast : s'.lastPhoneButtonAt = s.lastPhoneButtonAt) (hsent : s'.sent = s.sent)
    (hclock : ∀ now, pc = .test now → t ≤ now ∧ now < t + keyDedupeMs) (hwrites : ¬ pc.Writes)
    (haccepted : pc.Accepted → (s.pcs i).Accepted) (hsends : pc.Sends → (s.pcs i).Sends) :
    s'.Single t where
  clock j now hpc := by
    rw [hpcs] at hpc
    by_cases hj : j = i
    · subst hj
      rw [Function.update_self] at hpc
      rcases hpc with hpc | rfl
      · exact hclock now hpc
      · exact absurd trivial hwrites
    · rw [Function.update_of_ne hj] at hpc
      exact h.clock j now hpc
  owner := h.owner.imp fun owner howner => howner.stays hpcs rfl haccepted
  phase := by
    rw [hlast, hsent]
    refine h.phase.imp (fun hbefore => ⟨hbefore.1, hbefore.2.1, fun j hj => ?_⟩)
      (fun hafter => ⟨hafter.1, fun j hj => ?_⟩)
    · rw [hpcs] at hj
      exact hbefore.2.2 j (of_region_update_of_imp (p := Pc.Sends) hsends hj)
    · rw [hpcs] at hj
      exact hafter.2 j (of_region_update (p := Pc.Writes) hwrites hj).2
  sent := by
    rw [hsent]
    refine h.sent.imp_right fun hone => ⟨hone.1, fun j hj => ?_⟩
    rw [hpcs] at hj
    exact hone.2 j (of_region_update_of_imp (p := Pc.Accepted) haccepted hj)

/-- The test.  Where it is passed nobody passed it before, unless a delivery is overtaken. -/
theorem Single.test (h : s.Single t) {now : ℤ} (hpc : s.pcs i = .test now)
    (hovertakes : ∀ j, ¬ (s.pcs j).Writes) :
    (s.setPc i (if dedupe now s.lastPhoneButtonAt then .done else .write now)).Single t := by
  obtain ⟨hnow, hbound⟩ := h.clock i now (.inl hpc)
  split_ifs with hdedupe
  · exact h.moves rfl rfl rfl (by simp) id (fun hin => hin.elim) fun hin => hin.elim
  · have hlate : keyDedupeMs ≤ now - s.lastPhoneButtonAt := by simpa [dedupe] using hdedupe
    obtain ⟨hlast, hsent, hsends⟩ : s.lastPhoneButtonAt + keyDedupeMs ≤ t ∧ s.sent = [] ∧
        ∀ j, ¬ (s.pcs j).Sends := h.phase.resolve_right fun hafter => by
      have hrecent := hafter.1
      omega
    have hempty : ∀ j, ¬ (s.pcs j).Accepted := by
      intro j hj
      have hwrites := hovertakes j
      have hsends := hsends j
      cases hpcj : s.pcs j <;> rw [hpcj] at hj hwrites hsends <;>
        first | exact hj | exact hwrites trivial | exact hsends trivial
    refine ⟨fun j now' hpcj => ?_, ⟨some i, OwnerOf.enters hempty rfl rfl⟩,
      .inl ⟨hlast, hsent, fun j hj => ?_⟩, .inl hsent⟩
    · by_cases hj : j = i
      · subst hj
        have hsame : Pc.write now = .test now' ∨ Pc.write now = .write now' := by
          simpa [setPc] using hpcj
        rcases hsame with hsame | hsame
        · cases hsame
        · cases hsame
          exact ⟨hnow, hbound⟩
      · refine h.clock j now' ?_
        simpa [setPc, Function.update_of_ne hj] using hpcj
    · exact hsends j (of_region_update (p := Pc.Sends) (i := i) (a := .write now) id hj).2

/-- A delivery that overtakes passes too. -/
theorem Single.passes (h : s.Single t) {now : ℤ} (hpc : s.pcs i = .test now) {j : ι}
    (hj : (s.pcs j).Writes) (queued : Bool) : (s.step (.go i queued)).pcs i = .write now := by
  have hbefore := (h.phase.resolve_right fun hafter => hafter.2 j hj).1
  have hnow := (h.clock i now (.inl hpc)).1
  have hdedupe : dedupe now s.lastPhoneButtonAt = false := by
    simp only [dedupe, decide_eq_false_iff_not]
    omega
  simp [State.step, goStep, hpc, hdedupe, setPc]

/-- The write.  From here on every test finds it. -/
theorem Single.write (h : s.Single t) {now : ℤ} (hpc : s.pcs i = .write now) :
    State.Single t { s.setPc i (.ask now) with lastPhoneButtonAt := now } := by
  obtain ⟨hnow, -⟩ := h.clock i now (.inr hpc)
  obtain ⟨owner, howner⟩ := h.owner
  have hin : (s.pcs i).Accepted := by rw [hpc]; trivial
  have hsent : s.sent = [] := h.sent.resolve_right fun hone => hone.2 i hin
  refine ⟨fun j now' hpcj => ?_, ⟨owner, howner.inside hin rfl rfl⟩,
    .inr ⟨hnow, fun j hj => ?_⟩, .inl hsent⟩
  · by_cases hj : j = i
    · subst hj
      simp [setPc] at hpcj
    · refine h.clock j now' ?_
      simpa [setPc, Function.update_of_ne hj] using hpcj
  · obtain ⟨hne, hj⟩ := of_region_update (p := Pc.Writes) (i := i) (a := .ask now) id hj
    refine hne (howner.unique ?_ hin)
    cases hpcj : s.pcs j <;> rw [hpcj] at hj <;> trivial

/-- The command.  The delivery is the only one that has one to send. -/
theorem Single.send (h : s.Single t) {now : ℤ} {inCall : Bool}
    (hpc : s.pcs i = .send now inCall) (hquiet : ¬ pc.Accepted) (hclock : ∀ now, pc ≠ .test now)
    (command : ℕ) : State.Single t { s.setPc i pc with sent := s.sent ++ [command] } := by
  obtain ⟨owner, howner⟩ := h.owner
  have hin : (s.pcs i).Accepted := by rw [hpc]; trivial
  have hsent : s.sent = [] := h.sent.resolve_right fun hone => hone.2 i hin
  have hout : ∀ j, ¬ (Function.update s.pcs i pc j).Accepted := fun j hj => by
    obtain ⟨hne, hj⟩ := of_region_update hquiet hj
    exact hne (howner.unique hj hin)
  have hafter := h.phase.resolve_left fun hbefore => hbefore.2.2 i (by rw [hpc]; trivial)
  refine ⟨fun j now' hpcj => ?_, ⟨none, OwnerOf.of_empty none hout⟩,
    .inr ⟨hafter.1, fun j hj => hout j ?_⟩, .inr ⟨by simp [hsent], hout⟩⟩
  · by_cases hj : j = i
    · subst hj
      have hsame : pc = .test now' ∨ pc = .write now' := by simpa [setPc] using hpcj
      rcases hsame with hsame | rfl
      · exact absurd hsame (hclock now')
      · exact absurd trivial hquiet
    · refine h.clock j now' ?_
      simpa [setPc, Function.update_of_ne hj] using hpcj
  · replace hj : (Function.update s.pcs i pc j).Writes := hj
    cases hpcj : Function.update s.pcs i pc j <;> rw [hpcj] at hj <;> trivial

/-- **One step keeps deliveries apart**, unless one is overtaken. -/
theorem Single.step (h : s.Single t) {e : Event ι} (htimely : Timely t e)
    (hovertakes : ¬ s.Overtakes e) : (s.step e).Single t := by
  cases e with
  | press i now =>
      simp only [State.step]
      split_ifs
      · refine h.moves rfl rfl rfl ?_ id (fun hin => hin.elim) fun hin => hin.elim
        rintro now' ⟨⟩
        exact htimely
      · exact h
  | session x => exact ⟨h.clock, h.owner, h.phase, h.sent⟩
  | go i queued =>
      simp only [State.step, goStep]
      cases hpc : s.pcs i with
      | idle | done => exact h
      | test now =>
          refine h.test hpc fun j hj => hovertakes ⟨?_, j, hj⟩
          rw [hpc]
          trivial
      | write now => exact h.write hpc
      | ask now =>
          refine h.moves rfl rfl rfl (by simp) id (fun _ => ?_) fun _ => ?_ <;>
          · rw [hpc]
            trivial
      | send now inCall =>
          simp only
          split_ifs
          · exact h.send hpc id (by simp) _
          · exact h.send hpc id (by simp) _
          · exact h.moves rfl rfl rfl (by simp) id (fun hin => hin.elim) fun hin => hin.elim
      | arm now =>
          exact h.moves rfl rfl rfl (by simp) id (fun hin => hin.elim) fun hin => hin.elim

/-- **One press, one command.**  For any number of deliveries whose clocks are read within
`KEY_DEDUPE_MS`, and that long after the button was last accepted: at most one command is
sent, in every run in which no delivery tests between the test and the write of another. -/
theorem single_run (h : s.Rested t) {es : List (Event ι)}
    (hrun : Along step (fun s e => Timely t e ∧ ¬ s.Overtakes e) s es) :
    (run step s es).sent.length ≤ 1 := by
  have hsingle : (run step s es).Single t :=
    hrun.invariant (fun _ _ hs he => hs.step he.1 he.2) h.single
  rcases hsingle.sent with hnone | hone
  · rw [hnone]
    exact Nat.zero_le 1
  · exact hone.1.le

instance (t : ℤ) : ∀ e : Event ι, Decidable (Timely t e)
  | .press .. => inferInstanceAs (Decidable (_ ∧ _))
  | .go .. | .session _ => .isTrue trivial

instance [Fintype ι] (s : State ι) : ∀ e : Event ι, Decidable (s.Overtakes e)
  | .go .. => inferInstanceAs (Decidable (_ ∧ ∃ _, _))
  | .press .. | .session _ => .isFalse id

/-- Before the first press, with a session and no call. -/
def fresh : State (Fin 2) := ⟨0, 0, some false, fun _ => .idle, []⟩

theorem rested_fresh : fresh.Rested 60000 := ⟨by decide, fun _ => rfl, rfl⟩

/-- One route after the other. -/
def separate : List (Event (Fin 2)) :=
  [.press 0 60000, .go 0 true, .go 0 true, .press 1 60004, .go 1 true, .go 0 true, .go 0 true,
    .go 0 true]

/-- Both routes test before either writes, and the call is answered in between. -/
def together : List (Event (Fin 2)) :=
  [.press 0 60000, .press 1 60004, .go 0 true, .go 1 true, .go 0 true, .go 1 true, .go 0 true,
    .go 0 true, .session (some true), .go 1 true, .go 1 true]

theorem single_run_separate : (run step fresh separate).sent = [acceptPhone] ∧
    (run step fresh separate).sent.length ≤ 1 :=
  ⟨by decide, single_run rested_fresh (by decide)⟩

/-- **The call is answered and hung up.** -/
theorem not_single_together :
    (run step fresh together).sent = [acceptPhone, rejectPhone] ∧
    ¬ ∀ (s : State (Fin 2)) (t : ℤ) (es : List (Event (Fin 2))), s.Rested t →
      Along step (fun _ e => Timely t e) s es → (run step s es).sent.length ≤ 1 := by
  refine ⟨by decide, fun h => ?_⟩
  have hone := h fresh 60000 together rested_fresh (by decide)
  exact absurd hone (by decide)

end State
end PhoneButton
end App
end Carlinkit
