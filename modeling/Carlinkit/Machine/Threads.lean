/-
# Threads by number

A machine of any number of threads keeps the place of each in a function of its
number, `pcs : ι → α`, and a step changes one value of it.  `OwnerOf owner region pcs`
is the invariant by which such programs exclude each other: a field names the only
thread that can be in a region of the code, because it has the lock of that region or
because it was put there.

What a step does to it depends on where the thread comes from and where it goes:
`outside`, `inside`, `enters` and `leaves`.  `Roster l region pcs` lists the threads in a
region, where there may be several.  What the threads of a list hold together changes by what
the one that moves holds (`sum_update_add`).
-/

import Mathlib.Algebra.BigOperators.Group.Finset.Piecewise
import Mathlib.Algebra.Ring.Nat
import Mathlib.Data.Finset.Card
import Mathlib.Logic.Function.Basic

namespace Carlinkit
namespace Machine

variable {ι α : Type*}

/-- A thread in the region is the one that the field names. -/
def OwnerOf (owner : Option ι) (region : α → Prop) (pcs : ι → α) : Prop :=
  ∀ i, region (pcs i) → owner = some i

section Region

variable [DecidableEq ι] {pcs : ι → α} {p : α → Prop} {i : ι} {a : α}

/-- A thread that stays where it was, in the region or out of it, changes nothing. -/
theorem region_update_iff (h : p a ↔ p (pcs i)) (j : ι) :
    p (Function.update pcs i a j) ↔ p (pcs j) := by
  by_cases hj : j = i
  · subst hj
    rw [Function.update_self, h]
  · rw [Function.update_of_ne hj]

/-- A thread that leaves the region leaves the others. -/
theorem of_region_update (h : ¬ p a) {j : ι} (hj : p (Function.update pcs i a j)) :
    j ≠ i ∧ p (pcs j) := by
  have hne : j ≠ i := by
    rintro rfl
    rw [Function.update_self] at hj
    exact h hj
  exact ⟨hne, by rwa [Function.update_of_ne hne] at hj⟩

/-- A thread that does not enter the region leaves no new one in it. -/
theorem of_region_update_of_imp (h : p a → p (pcs i)) {j : ι}
    (hj : p (Function.update pcs i a j)) : p (pcs j) := by
  by_cases hne : j = i
  · subst hne
    exact h (by rwa [Function.update_self] at hj)
  · rwa [Function.update_of_ne hne] at hj

end Region

namespace OwnerOf

variable {owner owner' : Option ι} {region : α → Prop} {pcs pcs' : ι → α} {i : ι} {a : α}

/-- There is at most one thread in the region. -/
theorem unique (h : OwnerOf owner region pcs) {i j : ι} (hi : region (pcs i))
    (hj : region (pcs j)) : i = j :=
  Option.some.inj ((h i hi).symm.trans (h j hj))

/-- With the field's thread outside, nobody is in the region. -/
theorem empty (h : OwnerOf owner region pcs) (hout : ∀ i ∈ owner, ¬ region (pcs i)) (i : ι) :
    ¬ region (pcs i) :=
  fun hi => hout i (h i hi) hi

/-- With no thread in the field, nobody is in the region. -/
theorem free (h : OwnerOf owner region pcs) (hfree : owner = none) (i : ι) : ¬ region (pcs i) :=
  h.empty (by simp [hfree]) i

/-- Nobody is in an empty region, whatever the field says. -/
theorem of_empty (owner : Option ι) (h : ∀ i, ¬ region (pcs i)) : OwnerOf owner region pcs :=
  fun i hi => absurd hi (h i)

variable [DecidableEq ι]

/-- A thread stays in the region, or stays out of it, or leaves it. -/
theorem stays (h : OwnerOf owner region pcs) (hpcs : pcs' = Function.update pcs i a)
    (howner : owner' = owner) (ha : region a → region (pcs i)) : OwnerOf owner' region pcs' := by
  intro j hj
  rw [hpcs] at hj
  rw [howner]
  exact h j (of_region_update_of_imp ha hj)

/-- A thread does not enter. -/
theorem outside (h : OwnerOf owner region pcs) (hpcs : pcs' = Function.update pcs i a)
    (howner : owner' = owner) (ha : ¬ region a) : OwnerOf owner' region pcs' :=
  h.stays hpcs howner fun hin => absurd hin ha

/-- A thread goes on inside. -/
theorem inside (h : OwnerOf owner region pcs) (hi : region (pcs i))
    (hpcs : pcs' = Function.update pcs i a) (howner : owner' = owner) :
    OwnerOf owner' region pcs' :=
  h.stays hpcs howner fun _ => hi

/-- The thread inside leaves; then the field does not matter. -/
theorem leaves (h : OwnerOf owner region pcs) (hi : region (pcs i))
    (hpcs : pcs' = Function.update pcs i a) (ha : ¬ region a) : OwnerOf owner' region pcs' := by
  refine of_empty owner' fun j hj => ?_
  rw [hpcs] at hj
  obtain ⟨hne, hj⟩ := of_region_update ha hj
  exact hne (h.unique hj hi)

/-- A thread enters an empty region, and takes the field. -/
theorem enters (h : ∀ j, ¬ region (pcs j)) (hpcs : pcs' = Function.update pcs i a)
    (howner : owner' = some i) : OwnerOf owner' region pcs' := by
  intro j hj
  rw [hpcs] at hj
  by_cases hij : j = i
  · rw [howner, hij]
  · exact absurd (by rwa [Function.update_of_ne hij] at hj) (h j)

end OwnerOf

/-- The threads in the region are the ones on the list. -/
def Roster (l : Finset ι) (region : α → Prop) (pcs : ι → α) : Prop := ∀ i, i ∈ l ↔ region (pcs i)

namespace Roster

variable {l : Finset ι} {region : α → Prop} {pcs : ι → α} {i : ι} {a : α}

/-- Nobody is in the region. -/
theorem eq_empty (h : Roster l region pcs) (hout : ∀ i, ¬ region (pcs i)) : l = ∅ :=
  Finset.eq_empty_of_forall_notMem fun i hi => hout i ((h i).1 hi)

variable [DecidableEq ι]

/-- A thread stays in the region, or stays out of it. -/
theorem stays (h : Roster l region pcs) (ha : region a ↔ region (pcs i)) :
    Roster l region (Function.update pcs i a) :=
  fun j => (h j).trans (region_update_iff ha j).symm

/-- A thread enters. -/
theorem enters (h : Roster l region pcs) (ha : region a) (hi : ¬ region (pcs i)) :
    ∃ l', Roster l' region (Function.update pcs i a) ∧ l'.card = l.card + 1 := by
  refine ⟨insert i l, fun j => ?_, Finset.card_insert_of_notMem fun hmem => hi ((h i).1 hmem)⟩
  rw [Finset.mem_insert]
  by_cases hj : j = i
  · subst hj
    simp [ha]
  · rw [Function.update_of_ne hj, h j]
    exact or_iff_right hj

/-- A thread leaves. -/
theorem leaves (h : Roster l region pcs) (ha : ¬ region a) (hi : region (pcs i)) :
    ∃ l', Roster l' region (Function.update pcs i a) ∧ l'.card + 1 = l.card := by
  refine ⟨l.erase i, fun j => ?_, Finset.card_erase_add_one ((h i).2 hi)⟩
  rw [Finset.mem_erase]
  by_cases hj : j = i
  · subst hj
    simp [ha]
  · rw [Function.update_of_ne hj, h j]
    exact and_iff_right hj

end Roster

/-- One thread of `T` holds `n` from now on. -/
theorem sum_update_add [DecidableEq ι] {T : Finset ι} {i : ι} (hi : i ∈ T) (f : ι → ℕ) (n : ℕ) :
    (∑ j ∈ T, Function.update f i n j) + f i = (∑ j ∈ T, f j) + n := by
  rw [Finset.sum_update_of_mem hi, Finset.sdiff_singleton_eq_erase,
    ← Finset.add_sum_erase T f hi]
  omega

end Machine
end Carlinkit
