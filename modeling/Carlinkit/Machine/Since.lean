/-
# What held since

`Since P Q xs` says of a history `xs` that an element with `P` came, and only elements with `Q`
after it.  `P` may look at what came before its element.  A flag that one kind of event sets and
another clears is such a statement about the past, and `since_concat` is the step of every proof
that a program keeps one.
-/

import Mathlib.Data.List.Basic

namespace Carlinkit
namespace Machine

variable {α : Type*} {P : List α → α → Prop} {Q : α → Prop}

/-- `P` held at some element, and `Q` ever since. -/
def Since (P : List α → α → Prop) (Q : α → Prop) (xs : List α) : Prop :=
  ∃ before x after, xs = before ++ x :: after ∧ P before x ∧ ∀ y ∈ after, Q y

@[simp] theorem since_nil : ¬ Since P Q [] := by
  rintro ⟨before, x, after, h, -⟩
  exact List.cons_ne_nil _ _ (List.append_eq_nil_iff.1 h.symm).2

/-- **One element more.** -/
theorem since_concat (xs : List α) (x : α) :
    Since P Q (xs ++ [x]) ↔ P xs x ∨ Since P Q xs ∧ Q x := by
  constructor
  · rintro ⟨before, y, after, h, hP, hQ⟩
    rcases List.eq_nil_or_concat after with rfl | ⟨rest, z, rfl⟩
    · obtain ⟨rfl, hx⟩ := List.append_inj' h rfl
      obtain rfl := List.head_eq_of_cons_eq hx
      exact .inl hP
    · rw [List.concat_eq_append] at h hQ
      rw [← List.cons_append, ← List.append_assoc] at h
      obtain ⟨rfl, hx⟩ := List.append_inj' h rfl
      obtain rfl := List.head_eq_of_cons_eq hx
      rw [List.forall_mem_append, List.forall_mem_singleton] at hQ
      exact .inr ⟨⟨before, y, rest, rfl, hP, hQ.1⟩, hQ.2⟩
  · rintro (hP | ⟨⟨before, y, after, rfl, hP, hQ⟩, hx⟩)
    · exact ⟨xs, x, [], rfl, hP, List.forall_mem_nil _⟩
    · refine ⟨before, y, after ++ [x], by rw [List.append_assoc, List.cons_append], hP, ?_⟩
      rw [List.forall_mem_append, List.forall_mem_singleton]
      exact ⟨hQ, hx⟩

end Machine
end Carlinkit
