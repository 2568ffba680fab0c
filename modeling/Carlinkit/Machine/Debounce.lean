/-
# Debouncing

A debounce lets an event pass that comes `w` or more after the time in its field, and an event
that passes and is marked puts its own time there.  `passed` is what passes, as a function of
the events alone.

`passed_marked` says that the marked events are debounced among themselves.  `passed_bursts` is
what a debounce is for: of a burst that is shorter than `w` the first event passes, and no other.
`marked_apart` holds whatever comes: the marked events that pass are `w` apart.
-/

import Mathlib.Data.Int.Notation
import Mathlib.Data.List.Basic

namespace Carlinkit
namespace Machine

variable {α : Type*} (w : ℤ) (time : α → ℤ) (marks : α → Bool)

/-- The events that pass, when the field holds `last`. -/
def passed : ℤ → List α → List α
  | _, [] => []
  | last, a :: as =>
      if time a - last < w then passed last as
      else a :: passed (if marks a then time a else last) as

/-- Bursts, each with its first event apart from the others: the first comes late enough after
the first of the burst before, and the others come soon after it. -/
def Bursts : ℤ → List (α × List α) → Prop
  | _, [] => True
  | last, (a, rest) :: bs =>
      w ≤ time a - last ∧ (∀ b ∈ rest, time b - time a < w) ∧ Bursts (time a) bs

variable {w time marks} {last : ℤ} {as : List α}

/-- What comes too soon is as if it had not come. -/
theorem passed_append_of_soon {soon : List α} (h : ∀ a ∈ soon, time a - last < w) (as : List α) :
    passed w time marks last (soon ++ as) = passed w time marks last as := by
  induction soon with
  | nil => rfl
  | cons a soon ih =>
      rw [List.cons_append, passed, if_pos (h a (List.mem_cons_self ..))]
      exact ih fun b hb => h b (List.mem_cons_of_mem a hb)

/-- **The marked events are debounced among themselves.**  An event that is not marked leaves
the field as it is. -/
theorem passed_marked (last : ℤ) (as : List α) :
    (passed w time marks last as).filter marks =
      passed w time (fun _ => true) last (as.filter marks) := by
  induction as generalizing last with
  | nil => rfl
  | cons a as ih =>
      by_cases hsoon : time a - last < w
      · rw [passed, if_pos hsoon, ih, List.filter_cons]
        split_ifs
        · rw [passed, if_pos hsoon]
        · rfl
      · rw [passed, if_neg hsoon, List.filter_cons, List.filter_cons]
        split_ifs with hmarks
        · rw [passed, if_neg hsoon, ih]
          rfl
        · exact ih last

/-- **The first event of a burst passes**, and no other. -/
theorem passed_bursts {bs : List (α × List α)} (h : Bursts w time last bs) :
    passed w time (fun _ => true) last (bs.flatMap fun b => b.1 :: b.2) = bs.map Prod.fst := by
  induction bs generalizing last with
  | nil => rfl
  | cons b bs ih =>
      obtain ⟨hlate, hsoon, hrest⟩ := h
      rw [List.flatMap_cons, List.cons_append, passed, if_neg (by omega), if_pos rfl,
        passed_append_of_soon hsoon, ih hrest, List.map_cons]

/-- A marked event that passes comes `w` after the field. -/
theorem late_of_mem_passed (hw : 0 ≤ w) {a : α}
    (h : a ∈ (passed w time marks last as).filter marks) : w ≤ time a - last := by
  induction as generalizing last with
  | nil => cases h
  | cons b as ih =>
      rw [passed] at h
      split_ifs at h with hsoon hmarks
      · exact ih h
      · rw [List.filter_cons_of_pos hmarks, List.mem_cons] at h
        rcases h with rfl | h
        · omega
        · have hnext := ih h
          omega
      · rw [List.filter_cons_of_neg hmarks] at h
        exact ih h

/-- **The marked events that pass are `w` apart.** -/
theorem marked_apart (hw : 0 ≤ w) (last : ℤ) (as : List α) :
    ((passed w time marks last as).filter marks).Pairwise fun a b => w ≤ time b - time a := by
  induction as generalizing last with
  | nil => exact .nil
  | cons a as ih =>
      rw [passed]
      split_ifs with hsoon hmarks
      · exact ih last
      · rw [List.filter_cons_of_pos hmarks]
        exact .cons (fun b hb => late_of_mem_passed hw hb) (ih (time a))
      · rw [List.filter_cons_of_neg hmarks]
        exact ih last

end Machine
end Carlinkit
