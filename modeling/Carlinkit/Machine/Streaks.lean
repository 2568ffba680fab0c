/-
# Streaks of one value

A sequence `f : ℕ → Option α` reads a value at some moments and nothing at the others.  A
block is a longest stretch of consecutive moments with one and the same value, and
`streak f i` counts how many moments before `i` read the value of the last of them without
a break.

A program that watches such a sequence as it comes keeps the last reading and a count, and
`grow` is how the count goes on.  It cannot know a block, which depends on what comes after
it; `IsBlock.streak_eq` and `exists_isBlock` say what the count tells of the blocks.
-/

import Mathlib.Order.Basic
import Mathlib.Data.Nat.Find

namespace Carlinkit
namespace Machine

variable {α : Type*}

/-- The reading before a moment. -/
def prev (f : ℕ → Option α) : ℕ → Option α
  | 0 => none
  | i + 1 => f i

/-- The `n` moments from `a` on are a longest stretch with the reading `x`. -/
structure IsBlock (f : ℕ → Option α) (a n : ℕ) (x : α) : Prop where
  same : ∀ k < n, f (a + k) = some x
  left : prev f a ≠ some x
  right : f (a + n) ≠ some x

section Streak

variable [DecidableEq α]

/-- The streak with one more reading, after a streak of `n` that ends with `last`. -/
def grow (last : Option α) (n : ℕ) : Option α → ℕ
  | none => 0
  | some x => if last = some x then n + 1 else 1

/-- The length of the streak before a moment. -/
def streak (f : ℕ → Option α) : ℕ → ℕ
  | 0 => 0
  | i + 1 => grow (prev f i) (streak f i) (f i)

variable {f : ℕ → Option α} {a n i : ℕ} {x : α}

@[simp] theorem grow_none (last : Option α) (n : ℕ) : grow last n none = 0 := rfl

@[simp] theorem grow_same (x : α) (n : ℕ) : grow (some x) n (some x) = n + 1 := if_pos rfl

theorem grow_of_ne {last : Option α} (h : last ≠ some x) (n : ℕ) : grow last n (some x) = 1 :=
  if_neg h

/-- A moment with the reading of the one before. -/
theorem streak_same (hprev : prev f i = some x) (h : f i = some x) :
    streak f (i + 1) = streak f i + 1 := by
  rw [streak, hprev, h, grow_same]

/-- A moment with a reading of its own. -/
theorem streak_first (hprev : prev f i ≠ some x) (h : f i = some x) : streak f (i + 1) = 1 := by
  rw [streak, h, grow_of_ne hprev]

/-- After a reading there is a streak. -/
theorem streak_pos (h : prev f i ≠ none) : 0 < streak f i := by
  cases i with
  | zero => exact absurd rfl h
  | succ i =>
      obtain ⟨x, hx⟩ := Option.ne_none_iff_exists'.1 h
      by_cases hprev : prev f i = some x
      · rw [streak_same hprev hx]
        exact Nat.succ_pos _
      · rw [streak_first hprev hx]
        exact Nat.one_pos

/-- **The streak counts the moments of a block.** -/
theorem IsBlock.streak_eq (h : IsBlock f a n x) {k : ℕ} (hk : k < n) :
    streak f (a + k + 1) = k + 1 := by
  induction k with
  | zero => exact streak_first h.left (h.same 0 hk)
  | succ k ih =>
      have hprev : prev f (a + k + 1) = some x := h.same k (by omega)
      show streak f (a + k + 1 + 1) = k + 1 + 1
      rw [streak_same hprev (h.same (k + 1) hk), ih (by omega)]

end Streak

variable {f : ℕ → Option α} {i : ℕ} {x : α}

/-- A reading goes back to where it began. -/
theorem exists_first (h : f i = some x) :
    ∃ a ≤ i, (∀ j, a ≤ j → j ≤ i → f j = some x) ∧ prev f a ≠ some x := by
  induction i with
  | zero => exact ⟨0, le_rfl, fun j _ hj => by rwa [Nat.le_zero.1 hj], by simp [prev]⟩
  | succ i ih =>
      by_cases hprev : f i = some x
      · obtain ⟨a, ha, hsame, hleft⟩ := ih hprev
        refine ⟨a, by omega, fun j haj hj => ?_, hleft⟩
        rcases Nat.lt_or_ge i j with hlast | hin
        · rwa [show j = i + 1 by omega]
        · exact hsame j haj hin
      · exact ⟨i + 1, le_rfl, fun j haj hj => by rwa [show j = i + 1 by omega], hprev⟩

/-- **Every reading is in a block**, if it does not go on for ever. -/
theorem exists_isBlock (h : f i = some x) (hends : ∃ j, i < j ∧ f j ≠ some x) :
    ∃ a k n, IsBlock f a n x ∧ k < n ∧ i = a + k := by
  classical
  obtain ⟨a, ha, hbefore, hleft⟩ := exists_first h
  obtain ⟨hlater, hother⟩ := Nat.find_spec hends
  have hafter : ∀ j, i < j → j < Nat.find hends → f j = some x := fun j hij hj => by
    by_contra hne
    exact Nat.find_min hends hj ⟨hij, hne⟩
  refine ⟨a, i - a, Nat.find hends - a, ⟨fun k hk => ?_, hleft, ?_⟩, by omega, by omega⟩
  · rcases Nat.lt_or_ge i (a + k) with hout | hin
    · exact hafter _ hout (by omega)
    · exact hbefore _ (Nat.le_add_right a k) hin
  · rwa [show a + (Nat.find hends - a) = Nat.find hends by omega]

end Machine
end Carlinkit
