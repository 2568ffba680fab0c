/-
# Times in a window

`Spread n w ts`: no interval of length `w` contains more than `n` of the times `ts`, both
ends included.  Times come with the newest first, so the rule about one more time,
`spread_cons`, counts only those that are not older than `w` by then.
-/

import Mathlib.Algebra.Order.Group.Nat
import Mathlib.Data.List.Basic

namespace Carlinkit
namespace Machine

variable {n w now : ℕ} {ts : List ℕ}

/-- How many of the times are in the interval of length `w` from `a` on. -/
def within (w a : ℕ) (ts : List ℕ) : ℕ := ts.countP fun t => a ≤ t ∧ t ≤ a + w

theorem within_cons_of_mem {a : ℕ} (h : a ≤ now ∧ now ≤ a + w) :
    within w a (now :: ts) = within w a ts + 1 := by simp [within, h]

theorem within_cons_of_notMem {a : ℕ} (h : ¬ (a ≤ now ∧ now ≤ a + w)) :
    within w a (now :: ts) = within w a ts := by
  rw [within, List.countP_cons_of_neg (by simpa using h)]
  rfl

/-- An interval of length `w` contains at most `n` of the times. -/
def Spread (n w : ℕ) (ts : List ℕ) : Prop := ∀ a, within w a ts ≤ n

/-- How many of the times are not older than `w`. -/
def recent (w now : ℕ) (ts : List ℕ) : ℕ := ts.countP (now ≤ · + w)

theorem recent_append (us : List ℕ) :
    recent w now (ts ++ us) = recent w now ts + recent w now us := List.countP_append

/-- All the times are recent. -/
theorem recent_eq_length (h : ∀ t ∈ ts, now ≤ t + w) : recent w now ts = ts.length :=
  List.countP_eq_length.2 fun t ht => decide_eq_true (h t ht)

/-- None of the times is recent. -/
theorem recent_eq_zero (h : ∀ t ∈ ts, t + w < now) : recent w now ts = 0 := by
  refine List.countP_eq_zero.2 fun t ht hrecent => ?_
  have hold := h t ht
  have hnew := of_decide_eq_true hrecent
  omega

/-- **One more time.**  The interval that ends there is the one to look at. -/
theorem spread_cons (h : ∀ t ∈ ts, t ≤ now) :
    Spread n w (now :: ts) ↔ Spread n w ts ∧ recent w now ts < n := by
  constructor
  · intro hspread
    constructor
    · intro a
      exact Nat.le_trans (List.sublist_cons_self now ts).countP_le (hspread a)
    · -- the interval of length `w` up to `now`
      have hlast := hspread (now - w)
      rw [within_cons_of_mem (by omega)] at hlast
      refine Nat.lt_of_le_of_lt (List.countP_mono_left fun t ht hrecent => ?_) hlast
      have hle := h t ht
      have hnew := of_decide_eq_true hrecent
      exact decide_eq_true (by omega)
  · rintro ⟨hspread, hrecent⟩ a
    by_cases hnow : a ≤ now ∧ now ≤ a + w
    · rw [within_cons_of_mem hnow]
      refine Nat.lt_of_le_of_lt (List.countP_mono_left fun t _ hin => ?_) hrecent
      have hin := of_decide_eq_true hin
      exact decide_eq_true (by omega)
    · rw [within_cons_of_notMem hnow]
      exact hspread a

end Machine
end Carlinkit
