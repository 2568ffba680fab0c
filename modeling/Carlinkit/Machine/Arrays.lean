/-
# Arrays that others may write

Arrays are named by the order in which they were made.  Some of them are `known` outside:
the outside may write any of these at any time, and none of the others.  An array that is not
known outside is private (`Heap.Private`), and a component that lets out copies only may count
on what its private arrays hold: no operation below changes `read` of a private array, and it
stays private.
-/

import Mathlib.Data.List.Basic

namespace Carlinkit
namespace Machine

/-- Arrays of `β`, and which of them are known outside. -/
structure Heap (β : Type*) where
  arrays : List (List β)
  known : List ℕ
  known_lt : ∀ a ∈ known, a < arrays.length

namespace Heap

variable {β : Type*}

/-- No array yet. -/
def empty : Heap β := ⟨[], [], fun _ ha => absurd ha List.not_mem_nil⟩

/-- The name of the next array. -/
def next (h : Heap β) : ℕ := h.arrays.length

/-- What an array holds. -/
def read (h : Heap β) (a : ℕ) : List β := h.arrays.getD a []

/-- A new array that stays inside. -/
def keep (h : Heap β) (xs : List β) : Heap β where
  arrays := h.arrays ++ [xs]
  known := h.known
  known_lt a ha := by
    have := h.known_lt a ha
    rw [List.length_append]
    omega

/-- A new array that the outside has. -/
def publish (h : Heap β) (xs : List β) : Heap β where
  arrays := h.arrays ++ [xs]
  known := h.next :: h.known
  known_lt a ha := by
    rw [List.length_append, List.length_singleton]
    rcases List.mem_cons.1 ha with rfl | ha
    · exact Nat.lt_succ_self _
    · exact Nat.lt_succ_of_lt (h.known_lt a ha)

/-- The outside writes an element of an array that it has. -/
def write (h : Heap β) (a i : ℕ) (x : β) : Heap β where
  arrays := if a ∈ h.known then h.arrays.set a ((h.read a).set i x) else h.arrays
  known := h.known
  known_lt b hb := by
    split_ifs
    · rw [List.length_set]
      exact h.known_lt b hb
    · exact h.known_lt b hb

/-- An array that the outside does not have. -/
structure Private (h : Heap β) (a : ℕ) : Prop where
  lt : a < h.next
  unknown : a ∉ h.known

variable {h : Heap β} {a : ℕ}

/-! ### What the operations leave alone -/

/-- The new array holds what it was made with. -/
theorem read_concat_self (xss : List (List β)) (xs : List β) :
    (xss ++ [xs]).getD xss.length [] = xs := by
  simp

@[simp] theorem read_keep_next (h : Heap β) (xs : List β) : (h.keep xs).read h.next = xs :=
  read_concat_self h.arrays xs

@[simp] theorem read_publish_next (h : Heap β) (xs : List β) :
    (h.publish xs).read h.next = xs :=
  read_concat_self h.arrays xs

theorem read_concat_of_lt {xss : List (List β)} (ha : a < xss.length) (xs : List β) :
    (xss ++ [xs]).getD a [] = xss.getD a [] := by
  simp only [List.getD_eq_getElem?_getD, List.getElem?_append_left ha]

theorem read_publish (ha : a < h.next) (xs : List β) : (h.publish xs).read a = h.read a :=
  read_concat_of_lt ha xs

/-- **Nobody writes a private array.** -/
theorem Private.read_write (ha : h.Private a) (b i : ℕ) (x : β) :
    (h.write b i x).read a = h.read a := by
  simp only [read, write]
  split_ifs with hb
  · have hne : b ≠ a := fun heq => ha.unknown (heq ▸ hb)
    simp only [List.getD_eq_getElem?_getD, List.getElem?_set_ne hne]
  · rfl

/-- An array made to stay inside is private. -/
theorem private_keep_next (h : Heap β) (xs : List β) : (h.keep xs).Private h.next := by
  constructor
  · show h.arrays.length < (h.arrays ++ [xs]).length
    rw [List.length_append]
    exact Nat.lt_succ_self _
  · intro hmem
    exact Nat.lt_irrefl _ (h.known_lt _ hmem)

theorem Private.publish (ha : h.Private a) (xs : List β) : (h.publish xs).Private a := by
  constructor
  · show a < (h.arrays ++ [xs]).length
    rw [List.length_append]
    exact Nat.lt_succ_of_lt ha.lt
  · intro hmem
    rcases List.mem_cons.1 hmem with heq | hmem
    · exact absurd (heq ▸ ha.lt) (Nat.lt_irrefl _)
    · exact ha.unknown hmem

theorem Private.write (ha : h.Private a) (b i : ℕ) (x : β) : (h.write b i x).Private a := by
  constructor
  · have := ha.lt
    simp only [next, Heap.write]
    split_ifs
    · rwa [List.length_set]
    · exact this
  · exact ha.unknown

end Heap

end Machine
end Carlinkit
