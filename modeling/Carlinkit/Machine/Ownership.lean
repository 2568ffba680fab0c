/-
# Things with one owner

A program that hands things on (buffers, connections, blocks of memory) keeps a list of
them at each of its places: a pool, a queue, the hands of a thread.  `Parted f n` says of
`f : κ → List ℕ` that the things `0, .., n - 1` are spread over the places `κ`, each at
one of them and there once.  A thing that the program forgets is at a place of its own,
so nothing is ever duplicated or simply missing.

Two rules carry it along a run: a thing is made (`Parted.make`), or moves from one place to
another (`Parted.move`).  Where the places are shelves, which the threads share, and the
hands of the threads, a thread makes a thing, takes one from a shelf or puts one on it
(`Parted.fresh`, `Parted.take`, `Parted.put`).
-/

import Mathlib.Data.List.Nodup
import Mathlib.Logic.Function.Basic

namespace Carlinkit
namespace Machine

variable {κ : Type*} {f g : κ → List ℕ} {n : ℕ}

/-- Each of the things below `n` is at exactly one place, and there once. -/
structure Parted (f : κ → List ℕ) (n : ℕ) : Prop where
  nodup : ∀ k, (f k).Nodup
  apart : ∀ {a k l}, a ∈ f k → a ∈ f l → k = l
  mem : ∀ {a}, a < n ↔ ∃ k, a ∈ f k

/-- Before anything is made. -/
theorem parted_nil (h : ∀ k, f k = []) : Parted f 0 where
  nodup k := by simp [h k]
  apart {_ k _} ha := by simp [h k] at ha
  mem := by simp [h]

namespace Parted

/-- The one place of a thing. -/
theorem existsUnique (h : Parted f n) {a : ℕ} (ha : a < n) : ∃! k, a ∈ f k := by
  obtain ⟨k, hk⟩ := h.mem.1 ha
  exact ⟨k, hk, fun l hl => h.apart hl hk⟩

theorem lt (h : Parted f n) {a : ℕ} {k : κ} (ha : a ∈ f k) : a < n := h.mem.2 ⟨k, ha⟩

/-- A thing is made at place `l`. -/
theorem make (h : Parted f n) {l : κ} (hl : (g l).Perm (n :: f l))
    (hrest : ∀ m, m ≠ l → g m = f m) : Parted g (n + 1) := by
  have hfresh : ∀ m, n ∉ f m := fun m hm => absurd (h.lt hm) (Nat.lt_irrefl n)
  have hmem : ∀ m a, a ∈ g m ↔ a ∈ f m ∨ a = n ∧ m = l := by
    intro m a
    by_cases hm : m = l
    · subst hm
      rw [hl.mem_iff, List.mem_cons]
      tauto
    · rw [hrest m hm]
      tauto
  refine ⟨fun m => ?_, fun {a k m} ha hb => ?_, fun {a} => ?_⟩
  · by_cases hm : m = l
    · subst hm
      exact hl.nodup_iff.2 (List.nodup_cons.2 ⟨hfresh m, h.nodup m⟩)
    · rw [hrest m hm]
      exact h.nodup m
  · rcases (hmem k a).1 ha with hk | ⟨rfl, rfl⟩
    · rcases (hmem m a).1 hb with hm | ⟨rfl, rfl⟩
      · exact h.apart hk hm
      · exact absurd hk (hfresh k)
    · rcases (hmem m a).1 hb with hm | ⟨-, rfl⟩
      · exact absurd hm (hfresh m)
      · rfl
  · simp only [hmem, exists_or, exists_and_left, exists_eq, and_true, ← h.mem]
    omega

/-- A thing moves from place `k` to place `l`. -/
theorem move (h : Parted f n) {k l : κ} {a : ℕ} (hkl : k ≠ l) (hk : (f k).Perm (a :: g k))
    (hl : (g l).Perm (a :: f l)) (hrest : ∀ m, m ≠ k → m ≠ l → g m = f m) : Parted g n := by
  have hak : a ∈ f k := hk.mem_iff.2 (List.mem_cons_self ..)
  have hnot : a ∉ g k := (List.nodup_cons.1 (hk.nodup_iff.1 (h.nodup k))).1
  -- the thing is at its new place, and every other one where it was
  have hnew : ∀ m, a ∈ g m ↔ m = l := by
    intro m
    by_cases hm : m = l
    · subst hm
      simp [hl.mem_iff]
    · refine iff_of_false (fun ham => ?_) hm
      by_cases hmk : m = k
      · exact hnot (hmk ▸ ham)
      · exact hmk (h.apart (hrest m hmk hm ▸ ham) hak)
  have hold : ∀ m b, b ≠ a → (b ∈ g m ↔ b ∈ f m) := by
    intro m b hb
    by_cases hm : m = l
    · subst hm
      simp [hl.mem_iff, hb]
    · by_cases hmk : m = k
      · subst hmk
        simp [hk.mem_iff, hb]
      · rw [hrest m hmk hm]
  refine ⟨fun m => ?_, fun {b m m'} hm hm' => ?_, fun {b} => ?_⟩
  · by_cases hm : m = l
    · subst hm
      exact hl.nodup_iff.2 (List.nodup_cons.2 ⟨fun ham => hkl (h.apart hak ham), h.nodup m⟩)
    · by_cases hmk : m = k
      · subst hmk
        exact (List.nodup_cons.1 (hk.nodup_iff.1 (h.nodup m))).2
      · rw [hrest m hmk hm]
        exact h.nodup m
  · by_cases hb : b = a
    · subst hb
      rw [(hnew m).1 hm, (hnew m').1 hm']
    · exact h.apart ((hold m b hb).1 hm) ((hold m' b hb).1 hm')
  · by_cases hb : b = a
    · subst hb
      exact iff_of_true (h.lt hak) ⟨l, (hnew l).2 rfl⟩
    · rw [h.mem]
      exact exists_congr fun m => (hold m b hb).symm

end Parted

/-! ### Shelves and hands -/

section Hands

variable {σ ι : Type*} [DecidableEq ι] {shelves shelves' : σ → List ℕ} {hands : ι → List ℕ}
  {th : ι} {hand : List ℕ}

namespace Parted

/-- A thread makes a thing. -/
theorem fresh (h : Parted (Sum.elim shelves hands) n) (hhand : hand.Perm (n :: hands th)) :
    Parted (Sum.elim shelves (Function.update hands th hand)) (n + 1) := by
  refine h.make (l := .inr th) ?_ fun m hm => ?_
  · simpa using hhand
  · cases m with
    | inl s => rfl
    | inr th' => exact Function.update_of_ne (fun heq => hm (congrArg _ heq)) ..

/-- A thread takes a thing from a shelf. -/
theorem take (h : Parted (Sum.elim shelves hands) n) {s : σ} {a : ℕ}
    (hs : (shelves s).Perm (a :: shelves' s)) (hrest : ∀ m, m ≠ s → shelves' m = shelves m)
    (hhand : hand.Perm (a :: hands th)) :
    Parted (Sum.elim shelves' (Function.update hands th hand)) n := by
  refine h.move (k := .inl s) (l := .inr th) (a := a) nofun hs ?_ fun m hk hl => ?_
  · simpa using hhand
  · cases m with
    | inl m => exact hrest m fun heq => hk (congrArg _ heq)
    | inr th' => exact Function.update_of_ne (fun heq => hl (congrArg _ heq)) ..

/-- A thread puts a thing on a shelf. -/
theorem put (h : Parted (Sum.elim shelves hands) n) {s : σ} {a : ℕ}
    (hhand : (hands th).Perm (a :: hand)) (hs : (shelves' s).Perm (a :: shelves s))
    (hrest : ∀ m, m ≠ s → shelves' m = shelves m) :
    Parted (Sum.elim shelves' (Function.update hands th hand)) n := by
  refine h.move (k := .inr th) (l := .inl s) (a := a) nofun ?_ hs fun m hk hl => ?_
  · simpa using hhand
  · cases m with
    | inl m => exact hrest m fun heq => hl (congrArg _ heq)
    | inr th' => exact Function.update_of_ne (fun heq => hk (congrArg _ heq)) ..

end Parted

end Hands

end Machine
end Carlinkit
