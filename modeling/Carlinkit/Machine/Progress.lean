/-
# Progress of one thread among others

A run of several threads gets a thing done when one of them moves often enough, whatever the
others do in between.  `P` says which events are moves of that thread, and the measure `m`
how many of them it needs at most: each of its moves lowers it, and no other event raises
it.  `Along.done` then needs more moves than the measure says, anywhere in the run.
-/

import Carlinkit.Machine.Run
import Mathlib.Data.List.Count

namespace Carlinkit
namespace Machine

variable {σ ε : Type*} {step : σ → ε → σ} {A : σ → ε → Prop} {I D : σ → Prop} {m : σ → ℕ}
  {P : ε → Prop} [DecidablePred P]

/-- **Enough moves get it done.** -/
theorem Along.done (hI : ∀ s e, I s → A s e → I (step s e))
    (hstay : ∀ s e, I s → A s e → D s → D (step s e))
    (hkeep : ∀ s e, I s → A s e → ¬ D s → ¬ P e → D (step s e) ∨ m (step s e) ≤ m s)
    (hmove : ∀ s e, I s → A s e → ¬ D s → P e → D (step s e) ∨ m (step s e) < m s)
    {s : σ} {es : List ε} (h : Along step A s es) (h₀ : I s)
    (hcount : D s ∨ m s < es.countP P) : D (run step s es) := by
  induction es generalizing s with
  | nil =>
      rcases hcount with hdone | hlt
      · exact hdone
      · exact absurd hlt (by simp)
  | cons e es ih =>
      obtain ⟨hA, hrest⟩ := h
      refine ih hrest (hI s e h₀ hA) ?_
      by_cases hdone : D s
      · exact .inl (hstay s e h₀ hA hdone)
      · have hlt : m s < (e :: es).countP P := hcount.resolve_left hdone
        rw [List.countP_cons] at hlt
        by_cases hP : P e
        · rw [if_pos (by simpa using hP)] at hlt
          exact (hmove s e h₀ hA hdone hP).imp_right fun hm => by omega
        · rw [if_neg (by simpa using hP)] at hlt
          exact (hkeep s e h₀ hA hdone hP).imp_right fun hm => by omega

end Machine
end Carlinkit
