/-
# Runs of an event-driven machine

A machine is a total step function `step : σ → ε → σ` on states `σ` and events
`ε`.  A system of several threads is such a machine too: its events name the
thread that moves next, and an event whose thread cannot move leaves the state
as it is, so the lists of events are exactly the interleavings.

`run step s es` is the state after the events `es`, and `Along step P s es`
says that `P` holds of every state of the run together with the event that
arrives there.  `Along step (fun s e => Q (step s e))` is then "`Q` holds of
every state reached".  Three rules carry every proof about runs:

* `Along.invariant`: what every good step preserves, every good run preserves;
* `Along.imp_of_invariant`: a condition on the steps that gives another under an
  invariant gives it along the run;
* `along_iff`: two conditions that agree on every step under an invariant which
  good steps preserve agree along every run, in both directions
  (`along_iff_of_invariant`, `along_step_iff`).

`run_done` is the rule for a thread that comes to its end.  `observed` and `watched` put
an observer beside a machine, which keeps what a condition has to know of the past, and
`tally` counts along a run.
-/

import Mathlib.Algebra.Ring.Nat
import Mathlib.Data.List.Basic

namespace Carlinkit
namespace Machine

variable {σ ε : Type*} (step : σ → ε → σ)

/-- The state after the events `es`, in order. -/
def run (s : σ) (es : List ε) : σ := es.foldl step s

@[simp] theorem run_nil (s : σ) : run step s [] = s := rfl

@[simp] theorem run_cons (s : σ) (e : ε) (es : List ε) :
    run step s (e :: es) = run step (step s e) es := rfl

/-- The run of a concatenation. -/
theorem run_append (s : σ) (es fs : List ε) :
    run step s (es ++ fs) = run step (run step s es) fs := List.foldl_append ..

/-- The run of the events that `f` names. -/
theorem run_map {α : Type*} (f : α → ε) (s : σ) (xs : List α) :
    run step s (xs.map f) = run (fun s x => step s (f x)) s xs := List.foldl_map

/-- `P` holds of every state of the run and of the event that arrives there. -/
def Along (P : σ → ε → Prop) : σ → List ε → Prop
  | _, [] => True
  | s, e :: es => P s e ∧ Along P (step s e) es

instance Along.decidable {P : σ → ε → Prop} [∀ s e, Decidable (P s e)] :
    ∀ s es, Decidable (Along step P s es)
  | _, [] => .isTrue trivial
  | s, e :: es =>
      have := Along.decidable (P := P) (step s e) es
      inferInstanceAs (Decidable (P s e ∧ Along step P (step s e) es))

variable {step} {P Q : σ → ε → Prop}

@[simp] theorem along_nil (s : σ) : Along step P s [] := trivial

@[simp] theorem along_cons (s : σ) (e : ε) (es : List ε) :
    Along step P s (e :: es) ↔ P s e ∧ Along step P (step s e) es := Iff.rfl

/-- A condition holds along a concatenation when it holds along both parts. -/
theorem along_append (s : σ) (es fs : List ε) :
    Along step P s (es ++ fs) ↔ Along step P s es ∧ Along step P (run step s es) fs := by
  induction es generalizing s with
  | nil => simp
  | cons e es ih => simp [ih, and_assoc]

/-- Two conditions that hold along a run hold along it together. -/
theorem Along.and {s : σ} {es : List ε} (hP : Along step P s es) (hQ : Along step Q s es) :
    Along step (fun s e => P s e ∧ Q s e) s es := by
  induction es generalizing s with
  | nil => trivial
  | cons e es ih => exact ⟨⟨hP.1, hQ.1⟩, ih hP.2 hQ.2⟩

/-- A weaker condition holds along the run as well. -/
theorem Along.mono (hPQ : ∀ s e, P s e → Q s e) {s : σ} {es : List ε} (h : Along step P s es) :
    Along step Q s es := by
  induction es generalizing s with
  | nil => trivial
  | cons e es ih => exact ⟨hPQ s e h.1, ih h.2⟩

/-- **The invariant rule.**  What every step that meets `P` preserves holds at
the end of every run whose steps all meet `P`. -/
theorem Along.invariant {I : σ → Prop} (hI : ∀ s e, I s → P s e → I (step s e))
    {s : σ} {es : List ε} (h : Along step P s es) (h₀ : I s) : I (run step s es) := by
  induction es generalizing s with
  | nil => exact h₀
  | cons e es ih => exact ih h.2 (hI s e h₀ h.1)

/-- What every step preserves, with no condition, every run preserves. -/
theorem run_invariant {I : σ → Prop} (hI : ∀ s e, I s → I (step s e)) {s : σ}
    (h₀ : I s) (es : List ε) : I (run step s es) := by
  induction es generalizing s with
  | nil => exact h₀
  | cons e es ih => exact ih (hI s e h₀)

/-- **The measure rule.**  Where each step under an invariant lowers the measure `m` as
long as `D` fails, and `D` stays, every run of enough steps ends in `D`. -/
theorem run_done [Nonempty ε] {I D : σ → Prop} {m : σ → ℕ}
    (hI : ∀ s e, I s → ¬ D s → I (step s e) ∧ m (step s e) < m s)
    (hstay : ∀ s e, D s → D (step s e)) {s : σ} (h₀ : I s) {es : List ε}
    (hlen : m s ≤ es.length) : D (run step s es) := by
  induction es generalizing s with
  | nil =>
      by_contra hnot
      obtain ⟨e⟩ := ‹Nonempty ε›
      exact Nat.not_lt_zero _ (Nat.lt_of_lt_of_le (hI s e h₀ hnot).2 hlen)
  | cons e es ih =>
      by_cases hdone : D s
      · exact run_invariant hstay (hstay s e hdone) es
      · obtain ⟨hinv, hless⟩ := hI s e h₀ hdone
        exact ih hinv (Nat.le_of_lt_succ (Nat.lt_of_lt_of_le hless hlen))

/-- Under an invariant of the good steps, a condition that follows from `P` step
by step holds along every good run. -/
theorem Along.imp_of_invariant {I : σ → Prop} (hI : ∀ s e, I s → P s e → I (step s e))
    (hQ : ∀ s e, I s → P s e → Q s e) {s : σ} {es : List ε} (h : Along step P s es)
    (h₀ : I s) : Along step Q s es := by
  induction es generalizing s with
  | nil => trivial
  | cons e es ih => exact ⟨hQ s e h₀ h.1, ih h.2 (hI s e h₀ h.1)⟩

/-- What follows from an invariant of every step holds along every run. -/
theorem along_of_invariant {I : σ → Prop} (hI : ∀ s e, I s → I (step s e))
    (hQ : ∀ s e, I s → Q s e) {s : σ} (h₀ : I s) (es : List ε) : Along step Q s es := by
  induction es generalizing s with
  | nil => trivial
  | cons e es ih => exact ⟨hQ s e h₀, ih (hI s e h₀)⟩

/-- **Two conditions that agree step by step agree along runs.**  The invariant
has to survive only the steps that meet the conditions: the run is judged up to
the first step that breaks them.  `A` is what the run is assumed to meet anyway. -/
theorem along_iff {A : σ → ε → Prop} {I : σ → Prop}
    (hPQ : ∀ s e, I s → A s e → (P s e ↔ Q s e))
    (hI : ∀ s e, I s → A s e → Q s e → I (step s e)) {s : σ} (h₀ : I s) {es : List ε}
    (hA : Along step A s es) : Along step P s es ↔ Along step Q s es := by
  induction es generalizing s with
  | nil => simp
  | cons e es ih =>
      obtain ⟨hA, hrest⟩ := hA
      simp only [along_cons, hPQ s e h₀ hA]
      exact and_congr_right fun hQ => ih (hI s e h₀ hA hQ) hrest

/-- What holds of every state and event holds along every run. -/
theorem along_of_forall (h : ∀ s e, P s e) (s : σ) (es : List ε) : Along step P s es := by
  induction es generalizing s with
  | nil => trivial
  | cons e es ih => exact ⟨h s e, ih _⟩

/-- The same where every run is judged, with nothing to assume. -/
theorem along_iff_of_invariant {I : σ → Prop} (hPQ : ∀ s e, I s → (P s e ↔ Q s e))
    (hI : ∀ s e, I s → Q s e → I (step s e)) {s : σ} (h₀ : I s) (es : List ε) :
    Along step P s es ↔ Along step Q s es :=
  along_iff (A := fun _ _ => True) (fun s e h _ => hPQ s e h) (fun s e h _ => hI s e h) h₀
    (along_of_forall (fun _ _ => trivial) s es)

/-- **What `Q` is to an invariant.**  Where each step keeps `I` exactly when it meets `Q`, a
run stays in `I` exactly when all its steps meet `Q`. -/
theorem along_step_iff {I : σ → Prop} (hI : ∀ s e, I s → (I (step s e) ↔ Q s e)) {s : σ}
    (h₀ : I s) (es : List ε) :
    Along step (fun s e => I (step s e)) s es ↔ Along step Q s es :=
  along_iff_of_invariant hI (fun s e h hq => (hI s e h).2 hq) h₀ es

/-- What holds of every event of the list holds along the run. -/
theorem along_of_forall_mem {p : ε → Prop} {es : List ε} (h : ∀ e ∈ es, p e) (s : σ) :
    Along step (fun _ e => p e) s es := by
  induction es generalizing s with
  | nil => trivial
  | cons e es ih =>
      exact ⟨h e (List.mem_cons_self ..), ih (fun e' he' => h e' (List.mem_cons_of_mem _ he')) _⟩

/-! ### Observers -/

/-- A machine with an observer, which sees the events alone. -/
def observed {τ : Type*} (step : σ → ε → σ) (see : τ → ε → τ) (x : σ × τ) (e : ε) : σ × τ :=
  (step x.1 e, see x.2 e)

/-- A machine with an observer, which sees the state before each event as well. -/
def watched {τ : Type*} (step : σ → ε → σ) (see : σ → τ → ε → τ) (x : σ × τ) (e : ε) : σ × τ :=
  (step x.1 e, see x.1 x.2 e)

/-- The machine does not notice who watches it. -/
theorem fst_run_watched {τ : Type*} (see : σ → τ → ε → τ) (x : σ × τ) (es : List ε) :
    (run (watched step see) x es).1 = run step x.1 es := by
  induction es generalizing x with
  | nil => rfl
  | cons e es ih => exact ih (watched step see x e)

/-- What a condition says of the machine alone does not depend on the observer. -/
theorem along_watched {τ : Type*} (see : σ → τ → ε → τ) (x : σ × τ) (es : List ε) :
    Along (watched step see) (fun x e => P x.1 e) x es ↔ Along step P x.1 es := by
  induction es generalizing x with
  | nil => exact Iff.rfl
  | cons e es ih => exact and_congr_right fun _ => ih (watched step see x e)

/-! ### Counting -/

section Tally

variable (step) (f : σ → ε → ℕ)

/-- What the steps of a run count, added up. -/
def tally : σ → List ε → ℕ
  | _, [] => 0
  | s, e :: es => f s e + tally (step s e) es

variable {step f}

/-- **The counting rule.**  What every step keeps of the state and the count so far, every
run keeps. -/
theorem tally_invariant {J : σ → ℕ → Prop} (hJ : ∀ s e n, J s n → J (step s e) (n + f s e))
    {s : σ} {n : ℕ} (h₀ : J s n) (es : List ε) : J (run step s es) (n + tally step f s es) := by
  induction es generalizing s n with
  | nil => exact h₀
  | cons e es ih =>
      rw [tally, ← Nat.add_assoc]
      exact ih (hJ s e n h₀)

/-- Nothing is counted exactly when no step counts anything. -/
theorem tally_eq_zero_iff (s : σ) (es : List ε) :
    tally step f s es = 0 ↔ Along step (fun s e => f s e = 0) s es := by
  induction es generalizing s with
  | nil => exact iff_of_true rfl trivial
  | cons e es ih => rw [tally, Nat.add_eq_zero_iff, ih, along_cons]

end Tally

end Machine
end Carlinkit
