/-
# A meter that is read now and then

A meter adds up amounts, and a reading says what has come together since the last one and
sets it back.  The amounts are elements of a commutative monoid: numbers that are added,
maxima (`Peak`), or several of them side by side.  A reading may also stay silent; then
everything stays for the next one.

However amounts and readings alternate, the readings cut the amounts into blocks, and each
reading is the sum of its block (`blocks_run`): no amount is in two readings, and what is in
none is still in the meter.
-/

import Carlinkit.Machine.Run
import Mathlib.Algebra.BigOperators.Group.List.Basic

namespace Carlinkit
namespace Machine

/-- A number of which the largest is kept. -/
structure Peak where
  val : ℕ
deriving DecidableEq, Repr

namespace Peak

@[ext] theorem ext {a b : Peak} (h : a.val = b.val) : a = b := by
  cases a
  cases b
  exact congrArg mk h

instance : Zero Peak := ⟨⟨0⟩⟩

instance : Add Peak := ⟨fun a b => ⟨max a.val b.val⟩⟩

instance : AddCommMonoid Peak where
  add_assoc a b c := Peak.ext (Nat.max_assoc ..)
  zero_add a := Peak.ext (Nat.zero_max _)
  add_zero a := Peak.ext (Nat.max_zero _)
  add_comm a b := Peak.ext (Nat.max_comm ..)
  nsmul := nsmulRec

@[simp] theorem val_add (a b : Peak) : (a + b).val = max a.val b.val := rfl

@[simp] theorem val_zero : (0 : Peak).val = 0 := rfl

end Peak

/-- What has come together since the last reading, and the readings so far. -/
structure Meter (M : Type*) where
  pending : M
  readings : List M
deriving DecidableEq, Repr

namespace Meter

variable {M : Type*} [AddCommMonoid M]

/-- Nothing was added or read yet. -/
def new : Meter M := ⟨0, []⟩

/-- What happens to a meter. -/
inductive Op (M : Type*)
  | add (a : M)
  /-- a reading that says something -/
  | read
  /-- a reading that stays silent -/
  | silent

/-- One of these. -/
def step (x : Meter M) : Op M → Meter M
  | .add a => { x with pending := x.pending + a }
  | .read => ⟨0, x.readings ++ [x.pending]⟩
  | .silent => x

/-- The amount that is added. -/
def Op.amount : Op M → Option M
  | .add a => some a
  | _ => none

/-- The amounts that were added, in order. -/
def amounts (ops : List (Op M)) : List M := ops.filterMap Op.amount

/-- The readings cut these amounts into blocks; the last block is still in the meter. -/
def Cuts (x : Meter M) (as : List M) : Prop :=
  ∃ (blocks : List (List M)) (rest : List M), as = blocks.flatten ++ rest ∧
    x.readings = blocks.map List.sum ∧ x.pending = rest.sum

variable {x : Meter M} {as : List M}

theorem cuts_new : (new : Meter M).Cuts [] := ⟨[], [], rfl, rfl, rfl⟩

theorem Cuts.step (h : x.Cuts as) (op : Op M) : (x.step op).Cuts (as ++ op.amount.toList) := by
  obtain ⟨blocks, rest, rfl, hreadings, hpending⟩ := h
  cases op with
  | add a =>
      refine ⟨blocks, rest ++ [a], ?_, hreadings, ?_⟩
      · simp [Op.amount]
      · simp [Meter.step, hpending]
  | read =>
      refine ⟨blocks ++ [rest], [], ?_, ?_, rfl⟩
      · simp [Op.amount]
      · simp [Meter.step, hreadings, hpending]
  | silent => exact ⟨blocks, rest, by simp [Op.amount], hreadings, hpending⟩

theorem Cuts.add (h : x.Cuts as) (a : M) : (x.step (.add a)).Cuts (as ++ [a]) := h.step (.add a)

theorem Cuts.read (h : x.Cuts as) : (x.step .read).Cuts as := by
  simpa [Op.amount] using h.step .read

theorem Cuts.run (h : x.Cuts as) (ops : List (Op M)) :
    (run Meter.step x ops).Cuts (as ++ amounts ops) := by
  induction ops generalizing x as with
  | nil => simpa [amounts] using h
  | cons op ops ih =>
      have hrest := ih (h.step op)
      rw [List.append_assoc] at hrest
      rw [run_cons]
      cases hop : op.amount <;> simpa [amounts, hop] using hrest

/-- **Every amount is in one reading or still in the meter.** -/
theorem blocks_run (ops : List (Op M)) : (run step new ops).Cuts (amounts ops) :=
  Cuts.run cuts_new ops

end Meter
end Machine
end Carlinkit
