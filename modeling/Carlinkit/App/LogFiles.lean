/-
# The names of the log files

`CarlinkitFileLog` finds its files by name: `LOG_FILES` says which ones they are, and
`BY_NAME` puts the oldest first.  Java compares strings by their UTF-16 code units;
`codeUnits_injective` says that two names which compare equal are equal.
-/

import Mathlib.Data.List.Lex
import Mathlib.Algebra.Ring.Nat

namespace Carlinkit
namespace App

/-- `LOG_FILES`. -/
def isLogFile (name : String) : Bool :=
  "carlinkit-".toList.isPrefixOf name.toList && ".log".toList.isSuffixOf name.toList

/-- The name of the log file of a date. -/
def logName (date : String) : String := "carlinkit-" ++ date ++ ".log"

theorem isLogFile_logName (date : String) : isLogFile (logName date) = true := by
  simp only [isLogFile, logName, String.toList_append, List.append_assoc, Bool.and_eq_true,
    List.isPrefixOf_iff_prefix, List.isSuffixOf_iff_suffix]
  refine ⟨List.prefix_append .., ?_⟩
  rw [← List.append_assoc]
  exact List.suffix_append ..

/-- The name of the file that a copy is written to. -/
def partName (name : String) : String := name ++ ".part"

/-- A half written file has no name of a log file. -/
theorem isLogFile_partName (name : String) : isLogFile (partName name) = false := by
  simp only [isLogFile, partName, String.toList_append, Bool.and_eq_false_iff]
  refine .inr (Bool.eq_false_iff.2 fun hsuffix => ?_)
  have hlog := List.isSuffixOf_iff_suffix.1 hsuffix
  have hpart : ['p', 'a', 'r', 't'] <:+ name.toList ++ ".part".toList := by
    exact ⟨name.toList ++ ['.'], by simp⟩
  have heq := (List.suffix_of_suffix_length_le hlog hpart (by decide)).eq_of_length (by decide)
  exact absurd heq (by decide)

/-! ## The order -/

/-- The code units of a character. -/
def charUnits (c : Char) : List ℕ :=
  if c.toNat < 0x10000 then [c.toNat]
  else [0xD800 + (c.toNat - 0x10000) / 0x400, 0xDC00 + (c.toNat - 0x10000) % 0x400]

/-- The code units of a string. -/
def codeUnits (s : String) : List ℕ := s.toList.flatMap charUnits

/-- `BY_NAME`. -/
def byName (a b : String) : Bool := codeUnits a ≤ codeUnits b

/-- No character is a surrogate. -/
theorem toNat_valid (c : Char) :
    c.toNat < 0xD800 ∨ 0xDFFF < c.toNat ∧ c.toNat < 0x110000 := c.valid

/-- The first character can be read off. -/
theorem charUnits_append_inj {c d : Char} {us vs : List ℕ}
    (h : charUnits c ++ us = charUnits d ++ vs) : c = d ∧ us = vs := by
  have hc := toNat_valid c
  have hd := toNat_valid d
  unfold charUnits at h
  split_ifs at h with hsmall hsmall' hsmall'
  · obtain ⟨hhead, htail⟩ := List.cons.inj h
    exact ⟨Char.toNat_inj.1 hhead, htail⟩
  · have hhead := (List.cons.inj h).1
    omega
  · have hhead := (List.cons.inj h).1
    omega
  · obtain ⟨hhead, htail⟩ := List.cons.inj h
    obtain ⟨hlow, hrest⟩ := List.cons.inj htail
    exact ⟨Char.toNat_inj.1 (by omega), hrest⟩

theorem charUnits_ne_nil (c : Char) : charUnits c ≠ [] := by
  unfold charUnits
  split_ifs <;> simp

theorem codeUnits_injective : Function.Injective codeUnits := by
  intro a b h
  refine String.toList_injective ?_
  unfold codeUnits at h
  generalize a.toList = cs at h ⊢
  generalize b.toList = ds at h ⊢
  induction cs generalizing ds with
  | nil =>
      cases ds with
      | nil => rfl
      | cons d ds => simp [charUnits_ne_nil] at h
  | cons c cs ih =>
      cases ds with
      | nil => simp [charUnits_ne_nil] at h
      | cons d ds =>
          obtain ⟨rfl, hrest⟩ := charUnits_append_inj h
          rw [ih ds hrest]

theorem byName_trans (a b c : String) (hab : byName a b = true) (hbc : byName b c = true) :
    byName a c = true :=
  decide_eq_true (le_trans (of_decide_eq_true hab) (of_decide_eq_true hbc))

theorem byName_total (a b : String) : (byName a b || byName b a) = true := by
  rw [Bool.or_eq_true]
  exact (le_total (codeUnits a) (codeUnits b)).imp decide_eq_true decide_eq_true

end App
end Carlinkit
