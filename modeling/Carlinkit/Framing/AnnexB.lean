/-
# Annex-B byte streams

NAL units one after another, each behind a start code of three or four bytes.  A
unit has a first byte, its last byte is not `00`, and neither `00 00 00` nor
`00 00 01` occurs in it, so no start code begins inside a unit or one byte too
early.  Hence a stream is cut into units in one way only (`encode_injective`), and
`Carries bs n`, that `n` is one of the units of `bs`, can be read off any way to
write `bs` (`carries_encode`).

Bytes that are no such stream still have a first start code with a byte behind it, or
none (`FirstAt`); `FirstType` is the type in that byte.
-/

import Carlinkit.Framing.Words
import Mathlib.Data.List.Infix

namespace Carlinkit
namespace Framing
namespace AnnexB

/-- The start codes. -/
inductive StartCode
  | three | four
deriving DecidableEq, Repr

/-- `00 00 01` or `00 00 00 01`. -/
def StartCode.bytes : StartCode → List Byte
  | .three => [0, 0, 1]
  | .four => [0, 0, 0, 1]

/-- A NAL unit. -/
structure NalUnit where
  bytes : List Byte
  ne_nil : bytes ≠ []
  last_ne : bytes.getLast? ≠ some 0
  no_zeros : ¬ [0, 0, 0] <:+: bytes
  no_start : ¬ [0, 0, 1] <:+: bytes
deriving DecidableEq

/-- `nal_unit_type`, the low five bits of the first byte. -/
def NalUnit.unitType (n : NalUnit) : ℕ := (byteAt n.bytes 0 &&& 0x1F).toNat

/-- The stream of some units. -/
def encode (us : List (StartCode × NalUnit)) : List Byte :=
  us.flatMap fun u => u.1.bytes ++ u.2.bytes

/-- The stream is a concatenation of units, and this is one of them. -/
def Carries (bs : List Byte) (n : NalUnit) : Prop := ∃ us, encode us = bs ∧ n ∈ us.map Prod.snd

variable {n m : NalUnit} {us vs : List (StartCode × NalUnit)} {w rest : List Byte}

@[simp] theorem encode_nil : encode [] = [] := rfl

theorem encode_cons (u : StartCode × NalUnit) :
    encode (u :: us) = u.1.bytes ++ (u.2.bytes ++ encode us) := by
  rw [encode, List.flatMap_cons, List.append_assoc]
  rfl

/-- A stream with a unit in it begins with two zeros. -/
theorem exists_encode_cons (u : StartCode × NalUnit) (us : List (StartCode × NalUnit)) :
    ∃ x t, encode (u :: us) = 0 :: 0 :: x :: t ∧ (x = 0 ∨ x = 1) := by
  rw [encode_cons]
  cases u.1 with
  | three => exact ⟨1, _, rfl, .inr rfl⟩
  | four => exact ⟨0, _, rfl, .inl rfl⟩

theorem encode_cons_ne_nil (u : StartCode × NalUnit) : encode (u :: us) ≠ [] := by
  obtain ⟨x, t, h, -⟩ := exists_encode_cons u us
  rw [h]
  exact List.cons_ne_nil _ _

/-- **A start code does not begin inside a unit.**  What a unit has more than
another one is not the beginning of a stream. -/
theorem eq_nil_of_append (hm : m.bytes = n.bytes ++ w) (hus : encode us = w ++ rest) : w = [] := by
  cases us with
  | nil => exact (List.append_eq_nil_iff.1 hus.symm).1
  | cons u us =>
      obtain ⟨x, t, hx, hcode⟩ := exists_encode_cons u us
      rw [hx] at hus
      -- the unit would end in a zero of the start code, or hold its first three bytes
      rcases w with _ | ⟨a, _ | ⟨b, _ | ⟨c, w⟩⟩⟩
      · rfl
      · simp only [List.cons_append, List.cons.injEq] at hus
        obtain ⟨rfl, -⟩ := hus
        exact absurd (by rw [hm, List.getLast?_concat]) m.last_ne
      · simp only [List.cons_append, List.cons.injEq] at hus
        obtain ⟨rfl, rfl, -⟩ := hus
        have hlast : m.bytes = (n.bytes ++ [0]) ++ [0] := by rw [hm, List.append_assoc]; rfl
        exact absurd (by rw [hlast, List.getLast?_concat]) m.last_ne
      · simp only [List.cons_append, List.cons.injEq] at hus
        obtain ⟨rfl, rfl, rfl, -⟩ := hus
        have hin : [0, 0, x] <:+: m.bytes := ⟨n.bytes, w, by rw [hm, List.append_assoc]; rfl⟩
        rcases hcode with rfl | rfl
        · exact absurd hin m.no_zeros
        · exact absurd hin m.no_start

/-- The unit at the beginning of a stream, and where it ends. -/
theorem append_encode_inj (h : n.bytes ++ encode us = m.bytes ++ encode vs) :
    n = m ∧ encode us = encode vs := by
  rcases List.append_eq_append_iff.1 h with ⟨w, hm, hus⟩ | ⟨w, hn, hvs⟩
  · obtain rfl := eq_nil_of_append hm hus
    rw [List.append_nil] at hm
    exact ⟨by cases n; cases m; simp_all, hus⟩
  · obtain rfl := eq_nil_of_append hn hvs
    rw [List.append_nil] at hn
    exact ⟨by cases n; cases m; simp_all, hvs.symm⟩

/-- **A stream is cut into units in one way only.** -/
theorem encode_injective (us vs : List (StartCode × NalUnit)) (h : encode us = encode vs) :
    us = vs := by
  induction us generalizing vs with
  | nil =>
      cases vs with
      | nil => rfl
      | cons v vs => exact absurd h.symm (encode_cons_ne_nil v)
  | cons u us ih =>
      cases vs with
      | nil => exact absurd h (encode_cons_ne_nil u)
      | cons v vs =>
          obtain ⟨c, n⟩ := u
          obtain ⟨d, m⟩ := v
          rw [encode_cons, encode_cons] at h
          -- the third bytes of the two start codes differ
          have hcd : c = d := by cases c <;> cases d <;> simp_all [StartCode.bytes]
          obtain rfl := hcd
          obtain ⟨rfl, hrest⟩ := append_encode_inj (List.append_cancel_left h)
          rw [ih vs hrest]

/-- The units of a stream are those it was written from. -/
theorem carries_encode : Carries (encode us) n ↔ n ∈ us.map Prod.snd := by
  constructor
  · rintro ⟨vs, hvs, hn⟩
    rwa [encode_injective vs us hvs] at hn
  · intro hn
    exact ⟨us, rfl, hn⟩

/-! ### The first start code -/

/-- The start code `c` begins at `p`, and a byte follows it. -/
def Followed (bs : List Byte) (p : ℕ) (c : StartCode) : Prop :=
  c.bytes <+: bs.drop p ∧ p + c.bytes.length < bs.length

instance (bs : List Byte) (p : ℕ) (c : StartCode) : Decidable (Followed bs p c) :=
  inferInstanceAs (Decidable (_ ∧ _))

/-- Nothing before `p` is a start code with a byte behind it. -/
def FirstAt (bs : List Byte) (p : ℕ) (c : StartCode) : Prop :=
  Followed bs p c ∧ ∀ q < p, ∀ d, ¬ Followed bs q d

/-- The type behind the first start code, or `-1` where there is none. -/
def FirstType (bs : List Byte) (t : ℤ) : Prop :=
  (∃ p c, FirstAt bs p c ∧ t = (byteAt bs (p + c.bytes.length) &&& 0x1F).toNat) ∨
    (∀ p c, ¬ Followed bs p c) ∧ t = -1

variable {bs : List Byte} {p : ℕ}

theorem drop_eq_byteAt_cons (h : p < bs.length) : bs.drop p = byteAt bs p :: bs.drop (p + 1) := by
  rw [List.drop_eq_getElem_cons h, byteAt_eq_getElem h]

theorem followed_three_iff : Followed bs p .three ↔
    p + 3 < bs.length ∧ byteAt bs p = 0 ∧ byteAt bs (p + 1) = 0 ∧ byteAt bs (p + 2) = 1 := by
  rw [Followed, StartCode.bytes, and_comm]
  refine and_congr_right fun (h : p + 3 < bs.length) => ?_
  rw [drop_eq_byteAt_cons (by omega), drop_eq_byteAt_cons (by omega),
    drop_eq_byteAt_cons (by omega)]
  simp only [List.cons_prefix_cons, List.nil_prefix, and_true, eq_comm]

theorem followed_four_iff : Followed bs p .four ↔
    p + 4 < bs.length ∧ byteAt bs p = 0 ∧ byteAt bs (p + 1) = 0 ∧ byteAt bs (p + 2) = 0 ∧
      byteAt bs (p + 3) = 1 := by
  rw [Followed, StartCode.bytes, and_comm]
  refine and_congr_right fun (h : p + 4 < bs.length) => ?_
  rw [drop_eq_byteAt_cons (by omega), drop_eq_byteAt_cons (by omega),
    drop_eq_byteAt_cons (by omega), drop_eq_byteAt_cons (by omega)]
  simp only [List.cons_prefix_cons, List.nil_prefix, and_true, eq_comm]

/-- The two start codes differ in their third byte. -/
theorem Followed.code_eq {c d : StartCode} (hc : Followed bs p c) (hd : Followed bs p d) :
    c = d := by
  cases c with
  | three =>
      cases d with
      | three => rfl
      | four =>
          have h₃ := followed_three_iff.1 hc
          have h₄ := followed_four_iff.1 hd
          exact absurd (h₃.2.2.2.symm.trans h₄.2.2.2.1) (by decide)
  | four =>
      cases d with
      | three =>
          have h₃ := followed_three_iff.1 hd
          have h₄ := followed_four_iff.1 hc
          exact absurd (h₃.2.2.2.symm.trans h₄.2.2.2.1) (by decide)
      | four => rfl

/-- In the last four bytes there is room for one code with a byte behind it: `00 00 01`. -/
theorem Followed.last {c : StartCode} (h : Followed bs p c) (hp : bs.length - 4 ≤ p) :
    p = bs.length - 4 ∧ c = .three := by
  cases c with
  | three =>
      have := (followed_three_iff.1 h).1
      exact ⟨by omega, rfl⟩
  | four =>
      have := (followed_four_iff.1 h).1
      omega

end AnnexB
end Framing
end Carlinkit
