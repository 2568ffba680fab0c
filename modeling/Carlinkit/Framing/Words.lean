/-
# Little-endian 32-bit words in byte arrays

`le32 w` are the four bytes of `w`, least significant first, and `word` puts
four bytes back together; `wordAt bs o` reads the word at offset `o` of an
array.  `wordAt_le32` reads back what was written; it is arithmetic modulo powers
of two, so its proof is `omega` after passing to natural numbers.  `le32_wordAt` writes
back what was read, and `wordAt_congr` says that reading a word looks at its own four
bytes only.
-/

import Mathlib.Algebra.Ring.Nat
import Mathlib.Data.List.Basic

namespace Carlinkit
namespace Framing

/-- One byte; its sign is the business of the reader. -/
abbrev Byte := BitVec 8

/-- The byte of an array at `i`, `0` past its end. -/
def byteAt (bs : List Byte) (i : ℕ) : Byte := bs.getD i 0

/-- Four bytes as a word, `b₀` the least significant. -/
def word (b₀ b₁ b₂ b₃ : Byte) : BitVec 32 :=
  .ofNat 32 (b₀.toNat + 2 ^ 8 * b₁.toNat + 2 ^ 16 * b₂.toNat + 2 ^ 24 * b₃.toNat)

/-- The bytes of a word, least significant first. -/
def le32 (w : BitVec 32) : List Byte :=
  [.ofNat 8 w.toNat, .ofNat 8 (w.toNat / 2 ^ 8), .ofNat 8 (w.toNat / 2 ^ 16),
    .ofNat 8 (w.toNat / 2 ^ 24)]

/-- The word at offset `o` of an array. -/
def wordAt (bs : List Byte) (o : ℕ) : BitVec 32 :=
  word (byteAt bs o) (byteAt bs (o + 1)) (byteAt bs (o + 2)) (byteAt bs (o + 3))

@[simp] theorem le32_length (w : BitVec 32) : (le32 w).length = 4 := rfl

/-- Writing a word and reading it back. -/
theorem wordAt_le32 (w : BitVec 32) : wordAt (le32 w) 0 = w := by
  apply BitVec.eq_of_toNat_eq
  simp only [wordAt, byteAt, le32, word, List.getD_cons_zero, List.getD_cons_succ,
    BitVec.toNat_ofNat]
  omega

/-- The bytes of a word are those that it was put together from. -/
theorem le32_word (b₀ b₁ b₂ b₃ : Byte) : le32 (word b₀ b₁ b₂ b₃) = [b₀, b₁, b₂, b₃] := by
  have h₀ := b₀.isLt
  have h₁ := b₁.isLt
  have h₂ := b₂.isLt
  have h₃ := b₃.isLt
  simp only [le32, word, BitVec.toNat_ofNat, List.cons.injEq, and_true]
  refine ⟨?_, ?_, ?_, ?_⟩ <;>
    · apply BitVec.eq_of_toNat_eq
      rw [BitVec.toNat_ofNat]
      omega

theorem byteAt_eq_getElem {bs : List Byte} {i : ℕ} (h : i < bs.length) : byteAt bs i = bs[i] := by
  simp only [byteAt, List.getD_eq_getElem?_getD, List.getElem?_eq_getElem h, Option.getD_some]

theorem byteAt_append_left {as bs : List Byte} {i : ℕ} (h : i < as.length) :
    byteAt (as ++ bs) i = byteAt as i := by
  simp only [byteAt, List.getD_eq_getElem?_getD, List.getElem?_append_left h]

theorem byteAt_append_right {as bs : List Byte} {i : ℕ} (h : as.length ≤ i) :
    byteAt (as ++ bs) i = byteAt bs (i - as.length) := by
  simp only [byteAt, List.getD_eq_getElem?_getD, List.getElem?_append_right h]

theorem byteAt_take {bs : List Byte} {i n : ℕ} (h : i < n) :
    byteAt (bs.take n) i = byteAt bs i := by
  simp only [byteAt, List.getD_eq_getElem?_getD, List.getElem?_take, if_pos h]

/-- **A word is read from its own four bytes.** -/
theorem wordAt_congr {as bs : List Byte} {o : ℕ}
    (h : ∀ i, o ≤ i → i < o + 4 → byteAt as i = byteAt bs i) : wordAt as o = wordAt bs o := by
  simp only [wordAt, h o (by omega) (by omega), h (o + 1) (by omega) (by omega),
    h (o + 2) (by omega) (by omega), h (o + 3) (by omega) (by omega)]

/-- Reading a word and writing it back. -/
theorem le32_wordAt {bs : List Byte} {o : ℕ} (h : o + 4 ≤ bs.length) :
    le32 (wordAt bs o) ++ bs.drop (o + 4) = bs.drop o := by
  have hcons : ∀ i, o + i < bs.length →
      bs.drop (o + i) = byteAt bs (o + i) :: bs.drop (o + (i + 1)) := by
    intro i hi
    rw [List.drop_eq_getElem_cons hi, byteAt_eq_getElem hi, Nat.add_assoc]
  calc le32 (wordAt bs o) ++ bs.drop (o + 4)
      = [byteAt bs (o + 0), byteAt bs (o + 1), byteAt bs (o + 2), byteAt bs (o + 3)] ++
          bs.drop (o + 4) := by rw [wordAt, le32_word]; rfl
    _ = bs.drop (o + 0) := by
        rw [hcons 0 (by omega), hcons 1 (by omega), hcons 2 (by omega), hcons 3 (by omega)]
        rfl
    _ = bs.drop o := by rw [Nat.add_zero]

theorem wordAt_append_left {as bs : List Byte} {o : ℕ} (h : o + 4 ≤ as.length) :
    wordAt (as ++ bs) o = wordAt as o :=
  wordAt_congr fun _ _ hi => byteAt_append_left (by omega)

/-- Reading past a prefix of known length. -/
theorem wordAt_append_right {as bs : List Byte} {o n : ℕ} (hn : as.length = n) :
    wordAt (as ++ bs) (n + o) = wordAt bs o := by
  have hbyte : ∀ i, byteAt (as ++ bs) (n + o + i) = byteAt bs (o + i) := by
    intro i
    rw [byteAt_append_right (by omega), hn, Nat.add_assoc, Nat.add_sub_cancel_left]
  simp only [wordAt, hbyte 1, hbyte 2, hbyte 3]
  rw [show n + o = n + o + 0 from rfl, hbyte 0]
  rfl

theorem wordAt_take {bs : List Byte} {o n : ℕ} (h : o + 4 ≤ n) :
    wordAt (bs.take n) o = wordAt bs o :=
  wordAt_congr fun _ _ hi => byteAt_take (by omega)

end Framing
end Carlinkit
