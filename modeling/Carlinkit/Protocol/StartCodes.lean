/-
# Which bytes `firstNalType` reads, and what it finds

`firstNalType` walks over a range of an array.  `walk` is the walk with every read made
explicit, in the order of the code and with its short cuts, so that a read outside the
range can fail; `walk_within` says that none does.

The loop of the code is left four bytes before the end, for both lengths of start code.
A code of four bytes needs a fifth byte behind it, but a code of three needs a fourth one
only: `firstType_iff` says that the type of the first NAL unit is found unless the range
ends with `00 00 01` and one byte more, and no start code stands before these.
-/

import Carlinkit.Protocol.ParameterSets

namespace Carlinkit
namespace Protocol

open Framing Framing.AnnexB

/-- `b & 0x1F` of a byte that was read. -/
def lowFive (b : Byte) : ℤ := (b &&& 0x1F).toNat

/-- The loop of `firstNalType`, `n` iterations from index `i`, over an array that `read`
reads; `none` is the exception of a read that fails. -/
def walk (read : ℕ → Option Byte) (stop : ℕ) : ℕ → ℕ → Option ℤ
  | 0, _ => some (-1)
  | n + 1, i =>
      (read i).bind fun b₀ =>
        if b₀ ≠ 0 then walk read stop n (i + 1)
        else (read (i + 1)).bind fun b₁ =>
          if b₁ ≠ 0 then walk read stop n (i + 1)
          else (read (i + 2)).bind fun b₂ =>
            if b₂ = 1 then (read (i + 3)).map lowFive
            else if b₂ ≠ 0 then walk read stop n (i + 1)
            else (read (i + 3)).bind fun b₃ =>
              if b₃ = 1 ∧ i + 4 < stop then (read (i + 4)).map lowFive
              else walk read stop n (i + 1)

/-- `firstNalType` over an array that `read` reads. -/
def walkRange (read : ℕ → Option Byte) (offset length : ℕ) : Option ℤ :=
  walk read (offset + length) (offset + length - 4 - offset) offset

/-- The bytes of `[offset, offset + length)`, where these lie in the array. -/
def within (data : List Byte) (offset length j : ℕ) : Option Byte :=
  if offset ≤ j ∧ j < offset + length then data[j]? else none

/-- What `firstNalType` is for: it reads the range alone, and returns the type of the first
NAL unit in it. -/
structure FindsFirst (data : List Byte) (offset length : ℕ) : Prop where
  inside : walkRange (within data offset length) offset length =
    some (firstNalType data offset length)
  first : FirstType ((data.drop offset).take length) (firstNalType data offset length)

variable {data bs : List Byte} {offset length : ℕ}

/-! ### The reads -/

/-- A walk over a range that can be read is the walk of `firstNalType`. -/
theorem walk_eq {read : ℕ → Option Byte} {stop n i : ℕ}
    (hread : ∀ j, i ≤ j → j < stop → read j = some (byteAt data j))
    (hn : n = 0 ∨ i + n + 4 ≤ stop) :
    walk read stop n i = some (firstNalTypeLoop data stop n i) := by
  induction n generalizing i with
  | zero => rfl
  | succ n ih =>
      have hstop : i + n + 5 ≤ stop := by omega
      have hrest : walk read stop n (i + 1) = some (firstNalTypeLoop data stop n (i + 1)) :=
        ih (fun j hj hlt => hread j (by omega) hlt) (by omega)
      simp only [walk, firstNalTypeLoop, hread i (by omega) (by omega),
        hread (i + 1) (by omega) (by omega), hread (i + 2) (by omega) (by omega),
        hread (i + 3) (by omega) (by omega), hread (i + 4) (by omega) (by omega),
        Option.bind_some, Option.map_some, lowFive, hrest]
      split_ifs <;> grind

/-- **No byte outside the range is read.** -/
theorem walk_within (h : offset + length ≤ data.length) :
    walkRange (within data offset length) offset length =
      some (firstNalType data offset length) := by
  refine walk_eq (fun j hj hlt => ?_) (by omega)
  have hin : j < data.length := by omega
  rw [within, if_pos ⟨hj, hlt⟩, byteAt_eq_getElem hin, List.getElem?_eq_getElem hin]

/-! ### What is found -/

/-- **The loop.**  It stops at the first start code among the indices it tries. -/
theorem firstNalTypeLoop_spec (bs : List Byte) {n i : ℕ} (hn : n = 0 ∨ i + n + 4 ≤ bs.length) :
    (∃ p c, i ≤ p ∧ p < i + n ∧ Followed bs p c ∧ (∀ q, i ≤ q → q < p → ∀ d, ¬ Followed bs q d) ∧
        firstNalTypeLoop bs bs.length n i = (byteAt bs (p + c.bytes.length) &&& 0x1F).toNat) ∨
      (∀ p, i ≤ p → p < i + n → ∀ c, ¬ Followed bs p c) ∧
        firstNalTypeLoop bs bs.length n i = -1 := by
  induction n generalizing i with
  | zero => exact .inr ⟨fun p hp hlt => by omega, rfl⟩
  | succ n ih =>
      have hlong : i + n + 5 ≤ bs.length := by omega
      have hthree : Followed bs i .three ↔ _ := followed_three_iff
      have hfour : Followed bs i .four ↔ _ := followed_four_iff
      by_cases h₃ : Followed bs i .three
      · obtain ⟨-, h₀, h₁, h₂⟩ := hthree.1 h₃
        refine .inl ⟨i, .three, Nat.le_refl i, by omega, h₃, fun q hq hlt => by omega, ?_⟩
        rw [firstNalTypeLoop, if_pos ⟨h₀, h₁⟩, if_pos h₂]
        rfl
      · by_cases h₄ : Followed bs i .four
        · obtain ⟨hlt, h₀, h₁, h₂, hone⟩ := hfour.1 h₄
          refine .inl ⟨i, .four, Nat.le_refl i, by omega, h₄, fun q hq hlt => by omega, ?_⟩
          rw [firstNalTypeLoop, if_pos ⟨h₀, h₁⟩, if_neg (by simp [h₂]), if_pos ⟨h₂, hone, hlt⟩]
          rfl
        · have hnone : ∀ d, ¬ Followed bs i d := by
            intro d
            cases d with
            | three => exact h₃
            | four => exact h₄
          have hnext : firstNalTypeLoop bs bs.length (n + 1) i =
              firstNalTypeLoop bs bs.length n (i + 1) := by
            rw [hthree] at h₃
            rw [hfour] at h₄
            rw [firstNalTypeLoop]
            split_ifs with h₀ h₂ hone
            · exact absurd ⟨by omega, h₀.1, h₀.2, h₂⟩ h₃
            · exact absurd ⟨hone.2.2, h₀.1, h₀.2, hone.1, hone.2.1⟩ h₄
            · rfl
            · rfl
          rw [hnext]
          rcases ih (i := i + 1) (by omega) with ⟨p, c, hp, hlt, hc, hbefore, heq⟩ | ⟨hno, heq⟩
          · refine .inl ⟨p, c, by omega, by omega, hc, fun q hq hqp => ?_, heq⟩
            rcases Nat.eq_or_lt_of_le hq with rfl | hq
            · exact hnone
            · exact hbefore q hq hqp
          · refine .inr ⟨fun p hp hlt => ?_, heq⟩
            rcases Nat.eq_or_lt_of_le hp with rfl | hp
            · exact hnone
            · exact hno p hp (by omega)

/-- The walk over the whole of some bytes. -/
theorem firstType_walk_iff (bs : List Byte) :
    FirstType bs (firstNalType bs 0 bs.length) ↔ ¬ FirstAt bs (bs.length - 4) .three := by
  have hwalk : firstNalType bs 0 bs.length =
      firstNalTypeLoop bs bs.length (bs.length - 4) 0 := by
    rw [firstNalType, Nat.zero_add, Nat.sub_zero]
  rw [hwalk]
  rcases firstNalTypeLoop_spec bs (n := bs.length - 4) (i := 0) (by omega) with
    ⟨p, c, -, hlt, hc, hbefore, heq⟩ | ⟨hno, heq⟩
  · refine iff_of_true ?_ fun hlast => hlast.2 p (by omega) c hc
    exact .inl ⟨p, c, ⟨hc, fun q hq => hbefore q (Nat.zero_le q) hq⟩, heq⟩
  · have hearly : ∀ q < bs.length - 4, ∀ d, ¬ Followed bs q d :=
      fun q hq => hno q (Nat.zero_le q) (by omega)
    rw [heq]
    constructor
    · rintro (⟨p, c, -, hneg⟩ | ⟨hnone, -⟩) hlast
      · omega
      · exact hnone _ _ hlast.1
    · intro hlast
      refine .inr ⟨fun p c hc => ?_, rfl⟩
      rcases Nat.lt_or_ge p (bs.length - 4) with hp | hp
      · exact hearly p hp c hc
      · obtain ⟨rfl, rfl⟩ := hc.last hp
        exact hlast ⟨hc, hearly⟩

/-- Bytes that begin with a start code: the walk returns the type behind it. -/
theorem firstNalType_of_followed {c : StartCode} (h : Followed bs 0 c) (hlong : 5 ≤ bs.length) :
    firstNalType bs 0 bs.length = lowFive (byteAt bs c.bytes.length) := by
  have hwalk : firstNalType bs 0 bs.length =
      firstNalTypeLoop bs bs.length (bs.length - 4) 0 := by
    rw [firstNalType, Nat.zero_add, Nat.sub_zero]
  rw [hwalk]
  rcases firstNalTypeLoop_spec bs (n := bs.length - 4) (i := 0) (by omega) with
    ⟨p, d, -, -, hd, hbefore, heq⟩ | ⟨hno, -⟩
  · rcases Nat.eq_zero_or_pos p with rfl | hp
    · rw [heq, hd.code_eq h, Nat.zero_add, lowFive]
    · exact absurd h (hbefore 0 (Nat.le_refl 0) hp c)
  · exact absurd h (hno 0 (Nat.le_refl 0) (by omega) c)

/-- **The first NAL unit of a range.**  For every array and every range in it, the walk
reads the range alone and returns the type behind the first start code with a byte behind
it, or `-1` where there is none, exactly when that start code is not `00 00 01` with the
last byte of the range behind it. -/
theorem findsFirst_iff (data : List Byte) (offset length : ℕ)
    (h : offset + length ≤ data.length) :
    FindsFirst data offset length ↔
      ¬ FirstAt ((data.drop offset).take length) (length - 4) .three := by
  have hlength : ((data.drop offset).take length).length = length := by
    rw [List.length_take, List.length_drop]
    omega
  have hwalk := firstType_walk_iff ((data.drop offset).take length)
  rw [hlength, ← firstNalType_data] at hwalk
  rw [← hwalk]
  constructor
  · intro hfinds
    exact hfinds.first
  · intro hfirst
    exact ⟨walk_within h, hfirst⟩

/-- A start code of four bytes and an SPS, in the middle of an array. -/
theorem findsFirst_four_bytes : FindsFirst [9, 0, 0, 0, 1, 0x67, 9] 1 5 :=
  (findsFirst_iff _ 1 5 (by decide)).2 fun h => h.2 0 (by decide) .four (by decide)

/-- **Four bytes, `00 00 01 67`.**  The loop does not try a single index, and the SPS is not
found. -/
theorem not_findsFirst_last :
    ¬ ∀ data offset length, offset + length ≤ data.length → FindsFirst data offset length := by
  intro h
  have hfirst := (h [0, 0, 1, 0x67] 0 4 (Nat.le_refl 4)).first
  exact (firstType_walk_iff [0, 0, 1, 0x67]).1 hfirst
    ⟨by decide, fun q hq => absurd hq (Nat.not_lt_zero q)⟩

end Protocol
end Carlinkit
