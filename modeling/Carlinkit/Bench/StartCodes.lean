/-
# The scans of the capture scripts

`tools/capture_video.py` and `tools/capture_video2.py` look for the start codes of a VIDEO_DATA
payload, to say where the H.264 begins and which NAL units come.  `find_start_codes` and
`start_codes` are two copies of one loop, and the copies have drifted: one tests the length
before it reads a fifth byte.  `startCodes_eq` says that it is one function all the same.

The loop is the one of `VideoMessage.firstNalType` but for going on after a start code.  It
finds the same first unit (`firstNalType_eq`), and in a stream of units it finds them all, in
order and with their types, but for a last one of a single byte behind `00 00 01`
(`findStartCodes_encode`).

A number of iterations that is the length of the data is always enough.
-/

import Carlinkit.Protocol.StartCodes

namespace Carlinkit
namespace Bench

open Framing Framing.AnnexB Protocol

/-- A tuple of the list that a scan returns: the index, the length of the code, the type. -/
structure Found where
  index : ℕ
  length : ℕ
  nal : ℕ
deriving DecidableEq, Repr

/-- The loop of `find_start_codes` from the index `i`, with `limit` units to go. -/
def findStartCodesLoop (data : List Byte) : ℕ → ℕ → ℕ → List Found
  | 0, _, _ => []
  | n + 1, i, limit =>
      if i + 4 < data.length ∧ 0 < limit then
        if byteAt data i = 0 ∧ byteAt data (i + 1) = 0 then
          if byteAt data (i + 2) = 1 then
            ⟨i, 3, (byteAt data (i + 3) &&& 0x1F).toNat⟩ ::
              findStartCodesLoop data n (i + 4) (limit - 1)
          else if byteAt data (i + 2) = 0 ∧ byteAt data (i + 3) = 1 ∧ i + 4 < data.length then
            ⟨i, 4, (byteAt data (i + 4) &&& 0x1F).toNat⟩ ::
              findStartCodesLoop data n (i + 5) (limit - 1)
          else findStartCodesLoop data n (i + 1) limit
        else findStartCodesLoop data n (i + 1) limit
      else []

/-- `find_start_codes(data, limit)` of `capture_video.py`. -/
def findStartCodes (data : List Byte) (limit : ℕ) : List Found :=
  findStartCodesLoop data data.length 0 limit

/-- The loop of `start_codes`, which reads the fifth byte without a test of its own. -/
def startCodesLoop (data : List Byte) : ℕ → ℕ → ℕ → List Found
  | 0, _, _ => []
  | n + 1, i, limit =>
      if i + 4 < data.length ∧ 0 < limit then
        if byteAt data i = 0 ∧ byteAt data (i + 1) = 0 then
          if byteAt data (i + 2) = 1 then
            ⟨i, 3, (byteAt data (i + 3) &&& 0x1F).toNat⟩ ::
              startCodesLoop data n (i + 4) (limit - 1)
          else if byteAt data (i + 2) = 0 ∧ byteAt data (i + 3) = 1 then
            ⟨i, 4, (byteAt data (i + 4) &&& 0x1F).toNat⟩ ::
              startCodesLoop data n (i + 5) (limit - 1)
          else startCodesLoop data n (i + 1) limit
        else startCodesLoop data n (i + 1) limit
      else []

/-- `start_codes(data, limit)` of `capture_video2.py`. -/
def startCodes (data : List Byte) (limit : ℕ) : List Found :=
  startCodesLoop data data.length 0 limit

/-- Where the scripts take the H.264 of a payload to begin; `20` where nothing is found. -/
def videoOffset (payload : List Byte) : ℕ :=
  match findStartCodes payload 1 with
  | [] => 20
  | f :: _ => f.index

variable {data : List Byte} {i j n limit : ℕ}

/-! ### One step of the loop -/

/-- What is noted of a start code. -/
def found (data : List Byte) (i : ℕ) (c : StartCode) : Found :=
  ⟨i, c.bytes.length, (byteAt data (i + c.bytes.length) &&& 0x1F).toNat⟩

theorem findStartCodesLoop_end (h : data.length ≤ i + 4 ∨ limit = 0) (n : ℕ) :
    findStartCodesLoop data n i limit = [] := by
  cases n with
  | zero => rfl
  | succ n =>
      rw [findStartCodesLoop, if_neg]
      omega

/-- At a start code the loop notes it, and goes on behind the byte that follows it. -/
theorem findStartCodesLoop_found {c : StartCode} (h : Followed data i c)
    (hlong : i + 4 < data.length) (hlimit : 0 < limit) (n : ℕ) :
    findStartCodesLoop data (n + 1) i limit =
      found data i c :: findStartCodesLoop data n (i + c.bytes.length + 1) (limit - 1) := by
  rw [findStartCodesLoop, if_pos ⟨hlong, hlimit⟩]
  cases c with
  | three =>
      obtain ⟨-, h₀, h₁, h₂⟩ := followed_three_iff.1 h
      rw [if_pos ⟨h₀, h₁⟩, if_pos h₂]
      rfl
  | four =>
      obtain ⟨-, h₀, h₁, h₂, h₃⟩ := followed_four_iff.1 h
      rw [if_pos ⟨h₀, h₁⟩, if_neg (by simp [h₂]), if_pos ⟨h₂, h₃, hlong⟩]
      rfl

/-- Elsewhere it takes the next index. -/
theorem findStartCodesLoop_skip (h : ∀ c, ¬ Followed data i c) (n : ℕ) :
    findStartCodesLoop data (n + 1) i limit = findStartCodesLoop data n (i + 1) limit := by
  by_cases hgo : i + 4 < data.length ∧ 0 < limit
  · have h₃ := h .three
    have h₄ := h .four
    rw [followed_three_iff] at h₃
    rw [followed_four_iff] at h₄
    rw [findStartCodesLoop, if_pos hgo]
    split_ifs with h₀ h₂ hone
    · exact absurd ⟨by omega, h₀.1, h₀.2, h₂⟩ h₃
    · exact absurd ⟨hone.2.2, h₀.1, h₀.2, hone.1, hone.2.1⟩ h₄
    · rfl
    · rfl
  · rw [findStartCodesLoop_end (by omega), findStartCodesLoop_end (by omega)]

/-- Iterations beyond the end of the data do nothing. -/
theorem findStartCodesLoop_fuel {m : ℕ} (hn : data.length ≤ i + n) (hm : data.length ≤ i + m) :
    findStartCodesLoop data n i limit = findStartCodesLoop data m i limit := by
  induction n generalizing i m limit with
  | zero => rw [findStartCodesLoop_end (by omega), findStartCodesLoop_end (by omega)]
  | succ n ih =>
      cases m with
      | zero => rw [findStartCodesLoop_end (by omega), findStartCodesLoop_end (by omega)]
      | succ m =>
          by_cases hc : ∃ c, Followed data i c
          · by_cases hgo : i + 4 < data.length ∧ 0 < limit
            · obtain ⟨c, hc⟩ := hc
              rw [findStartCodesLoop_found hc hgo.1 hgo.2, findStartCodesLoop_found hc hgo.1 hgo.2,
                ih (m := m) (by omega) (by omega)]
            · rw [findStartCodesLoop_end (by omega), findStartCodesLoop_end (by omega)]
          · have hnone := not_exists.1 hc
            rw [findStartCodesLoop_skip hnone, findStartCodesLoop_skip hnone]
            exact ih (by omega) (by omega)

/-- **The two copies are one function.**  Where the loop runs there is a fifth byte. -/
theorem startCodes_eq (data : List Byte) (limit : ℕ) :
    startCodes data limit = findStartCodes data limit := by
  suffices h : ∀ n i limit, startCodesLoop data n i limit = findStartCodesLoop data n i limit from
    h _ _ _
  intro n
  induction n with
  | zero => exact fun _ _ => rfl
  | succ n ih =>
      intro i limit
      rw [startCodesLoop, findStartCodesLoop]
      by_cases hgo : i + 4 < data.length ∧ 0 < limit
      · simp only [ih, hgo, and_true]
      · rw [if_neg hgo, if_neg hgo]

/-- Indices at which no start code begins are passed over. -/
theorem findStartCodesLoop_pass (hij : i ≤ j) (h : ∀ q, i ≤ q → q < j → ∀ c, ¬ Followed data q c)
    (hn : data.length ≤ j + n) :
    findStartCodesLoop data (n + (j - i)) i limit = findStartCodesLoop data n j limit := by
  obtain ⟨k, rfl⟩ := Nat.exists_eq_add_of_le hij
  rw [Nat.add_sub_cancel_left]
  induction k generalizing i with
  | zero => rfl
  | succ k ih =>
      rw [← Nat.add_assoc, findStartCodesLoop_skip (h i (Nat.le_refl i) (by omega)),
        ih (i := i + 1) (Nat.le_add_right _ _) (fun q hq hlt => h q (by omega) (by omega))
          (by omega)]
      exact congrArg (findStartCodesLoop data n · limit) (by omega)

/-- The scan goes straight to an index when no start code begins before it. -/
theorem findStartCodes_pass (h : ∀ q < j, ∀ c, ¬ Followed data q c) (limit : ℕ) :
    findStartCodes data limit = findStartCodesLoop data data.length j limit := by
  rw [← findStartCodesLoop_pass (Nat.zero_le j) (fun q _ => h q) (by omega)]
  exact findStartCodesLoop_fuel (by omega) (by omega)

/-! ### The first unit -/

/-- **The scripts and the app find the same first unit**, in any bytes. -/
theorem firstNalType_eq (data : List Byte) (hlimit : 0 < limit) :
    firstNalType data 0 data.length =
      (findStartCodes data limit).head?.elim (-1) fun f => (f.nal : ℤ) := by
  rw [firstNalType, Nat.zero_add, Nat.sub_zero]
  rcases firstNalTypeLoop_spec data (n := data.length - 4) (i := 0) (by omega) with
    ⟨p, c, -, hlt, hc, hbefore, heq⟩ | ⟨hno, heq⟩
  · have hlong : p + 4 < data.length := by omega
    rw [heq, findStartCodes_pass fun q hq => hbefore q (Nat.zero_le q) hq,
      findStartCodesLoop_fuel (m := data.length + 1) (by omega) (by omega),
      findStartCodesLoop_found hc hlong hlimit]
    rfl
  · rw [heq, findStartCodes_pass fun q hq => hno q (Nat.zero_le q) (by omega),
      findStartCodesLoop_end (by omega)]
    rfl

theorem firstNalType_eq_sps :
    firstNalType [0, 0, 0, 1, 0x67, 9, 0, 0, 1, 0x68, 9, 9] 0 12 =
      (findStartCodes [0, 0, 0, 1, 0x67, 9, 0, 0, 1, 0x68, 9, 9] 20).head?.elim (-1)
        fun f => (f.nal : ℤ) :=
  firstNalType_eq [0, 0, 0, 1, 0x67, 9, 0, 0, 1, 0x68, 9, 9] (by decide)

/-- The scripts cut at the first start code that the loop comes to. -/
theorem videoOffset_of_first {payload : List Byte} {p : ℕ} {c : StartCode}
    (hc : Followed payload p c) (hlong : p + 4 < payload.length)
    (hfirst : ∀ q < p, ∀ d, ¬ Followed payload q d) : videoOffset payload = p := by
  rw [videoOffset, findStartCodes_pass hfirst,
    findStartCodesLoop_fuel (m := payload.length + 1) (by omega) (by omega),
    findStartCodesLoop_found hc hlong Nat.one_pos]
  rfl

/-- **Where the scripts cut a payload.**  The app cuts off 20 bytes of metadata.  Behind them the
H.264 begins with a start code, and the scripts cut there exactly when no start code begins in
the metadata.  A code at the very end, with one byte behind `00 00 01`, is not found, and the
scripts fall back on the 20 bytes. -/
theorem videoOffset_eq_iff {payload : List Byte} {c : StartCode}
    (hc : Followed payload metadataSize c) :
    payload.drop (videoOffset payload) = payload.drop metadataSize ↔
      ∀ q < metadataSize, ∀ d, ¬ Followed payload q d := by
  have hlength : metadataSize + 4 ≤ payload.length := by
    have hbehind : metadataSize + c.bytes.length < payload.length := hc.2
    cases c with
    | three => exact hbehind
    | four => exact hbehind.le
  constructor
  · intro hdrop q hq d hd
    rcases firstNalTypeLoop_spec payload (n := payload.length - 4) (i := 0) (by omega) with
      ⟨p, e, -, hlt, he, hbefore, -⟩ | ⟨hno, -⟩
    · have hp : p ≤ q := by
        by_contra hqp
        exact hbefore q (Nat.zero_le q) (by omega) d hd
      have hoffset : videoOffset payload = p :=
        videoOffset_of_first he (by omega) fun q hq => hbefore q (Nat.zero_le q) hq
      have hcut := congrArg List.length hdrop
      rw [List.length_drop, List.length_drop, hoffset] at hcut
      omega
    · exact hno q (Nat.zero_le q) (by omega) d hd
  · intro hnone
    by_cases hlong : metadataSize + 4 < payload.length
    · rw [videoOffset_of_first hc hlong hnone]
    · rw [videoOffset, findStartCodes_pass hnone, findStartCodesLoop_end (by omega)]
      rfl

/-- The metadata of 800 to 480 with `flags` 1, and an SPS behind it. -/
def flagged : List Byte :=
  [0x20, 3, 0, 0, 0xE0, 1, 0, 0, 1, 0, 0, 0, 0, 0, 0, 0, 0, 0, 0, 0, 0, 0, 0, 1, 0x67, 9]

/-- Height and flags together hold `00 00 01`: the scripts cut at the sixth byte. -/
theorem videoOffset_flagged :
    flagged.drop (videoOffset flagged) = flagged.drop metadataSize ↔
      ∀ q < metadataSize, ∀ d, ¬ Followed flagged q d :=
  videoOffset_eq_iff (c := .four) (by decide)

example : videoOffset flagged = 6 := by decide

/-! ### All units -/

/-- The units of a stream, from the index `i`. -/
def marks (i : ℕ) : List (StartCode × NalUnit) → List Found
  | [] => []
  | u :: us =>
      ⟨i, u.1.bytes.length, u.2.unitType⟩ :: marks (i + u.1.bytes.length + u.2.bytes.length) us

theorem le_of_mem_marks {f : Found} {us : List (StartCode × NalUnit)} (h : f ∈ marks i us) :
    i ≤ f.index := by
  induction us generalizing i with
  | nil => cases h
  | cons u us ih =>
      rcases List.mem_cons.1 h with rfl | h
      · exact Nat.le_refl i
      · have := ih h
        omega

/-- **No start code begins inside a unit**, also not with bytes of the next one. -/
theorem not_prefix_inside {n : NalUnit} {us : List (StartCode × NalUnit)} {p s : List Byte}
    (hn : n.bytes = p ++ s) (hs : s ≠ []) (c : StartCode) : ¬ c.bytes <+: s ++ encode us := by
  obtain ⟨x, t, hcode, hx⟩ : ∃ x t, c.bytes = 0 :: 0 :: x :: t ∧ (x = 0 ∨ x = 1) := by
    cases c with
    | three => exact ⟨1, [], rfl, .inr rfl⟩
    | four => exact ⟨0, [1], rfl, .inl rfl⟩
  have hlast : s.getLast? ≠ some 0 := by
    have := n.last_ne
    rwa [hn, List.getLast?_append_of_ne_nil _ hs] at this
  rw [hcode]
  intro hprefix
  -- the unit would end in a zero, or hold the first three bytes of the code
  rcases s with _ | ⟨a, _ | ⟨b, _ | ⟨d, s⟩⟩⟩
  · exact hs rfl
  · simp only [List.cons_append, List.cons_prefix_cons] at hprefix
    obtain ⟨rfl, -⟩ := hprefix
    exact hlast rfl
  · simp only [List.cons_append, List.cons_prefix_cons] at hprefix
    obtain ⟨-, rfl, -⟩ := hprefix
    exact hlast rfl
  · simp only [List.cons_append, List.cons_prefix_cons] at hprefix
    obtain ⟨rfl, rfl, rfl, -⟩ := hprefix
    have hin : [0, 0, x] <:+: n.bytes := ⟨p, s, by rw [hn, List.append_assoc]; rfl⟩
    rcases hx with rfl | rfl
    · exact n.no_zeros hin
    · exact n.no_start hin

/-- The scan of a stream, from the beginning of a unit. -/
theorem findStartCodesLoop_encode (us : List (StartCode × NalUnit)) (pre : List Byte)
    (limit : ℕ) :
    findStartCodesLoop (pre ++ encode us) (pre ++ encode us).length pre.length limit =
      ((marks pre.length us).filter fun f => f.index + 4 < (pre ++ encode us).length).take
        limit := by
  induction us generalizing pre limit with
  | nil => rw [findStartCodesLoop_end (by simp)]; simp [marks]
  | cons u us ih =>
      obtain ⟨c, n⟩ := u
      have hcons : pre ++ encode ((c, n) :: us) = pre ++ c.bytes ++ n.bytes ++ encode us := by
        rw [encode_cons]
        simp only [List.append_assoc]
      have hpos : 0 < n.bytes.length := List.length_pos_of_ne_nil n.ne_nil
      generalize hdata : pre ++ encode ((c, n) :: us) = data at hcons ⊢
      have hlength : data.length = pre.length + c.bytes.length + n.bytes.length +
          (encode us).length := by
        rw [hcons]
        simp only [List.length_append]
      by_cases hlong : pre.length + 4 < data.length
      · rcases Nat.eq_zero_or_pos limit with rfl | hlimit
        · rw [findStartCodesLoop_end (.inr rfl), List.take_zero]
        · have hfollowed : Followed data pre.length c := by
            refine ⟨⟨n.bytes ++ encode us, ?_⟩, by omega⟩
            rw [hcons]
            simp only [List.append_assoc, List.drop_left]
          have hbyte : byteAt data (pre.length + c.bytes.length) = byteAt n.bytes 0 := by
            rw [hcons, List.append_assoc, ← List.length_append,
              byteAt_append_right (Nat.le_refl _), Nat.sub_self, byteAt_append_left hpos]
          have hinside : ∀ q, pre.length + c.bytes.length + 1 ≤ q →
              q < pre.length + c.bytes.length + n.bytes.length → ∀ d, ¬ Followed data q d := by
            intro q hq hlt d hd
            obtain ⟨k, rfl⟩ := Nat.exists_eq_add_of_le (Nat.le_of_succ_le hq)
            have hnot : ¬ d.bytes <+: n.bytes.drop k ++ encode us := by
              refine not_prefix_inside (List.take_append_drop k n.bytes).symm ?_ d
              intro hnil
              have := congrArg List.length hnil
              rw [List.length_drop, List.length_nil] at this
              omega
            have hdrop := hd.1
            rw [hcons, List.append_assoc, ← List.length_append, List.drop_length_add_append,
              List.drop_append_of_le_length (by omega)] at hdrop
            exact hnot hdrop
          have hnext := ih (pre ++ c.bytes ++ n.bytes) (limit - 1)
          rw [← hcons, List.length_append, List.length_append] at hnext
          rw [findStartCodesLoop_fuel (m := data.length + 1) (by omega) (by omega),
            findStartCodesLoop_found hfollowed hlong hlimit, marks, List.filter_cons,
            if_pos (by simpa using hlong)]
          have htake : limit = limit - 1 + 1 := by omega
          rw [htake, List.take_succ_cons, Nat.add_sub_cancel, ← hnext]
          congr 1
          · rw [found, hbyte, NalUnit.unitType]
          · rw [← findStartCodesLoop_pass (j := pre.length + c.bytes.length + n.bytes.length)
              (by omega) hinside (by omega)]
            exact findStartCodesLoop_fuel (by omega) (by omega)
      · rw [findStartCodesLoop_end (by omega), List.filter_eq_nil_iff.2, List.take_nil]
        intro f hf
        have := le_of_mem_marks hf
        simp only [decide_eq_true_eq]
        omega

/-- **In a stream of units the scan finds every unit**, in order, with its index, the length of
its code and its type, as many as it is asked for; but not a unit at the very end that has one
byte behind `00 00 01`. -/
theorem findStartCodes_encode (us : List (StartCode × NalUnit)) (limit : ℕ) :
    findStartCodes (encode us) limit =
      ((marks 0 us).filter fun f => f.index + 4 < (encode us).length).take limit :=
  findStartCodesLoop_encode us [] limit

end Bench
end Carlinkit
