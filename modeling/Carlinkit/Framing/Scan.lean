/-
# Length-prefixed frames in a stream of symbols

A `Layout` is a framing: every message is a header block of `hsize` symbols,
which `decode` accepts or rejects, followed by the `size` symbols that an
accepted header announces.  `Writes F x blk` says that `blk` is a header block
that decodes to `x`.

`scan` is what an eager reader makes of a stream.  It takes one block at a time,
throws a rejected block away, and after an accepted one takes the announced
payload; it stops when the stream is too short for the next block or payload.
Every frame keeps the position of its first symbol, so that two messages with
equal contents stay different messages.  `scan_frame` and `scan_encode` are the
rules for streams that start at a message boundary, `scan_discard` and
`scan_short` the ones for a reader that starts in the middle of something.

`chunks` cuts a stream into the stretches of symbols that such a reader counts
as one message each, the unfinished last one included; here a rejected block is
a message of its own.
-/

import Mathlib.Algebra.Ring.Nat
import Mathlib.Data.List.Basic

namespace Carlinkit
namespace Framing

/-- A framing over symbols `β` with headers `η`. -/
structure Layout (β η : Type*) where
  /-- Symbols in a header block. -/
  hsize : ℕ
  hsize_pos : 0 < hsize
  /-- The header in a block, if the block is acceptable. -/
  decode : List β → Option η
  /-- Symbols of payload the header announces. -/
  size : η → ℕ

/-- A frame found in a stream, with the position of its first symbol. -/
structure Frame (β η : Type*) where
  pos : ℕ
  header : η
  payload : List β
deriving DecidableEq, Repr

namespace Layout

variable {β γ η : Type*} (F : Layout β η)

/-- `blk` is a header block that announces `x`. -/
def Writes (x : η) (blk : List β) : Prop := blk.length = F.hsize ∧ F.decode blk = some x

/-- The frames an eager reader finds in `bs`, whose first symbol is at `pos`. -/
def scan (pos : ℕ) (bs : List β) : List (Frame β η) :=
  if bs.length < F.hsize then []
  else
    match F.decode (bs.take F.hsize) with
    | none => scan (pos + F.hsize) (bs.drop F.hsize)
    | some x =>
        if (bs.drop F.hsize).length < F.size x then []
        else ⟨pos, x, (bs.drop F.hsize).take (F.size x)⟩ ::
          scan (pos + F.hsize + F.size x) ((bs.drop F.hsize).drop (F.size x))
termination_by bs.length
decreasing_by
  all_goals
    have := F.hsize_pos
    simp only [List.length_drop]
    omega

variable {F} {pos : ℕ} {bs blk p : List β} {x : η}

/-- Too few symbols for a header block: nothing is found. -/
theorem scan_short (h : bs.length < F.hsize) : F.scan pos bs = [] := by
  rw [scan, if_pos h]

@[simp] theorem scan_nil : F.scan pos [] = [] := scan_short F.hsize_pos

/-- A rejected block is thrown away. -/
theorem scan_discard (h : F.hsize ≤ bs.length) (hd : F.decode (bs.take F.hsize) = none) :
    F.scan pos bs = F.scan (pos + F.hsize) (bs.drop F.hsize) := by
  rw [scan, if_neg (by omega), hd]

/-- An announced payload that is not there: the reader waits for it. -/
theorem scan_stuck (h : F.hsize ≤ bs.length) (hd : F.decode (bs.take F.hsize) = some x)
    (hs : bs.length < F.hsize + F.size x) : F.scan pos bs = [] := by
  rw [scan, if_neg (by omega), hd]
  exact if_pos (by rw [List.length_drop]; omega)

/-- An accepted block with its payload is one frame. -/
theorem scan_frame (h : F.hsize ≤ bs.length) (hd : F.decode (bs.take F.hsize) = some x)
    (hs : F.hsize + F.size x ≤ bs.length) :
    F.scan pos bs = ⟨pos, x, (bs.drop F.hsize).take (F.size x)⟩ ::
      F.scan (pos + F.hsize + F.size x) ((bs.drop F.hsize).drop (F.size x)) := by
  rw [scan, if_neg (by omega), hd]
  exact if_neg (by rw [List.length_drop]; omega)

/-- **A message at the front of the stream is the first frame.** -/
theorem scan_encode (hw : F.Writes x blk) (hp : p.length = F.size x) :
    F.scan pos (blk ++ (p ++ bs)) = ⟨pos, x, p⟩ :: F.scan (pos + F.hsize + F.size x) bs := by
  have htake : (blk ++ (p ++ bs)).take F.hsize = blk := by
    rw [← hw.1, List.take_left']
    rfl
  have hdrop : (blk ++ (p ++ bs)).drop F.hsize = p ++ bs := by
    rw [← hw.1, List.drop_left']
    rfl
  have hlen := hw.1
  rw [scan_frame (x := x) (by simp; omega) (by rw [htake, hw.2]) (by simp; omega), hdrop,
    List.take_left' hp, List.drop_left' hp]

/-- **What a found frame is**: somewhere in the stream a block that decodes, and behind it
the payload that it announces. -/
theorem exists_of_mem_scan {f : Frame β η} (hf : f ∈ F.scan pos bs) :
    ∃ skip, f.pos = pos + skip ∧ skip + F.hsize + F.size f.header ≤ bs.length ∧
      F.decode ((bs.drop skip).take F.hsize) = some f.header ∧
      f.payload = (bs.drop (skip + F.hsize)).take (F.size f.header) := by
  induction pos, bs using Layout.scan.induct F with
  | case1 pos bs h => simp [scan_short h] at hf
  | case2 pos bs h hd ih =>
      rw [scan_discard (by omega) hd] at hf
      obtain ⟨skip, hpos, hlen, hdec, hpay⟩ := ih hf
      rw [List.length_drop] at hlen
      rw [List.drop_drop] at hdec hpay
      refine ⟨F.hsize + skip, by omega, by omega, hdec, ?_⟩
      rwa [Nat.add_assoc]
  | case3 pos bs h x hd hs =>
      rw [scan_stuck (by omega) hd (by rw [List.length_drop] at hs; omega)] at hf
      simp at hf
  | case4 pos bs h x hd hs ih =>
      rw [List.length_drop] at hs
      rw [scan_frame (by omega) hd (by omega)] at hf
      rcases List.mem_cons.1 hf with rfl | hf
      · exact ⟨0, rfl, by show 0 + F.hsize + F.size x ≤ bs.length; omega, hd, by rw [Nat.zero_add]⟩
      · obtain ⟨skip, hpos, hlen, hdec, hpay⟩ := ih hf
        simp only [List.length_drop, List.drop_drop] at hlen hdec hpay
        refine ⟨F.hsize + F.size x + skip, by omega, by omega, hdec, ?_⟩
        rwa [Nat.add_assoc (F.hsize + F.size x)]

/-- Every frame of a scan starts at or after the place where the scan starts. -/
theorem le_pos_of_mem_scan {f : Frame β η} (hf : f ∈ F.scan pos bs) : pos ≤ f.pos := by
  obtain ⟨skip, hpos, -⟩ := exists_of_mem_scan hf
  omega

/-- Every frame of a scan ends inside the stream. -/
theorem pos_add_le_of_mem_scan {f : Frame β η} (hf : f ∈ F.scan pos bs) :
    f.pos + F.hsize ≤ pos + bs.length := by
  obtain ⟨skip, hpos, hlen, -⟩ := exists_of_mem_scan hf
  omega

/-- The payload of a frame has the announced size. -/
theorem payload_length_of_mem_scan {f : Frame β η} (hf : f ∈ F.scan pos bs) :
    f.payload.length = F.size f.header := by
  obtain ⟨skip, -, hlen, -, hpay⟩ := exists_of_mem_scan hf
  rw [hpay, List.length_take, List.length_drop]
  omega

/-! ### Reading on after a piece of a stream -/

variable (F)

/-- What an eager reader leaves of `bs`: the beginning of a message whose end is
not there. -/
def rest (bs : List β) : List β :=
  if bs.length < F.hsize then bs
  else
    match F.decode (bs.take F.hsize) with
    | none => rest (bs.drop F.hsize)
    | some x =>
        if (bs.drop F.hsize).length < F.size x then bs
        else rest ((bs.drop F.hsize).drop (F.size x))
termination_by bs.length
decreasing_by
  all_goals
    have := F.hsize_pos
    simp only [List.length_drop]
    omega

/-- `t` is the beginning of one message, header block or payload incomplete. -/
def Incomplete (t : List β) : Prop :=
  t.length < F.hsize ∨ ∃ x, F.decode (t.take F.hsize) = some x ∧ t.length < F.hsize + F.size x

variable {F} {t : List β}

theorem rest_discard (h : F.hsize ≤ t.length) (hd : F.decode (t.take F.hsize) = none) :
    F.rest t = F.rest (t.drop F.hsize) := by
  rw [rest, if_neg (by omega), hd]

theorem rest_incomplete (h : F.Incomplete t) : F.rest t = t := by
  by_cases hlen : t.length < F.hsize
  · rw [rest, if_pos hlen]
  · obtain ⟨x, hd, hs⟩ := h.resolve_left hlen
    rw [rest, if_neg hlen, hd]
    exact if_pos (by rw [List.length_drop]; omega)

theorem rest_frame (h : F.hsize ≤ t.length) (hd : F.decode (t.take F.hsize) = some x)
    (hs : F.hsize + F.size x ≤ t.length) :
    F.rest t = F.rest ((t.drop F.hsize).drop (F.size x)) := by
  rw [rest, if_neg (by omega), hd]
  exact if_neg (by rw [List.length_drop]; omega)

/-- What is left is incomplete, and no longer than the stream. -/
theorem incomplete_rest (t : List β) :
    F.Incomplete (F.rest t) ∧ (F.rest t).length ≤ t.length := by
  induction t using Layout.rest.induct F with
  | case1 t h =>
      rw [rest_incomplete (.inl h)]
      exact ⟨.inl h, Nat.le_refl _⟩
  | case2 t h hd ih =>
      rw [rest_discard (by omega) hd]
      exact ⟨ih.1, Nat.le_trans ih.2 (by rw [List.length_drop]; omega)⟩
  | case3 t h x hd hs =>
      have hinc : F.Incomplete t := .inr ⟨x, hd, by rw [List.length_drop] at hs; omega⟩
      rw [rest_incomplete hinc]
      exact ⟨hinc, Nat.le_refl _⟩
  | case4 t h x hd hs ih =>
      rw [rest_frame (by omega) hd (by rw [List.length_drop] at hs; omega)]
      exact ⟨ih.1, Nat.le_trans ih.2 (by simp only [List.length_drop]; omega)⟩

/-- An incomplete message is no frame yet. -/
theorem scan_incomplete (h : F.Incomplete t) : F.scan pos t = [] := by
  by_cases hlen : t.length < F.hsize
  · exact scan_short hlen
  · obtain ⟨x, hd, hs⟩ := h.resolve_left hlen
    exact scan_stuck (by omega) hd hs

/-- **Scanning a stream piece by piece.**  The frames of the first piece come
first; what it leaves is read together with the second piece. -/
theorem scan_append (pos : ℕ) (t bs : List β) :
    F.scan pos (t ++ bs) =
      F.scan pos t ++ F.scan (pos + (t.length - (F.rest t).length)) (F.rest t ++ bs) := by
  induction pos, t using Layout.scan.induct F with
  | case1 pos t h =>
      rw [scan_short h, rest_incomplete (.inl h), Nat.sub_self]
      rfl
  | case2 pos t h hd ih =>
      have hlen : F.hsize ≤ t.length := by omega
      have htake : (t ++ bs).take F.hsize = t.take F.hsize := List.take_append_of_le_length hlen
      have hle := (incomplete_rest (F := F) (t.drop F.hsize)).2
      rw [scan_discard (by simp; omega) (by rw [htake, hd]), scan_discard hlen hd,
        List.drop_append_of_le_length hlen, ih, rest_discard hlen hd]
      rw [List.length_drop] at hle ⊢
      congr 2
      omega
  | case3 pos t h x hd hs =>
      have hinc : F.Incomplete t := .inr ⟨x, hd, by rw [List.length_drop] at hs; omega⟩
      rw [scan_incomplete hinc, rest_incomplete hinc, Nat.sub_self]
      rfl
  | case4 pos t h x hd hs ih =>
      have hlen : F.hsize ≤ t.length := by omega
      have htake : (t ++ bs).take F.hsize = t.take F.hsize := List.take_append_of_le_length hlen
      have hle := (incomplete_rest (F := F) ((t.drop F.hsize).drop (F.size x))).2
      have hsize : F.size x ≤ (t.drop F.hsize).length := by omega
      rw [List.length_drop] at hs
      rw [scan_frame (x := x) (by simp; omega) (by rw [htake, hd]) (by simp; omega),
        scan_frame hlen hd (by omega), List.drop_append_of_le_length hlen,
        List.take_append_of_le_length hsize, List.drop_append_of_le_length hsize, ih,
        rest_frame hlen hd (by omega)]
      simp only [List.length_drop] at hle ⊢
      rw [List.cons_append]
      congr 3
      omega

/-- Where the stream lies does not matter for what is found in it. -/
theorem map_header_scan (pos pos' : ℕ) (bs : List β) :
    (F.scan pos bs).map Frame.header = (F.scan pos' bs).map Frame.header := by
  induction pos, bs using Layout.scan.induct F generalizing pos' with
  | case1 pos bs h => rw [scan_short h, scan_short h]
  | case2 pos bs h hd ih => rw [scan_discard (by omega) hd, scan_discard (by omega) hd, ih]
  | case3 pos bs h x hd hs =>
      rw [List.length_drop] at hs
      rw [scan_stuck (by omega) hd (by omega), scan_stuck (by omega) hd (by omega)]
  | case4 pos bs h x hd hs ih =>
      rw [List.length_drop] at hs
      rw [scan_frame (by omega) hd (by omega), scan_frame (by omega) hd (by omega), List.map_cons,
        List.map_cons, ih]

/-- **A reader that enters a piece in the middle of a message skips its end.**
The bytes after an incomplete message start no frame of their own. -/
theorem pos_ne_of_incomplete (ht : t ≠ []) (hinc : F.Incomplete t) {f : Frame β η}
    (hf : f ∈ F.scan pos (t ++ bs)) : f.pos ≠ pos + t.length := by
  have htpos : 0 < t.length := List.length_pos_iff.2 ht
  by_cases hshort : (t ++ bs).length < F.hsize
  · simp [scan_short hshort] at hf
  cases hd : F.decode ((t ++ bs).take F.hsize) with
  | none =>
      -- an incomplete message with a rejected block has no complete block
      have hlen : t.length < F.hsize := by
        by_contra hge
        obtain ⟨x, hx, -⟩ := hinc.resolve_left hge
        rw [List.take_append_of_le_length (by omega), hx] at hd
        simp at hd
      rw [scan_discard (by omega) hd] at hf
      have := le_pos_of_mem_scan hf
      omega
  | some x =>
      have hend : t.length < F.hsize + F.size x := by
        rcases hinc with hlt | ⟨y, hy, hlt⟩
        · omega
        · by_cases hlen : t.length < F.hsize
          · omega
          · rw [List.take_append_of_le_length (by omega), hy] at hd
            obtain rfl := Option.some.inj hd
            exact hlt
      by_cases hs : (t ++ bs).length < F.hsize + F.size x
      · simp [scan_stuck (by omega) hd hs] at hf
      rw [scan_frame (by omega) hd (by omega)] at hf
      rcases List.mem_cons.1 hf with rfl | hf
      · exact fun h => absurd (show pos = pos + t.length from h) (by omega)
      · have := le_pos_of_mem_scan hf
        omega

/-! ### Stretches of a stream -/

variable (F)

/-- The framing on symbols that carry more than a `β`. -/
def comap (f : γ → β) : Layout γ η where
  hsize := F.hsize
  hsize_pos := F.hsize_pos
  decode blk := F.decode (blk.map f)
  size := F.size

/-- What a block announces; a rejected one announces nothing. -/
def announced (blk : List β) : ℕ := (F.decode blk).elim 0 F.size

/-- The stream cut where a reader sees message boundaries. -/
def chunks (bs : List β) : List (List β) :=
  if bs = [] then []
  else
    bs.take (F.hsize + F.announced (bs.take F.hsize)) ::
      chunks (bs.drop (F.hsize + F.announced (bs.take F.hsize)))
termination_by bs.length
decreasing_by
  rename_i h
  have := F.hsize_pos
  have := List.length_pos_iff.2 h
  rw [List.length_drop]
  omega

variable {F}

theorem writes_comap {f : γ → β} {blk : List γ} (hw : F.Writes x (blk.map f)) :
    (F.comap f).Writes x blk :=
  ⟨by rw [← List.length_map f]; exact hw.1, hw.2⟩

theorem incomplete_comap {f : γ → β} {t : List γ} (ht : F.Incomplete (t.map f)) :
    (F.comap f).Incomplete t := by
  rcases ht with hlt | ⟨x, hd, hlt⟩
  · exact .inl (by rw [← List.length_map f]; exact hlt)
  · refine .inr ⟨x, ?_, by rw [← List.length_map f]; exact hlt⟩
    rw [← List.map_take] at hd
    exact hd

@[simp] theorem chunks_nil : F.chunks [] = [] := by rw [chunks, if_pos rfl]

/-- The first chunk is the first block with what it announces. -/
theorem head_mem_chunks (h : bs ≠ []) :
    bs.take (F.hsize + F.announced (bs.take F.hsize)) ∈ F.chunks bs := by
  rw [chunks, if_neg h]
  exact List.mem_cons_self ..

theorem mem_of_mem_chunks {c : List β} (hc : c ∈ F.chunks bs) {b : β} (hb : b ∈ c) : b ∈ bs := by
  induction bs using Layout.chunks.induct F with
  | case1 => simp at hc
  | case2 bs h ih =>
      rw [chunks, if_neg h] at hc
      rcases List.mem_cons.1 hc with rfl | hc
      · exact List.mem_of_mem_take hb
      · exact List.mem_of_mem_drop (ih hc)

/-- A message at the front of the stream is the first chunk. -/
theorem chunks_encode (hw : F.Writes x blk) (hp : p.length = F.size x) :
    F.chunks (blk ++ (p ++ bs)) = (blk ++ p) :: F.chunks bs := by
  have hpos := F.hsize_pos
  have hne : blk ++ (p ++ bs) ≠ [] := by
    intro h
    have := hw.1
    rw [(List.append_eq_nil_iff.1 h).1, List.length_nil] at this
    omega
  have htake : (blk ++ (p ++ bs)).take F.hsize = blk := List.take_left' hw.1
  have hlen : (blk ++ p).length = F.hsize + F.announced blk := by
    rw [announced, hw.2, List.length_append, hw.1, hp]
    rfl
  rw [chunks, if_neg hne, htake, ← List.append_assoc, List.take_left' hlen, List.drop_left' hlen]

/-- The chunk that begins with an incomplete message reaches beyond it. -/
theorem chunks_incomplete (ht : t ≠ []) (hinc : F.Incomplete t) (bs : List β) :
    ∃ n, t.length < n ∧ F.chunks (t ++ bs) = (t ++ bs).take n :: F.chunks ((t ++ bs).drop n) := by
  refine ⟨F.hsize + F.announced ((t ++ bs).take F.hsize), ?_, ?_⟩
  · rcases hinc with hlt | ⟨x, hd, hlt⟩
    · omega
    · by_cases hlen : t.length < F.hsize
      · omega
      · rw [List.take_append_of_le_length (by omega), announced, hd]
        exact hlt
  · rw [chunks, if_neg (by simp [ht])]

end Layout
end Framing
end Carlinkit
