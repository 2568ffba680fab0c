/-
# What the parameter set cache holds of a stream

`ParameterSetCache` over the frames of a stream whose H.264 parts are Annex-B.  The
class comment promises the sequence that contains SPS and PPS, and `offer` says
"records the payload if it contains SPS", but it looks at the first unit alone.  So
the cache holds the last frame that `OpensWithSps`, and nothing else of the stream
(`parameterSets_run`): an SPS behind a delimiter or an SEI is passed over, and so is
a PPS in a frame of its own.  `retains_iff` says for which streams this is enough:
those whose last such frame has the most recent SPS and the most recent PPS,
`Together`.  A stream that sends every set as a whole, at the front of one frame, is
one of them (`together_of_whole`).
-/

import Carlinkit.Framing.AnnexB
import Carlinkit.Machine.Run
import Carlinkit.Protocol.Video

namespace Carlinkit
namespace Protocol

open Framing Framing.AnnexB Machine

/-- `VideoMessage.NAL_PPS`. -/
def nalPps : ℤ := 8

/-- A VIDEO_DATA message in an array, its H.264 part written as NAL units. -/
structure VideoFrame where
  payload : List Byte
  length : ℕ
  inside : length ≤ payload.length
  msg : VideoMessage
  parsed : VideoMessage.parse (some payload) length = some msg
  units : List (StartCode × NalUnit)
  data_eq : (payload.drop msg.dataOffset).take msg.dataLength = encode units

namespace VideoFrame

/-- The NAL units of a frame. -/
def nals (f : VideoFrame) : List NalUnit := f.units.map Prod.snd

/-- The first unit is an SPS, and `firstNalType` gets to see its type: the walk stops
four bytes before the end. -/
def OpensWithSps (f : VideoFrame) : Prop :=
  (∃ n ∈ f.nals.head?, (n.unitType : ℤ) = nalSps) ∧ 4 < f.msg.dataLength

instance (f : VideoFrame) : Decidable f.OpensWithSps := inferInstanceAs (Decidable (_ ∧ _))

end VideoFrame

/-- The most recent unit of a type in a stream. -/
def latest (t : ℤ) (fs : List VideoFrame) : Option NalUnit :=
  ((fs.flatMap VideoFrame.nals).filter fun n => (n.unitType : ℤ) = t).getLast?

/-- The last frame that starts with an SPS. -/
def lastOpening (fs : List VideoFrame) : Option VideoFrame :=
  (fs.filter fun f => f.OpensWithSps).getLast?

namespace ParameterSetCache

/-- `offer` as a step, its answer dropped. -/
def offered (c : ParameterSetCache) (f : VideoFrame) : ParameterSetCache :=
  (c.offer f.msg f.payload).2

/-- Once the stream has had an SPS and a PPS, `parameterSets()` has the most recent of
both. -/
def Retains (c : ParameterSetCache) (fs : List VideoFrame) : Prop :=
  ∀ sps ∈ latest nalSps fs, ∀ pps ∈ latest nalPps fs,
    ∃ bs ∈ c.parameterSets, Carries bs sps ∧ Carries bs pps

end ParameterSetCache

/-- The last frame that starts with an SPS has the most recent SPS and PPS, once there
are both. -/
def Together (fs : List VideoFrame) : Prop :=
  ∀ sps ∈ latest nalSps fs, ∀ pps ∈ latest nalPps fs,
    ∃ f ∈ lastOpening fs, sps ∈ f.nals ∧ pps ∈ f.nals

/-! ### The walk over a stream of units -/

/-- The walk in an array, from an offset on. -/
theorem firstNalTypeLoop_drop (data : List Byte) (o stop n i : ℕ) :
    firstNalTypeLoop data (o + stop) n (o + i) = firstNalTypeLoop (data.drop o) stop n i := by
  have hbyte : ∀ j, byteAt (data.drop o) j = byteAt data (o + j) := by
    intro j
    simp only [byteAt, List.getD_eq_getElem?_getD, List.getElem?_drop]
  induction n generalizing i with
  | zero => rfl
  | succ n ih =>
      have hstop : (o + i + 4 < o + stop) = (i + 4 < stop) := propext (by omega)
      simp only [firstNalTypeLoop, hbyte, ← Nat.add_assoc, hstop]
      rw [Nat.add_assoc o i 1, ih (i + 1)]

/-- The walk looks at the H.264 part only. -/
theorem firstNalType_data (data : List Byte) (offset length : ℕ) :
    firstNalType data offset length = firstNalType ((data.drop offset).take length) 0 length := by
  have htake := firstNalType_take (data.drop offset) 0 length
  rw [Nat.zero_add] at htake
  rw [htake, firstNalType, firstNalType, Nat.zero_add, Nat.sub_zero,
    show offset + length - 4 - offset = length - 4 by omega,
    ← firstNalTypeLoop_drop data offset length (length - 4) 0]
  rfl

/-- **The first unit.**  Its type is found unless the walk ends before it starts. -/
theorem firstNalType_encode (u : StartCode × NalUnit) (us : List (StartCode × NalUnit)) {l : ℕ} :
    firstNalType (encode (u :: us)) 0 l = if 4 < l then (u.2.unitType : ℤ) else -1 := by
  obtain ⟨c, n⟩ := u
  have hhead : ∀ bs, byteAt (n.bytes ++ bs) 0 = byteAt n.bytes 0 := fun bs =>
    byteAt_append_left (List.length_pos_iff.2 n.ne_nil)
  rw [firstNalType, Nat.zero_add, Nat.sub_zero, encode_cons]
  by_cases hl : 4 < l
  · obtain ⟨k, hk⟩ : ∃ k, l - 4 = k + 1 := ⟨l - 5, by omega⟩
    rw [hk, if_pos hl, firstNalTypeLoop, NalUnit.unitType]
    cases c with
    | three =>
        rw [← hhead (encode us)]
        rfl
    | four =>
        have hfour : (0 : ℕ) + 4 < l := by omega
        rw [← hhead (encode us)]
        simp [StartCode.bytes, byteAt, hfour]
  · rw [if_neg hl, show l - 4 = 0 by omega, firstNalTypeLoop]

namespace VideoFrame

/-- The unit at the front, which every frame has. -/
theorem exists_units (f : VideoFrame) : ∃ u us, f.units = u :: us := by
  obtain ⟨hoffset, hlength⟩ := VideoMessage.parse_range f.parsed
  have hlong : metadataSize < f.length := by
    by_contra hshort
    have hparsed := f.parsed
    rw [VideoMessage.parse, if_pos (Nat.le_of_not_lt hshort)] at hparsed
    cases hparsed
  have hdata := congrArg List.length f.data_eq
  have hin := f.inside
  rw [List.length_take, List.length_drop] at hdata
  cases hunits : f.units with
  | nil =>
      rw [hunits, encode_nil, List.length_nil] at hdata
      omega
  | cons u us => exact ⟨u, us, rfl⟩

/-- **What `offer` looks at.** -/
theorem opensWithSps_iff (f : VideoFrame) :
    firstNalType f.payload f.msg.dataOffset f.msg.dataLength = nalSps ↔ f.OpensWithSps := by
  obtain ⟨u, us, hunits⟩ := f.exists_units
  rw [firstNalType_data, f.data_eq, hunits, firstNalType_encode, OpensWithSps, nals, hunits,
    List.map_cons, List.head?_cons]
  by_cases hlong : 4 < f.msg.dataLength
  · rw [if_pos hlong]
    constructor
    · intro htype
      exact ⟨⟨u.2, rfl, htype⟩, hlong⟩
    · rintro ⟨⟨n, hn, htype⟩, -⟩
      obtain rfl := Option.some.inj hn
      exact htype
  · rw [if_neg hlong]
    constructor
    · intro htype
      cases htype
    · rintro ⟨-, hl⟩
      exact absurd hl hlong

end VideoFrame

/-! ### The cache over a stream -/

theorem lastOpening_concat (fs : List VideoFrame) (f : VideoFrame) :
    lastOpening (fs ++ [f]) = if f.OpensWithSps then some f else lastOpening fs := by
  by_cases hopens : f.OpensWithSps
  · have hone : [f].filter (fun f => f.OpensWithSps) = [f] := by simp [hopens]
    rw [lastOpening, List.filter_append, hone, List.getLast?_concat, if_pos hopens]
  · have hone : [f].filter (fun f => f.OpensWithSps) = [] := by simp [hopens]
    rw [lastOpening, List.filter_append, hone, List.append_nil, if_neg hopens, lastOpening]

theorem latest_concat (t : ℤ) (fs : List VideoFrame) (f : VideoFrame) :
    latest t (fs ++ [f]) =
      (f.nals.filter fun n => (n.unitType : ℤ) = t).getLast?.or (latest t fs) := by
  simp only [latest, List.flatMap_append, List.flatMap_singleton, List.filter_append,
    List.getLast?_append]

namespace ParameterSetCache

/-- A frame that starts with an SPS takes the place of what was there. -/
theorem parameterSets_offered (c : ParameterSetCache) (f : VideoFrame) :
    (c.offered f).parameterSets =
      if f.OpensWithSps then some (encode f.units) else c.parameterSets := by
  by_cases hopens : f.OpensWithSps
  · have hsps := f.opensWithSps_iff.2 hopens
    rw [offered, offer, if_neg (not_not.2 hsps), if_pos hopens, f.data_eq]
  · have hsps := mt f.opensWithSps_iff.1 hopens
    rw [offered, offer, if_pos hsps, if_neg hopens]

/-- **The cache holds the last frame that starts with an SPS.** -/
theorem parameterSets_run (c : ParameterSetCache) (fs : List VideoFrame) :
    (run offered c.clear fs).parameterSets = (lastOpening fs).map fun f => encode f.units := by
  induction fs using List.reverseRecOn with
  | nil => rfl
  | append_singleton fs f ih =>
      rw [run_append, run_cons, run_nil, parameterSets_offered, lastOpening_concat, ih]
      by_cases hopens : f.OpensWithSps
      · rw [if_pos hopens, if_pos hopens, Option.map_some]
      · rw [if_neg hopens, if_neg hopens]

/-- **When the cache has the parameter sets of the stream.** -/
theorem retains_iff (c : ParameterSetCache) (fs : List VideoFrame) :
    (run offered c.clear fs).Retains fs ↔ Together fs := by
  rw [Retains, Together, parameterSets_run]
  refine forall₄_congr fun sps _ pps _ => ?_
  constructor
  · rintro ⟨bs, hbs, hsps, hpps⟩
    obtain ⟨f, hf, rfl⟩ := Option.map_eq_some_iff.1 hbs
    exact ⟨f, hf, carries_encode.1 hsps, carries_encode.1 hpps⟩
  · rintro ⟨f, hf, hsps, hpps⟩
    exact ⟨_, Option.map_eq_some_iff.2 ⟨f, hf, rfl⟩, carries_encode.2 hsps, carries_encode.2 hpps⟩

end ParameterSetCache

/-- An access unit delimiter, an SPS and a PPS. -/
def delimitedUnits : List (StartCode × NalUnit) :=
  [(.four, ⟨[0x09, 0xF0], by decide, by decide, by decide, by decide⟩),
    (.four, ⟨[0x67, 0x42, 0xC0, 0x1E], by decide, by decide, by decide, by decide⟩),
    (.four, ⟨[0x68, 0xCE, 0x3C, 0x80], by decide, by decide, by decide, by decide⟩)]

/-- They come in one frame, 800 by 480. -/
def delimited : VideoFrame where
  payload := le32 800 ++ le32 480 ++ le32 3 ++ le32 0 ++ le32 0 ++ encode delimitedUnits
  length := 42
  inside := by decide
  msg := ⟨800, 480, 3, 20, 22⟩
  parsed := by decide
  units := delimitedUnits
  data_eq := by decide

/-- The delimiter is the first unit, so nothing is kept. -/
theorem ParameterSetCache.not_retains_delimited :
    ¬ (run offered empty.clear [delimited]).Retains [delimited] := by
  intro h
  obtain ⟨bs, hbs, -⟩ := h _ (Option.get_mem (by decide)) _ (Option.get_mem (by decide))
  have hnone : (run offered empty.clear [delimited]).parameterSets = none := by decide
  rw [hnone] at hbs
  cases hbs

/-! ### Streams that keep their sets together -/

/-- A frame has a unit of a type. -/
def VideoFrame.Has (f : VideoFrame) (t : ℤ) : Prop := ∃ n ∈ f.nals, (n.unitType : ℤ) = t

/-- The sets come as a whole: a frame with one of them starts with the SPS and has a
PPS. -/
def VideoFrame.Whole (f : VideoFrame) : Prop :=
  f.Has nalSps ∨ f.Has nalPps → f.OpensWithSps ∧ f.Has nalPps

theorem VideoFrame.OpensWithSps.has {f : VideoFrame} (h : f.OpensWithSps) : f.Has nalSps := by
  obtain ⟨⟨n, hn, htype⟩, -⟩ := h
  exact ⟨n, List.mem_of_mem_head? hn, htype⟩

/-- A frame with a unit of the type brings the most recent one. -/
theorem VideoFrame.Has.exists_latest {f : VideoFrame} {t : ℤ} (h : f.Has t) :
    ∃ n ∈ f.nals, ∀ fs, latest t (fs ++ [f]) = some n := by
  obtain ⟨n, hn, htype⟩ := h
  have hmem : n ∈ f.nals.filter fun n => (n.unitType : ℤ) = t :=
    List.mem_filter.2 ⟨hn, decide_eq_true htype⟩
  have hlast := List.getLast?_eq_some_getLast (List.ne_nil_of_mem hmem)
  refine ⟨_, (List.mem_filter.1 (List.mem_of_getLast? hlast)).1, fun fs => ?_⟩
  rw [latest_concat, hlast, Option.some_or]

/-- A frame without one leaves it as it is. -/
theorem latest_of_not_has {f : VideoFrame} {t : ℤ} (h : ¬ f.Has t) (fs : List VideoFrame) :
    latest t (fs ++ [f]) = latest t fs := by
  have hnone : f.nals.filter (fun n => (n.unitType : ℤ) = t) = [] :=
    List.filter_eq_nil_iff.2 fun n hn htype => h ⟨n, hn, of_decide_eq_true htype⟩
  rw [latest_concat, hnone, List.getLast?_nil, Option.none_or]

/-- **A stream whose sets come as a whole keeps them together.** -/
theorem together_of_whole (fs : List VideoFrame) (h : ∀ f ∈ fs, f.Whole) : Together fs := by
  induction fs using List.reverseRecOn with
  | nil =>
      intro sps hsps
      cases hsps
  | append_singleton fs f ih =>
      rw [Together, lastOpening_concat]
      have hwhole := h f (List.mem_concat_self)
      by_cases hopens : f.OpensWithSps
      · obtain ⟨s, hs, hsps⟩ := hopens.has.exists_latest
        obtain ⟨p, hp, hpps⟩ := (hwhole (.inl hopens.has)).2.exists_latest
        rintro sps hs' pps hp'
        rw [hsps fs] at hs'
        rw [hpps fs] at hp'
        obtain rfl := Option.some.inj hs'
        obtain rfl := Option.some.inj hp'
        exact ⟨f, by rw [if_pos hopens]; rfl, hs, hp⟩
      · have hsps : ¬ f.Has nalSps := fun hhas => hopens (hwhole (.inl hhas)).1
        have hpps : ¬ f.Has nalPps := fun hhas => hopens (hwhole (.inr hhas)).1
        rw [if_neg hopens, latest_of_not_has hsps, latest_of_not_has hpps]
        exact ih fun g hg => h g (List.mem_append_left _ hg)

end Protocol
end Carlinkit
