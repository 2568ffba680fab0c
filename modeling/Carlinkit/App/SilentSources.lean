/-
# When the microphone changes its source

`CarlinkitMicrophone.captureLoop` reads chunk after chunk from one `AudioRecord`.  A source
that opens and then delivers digital zero is not routed to the app: after fifty such chunks
in a row, and only if nothing was ever heard in this capture, `switchToNextSource` goes on to
the next one of `SOURCES`.

`CaptureThreads` has the same loop among the other threads, with the counters but without
what the chunks hold; here is one capture by itself, with every byte that it reads, from
`startLocked` on.  `stop` may come at any time.  `tried` is the record of the sources that were
given to `openSource`.  `orderly_capture` says when a source is left and in which order they are
tried.
-/

import Carlinkit.App.CaptureThreads

namespace Carlinkit
namespace App
namespace Capture

open Framing Machine

/-! ### The peak of a chunk -/

/-- `(short) ((hi << 8) | (lo & 0xff))`. -/
def sample (lo hi : Byte) : ℤ :=
  ((hi.signExtend 32 <<< 8 ||| lo.setWidth 32).setWidth 16).toInt

/-- The loop of `peakOf`; a last odd byte is not looked at. -/
def peakLoop (peak : ℕ) : List Byte → ℕ
  | lo :: hi :: rest =>
      peakLoop (if peak < (sample lo hi).natAbs then (sample lo hi).natAbs else peak) rest
  | _ => peak

/-- `peakOf(buf, n)`, on the `n` bytes that were read. -/
def peakOf (bytes : List Byte) : ℕ := peakLoop 0 bytes

/-- The `k`-th 16-bit sample, little-endian and signed. -/
def sampleAt (bytes : List Byte) (k : ℕ) : ℤ :=
  2 ^ 8 * (byteAt bytes (2 * k + 1)).toInt + (byteAt bytes (2 * k)).toNat

/-- All samples are zero. -/
def Silent (bytes : List Byte) : Prop := ∀ k, 2 * k + 1 < bytes.length → sampleAt bytes k = 0

/-! ### The loop -/

/-- A result of `AudioRecord.read`; no bytes are an empty read. -/
inductive Read
  | threw
  | failed
  | got (bytes : List Byte)
deriving DecidableEq, Repr

/-- What `captureLoop` works on, and the sources tried since the capture began. -/
structure Loop where
  running : Bool
  /-- The thread is in its loop. -/
  inLoop : Bool
  sourceIndex : ℕ
  chunks : ℕ
  peakAll : ℕ
  silentChunks : ℕ
  consecutiveSilent : ℕ
  tried : List ℕ
deriving DecidableEq, Repr

namespace Loop

/-- `openSource` on the sources from `i` on, `n` of them at most, up to one that opens: those
that were tried, and the index at the end. -/
def openFrom (opens : ℕ → Bool) : ℕ → ℕ → List ℕ × ℕ
  | 0, i => ([], i)
  | n + 1, i =>
      if opens i then ([i], i)
      else (i :: (openFrom opens n (i + 1)).1, (openFrom opens n (i + 1)).2)

/-- `startLocked`, up to the start of the thread. -/
def startLocked (opens : ℕ → Bool) (s : Loop) : Bool × Loop :=
  if s.running then (true, s)
  else if (openFrom opens sourceCount 0).2 < sourceCount then
    (true, ⟨true, true, (openFrom opens sourceCount 0).2, 0, 0, 0, 0,
      (openFrom opens sourceCount 0).1⟩)
  else (false, { s with sourceIndex := (openFrom opens sourceCount 0).2 })

/-- `switchToNextSource`. -/
def switchToNextSource (opens : ℕ → Bool) (s : Loop) : Bool × Loop :=
  if s.running = false then (false, s)
  else
    let found := openFrom opens (sourceCount - (s.sourceIndex + 1)) (s.sourceIndex + 1)
    if found.2 < sourceCount then
      (true, { s with
        sourceIndex := found.2, tried := s.tried ++ found.1, consecutiveSilent := 0 })
    else (false, { s with sourceIndex := found.2, tried := s.tried ++ found.1 })

/-- The `finally` of `captureLoop`. -/
def finish (s : Loop) : Loop := { s with running := false, inLoop := false }

/-- A chunk of the given peak, up to its sending. -/
def hear (opens : ℕ → Bool) (peak : ℕ) (s : Loop) : Loop :=
  let s := { s with
    chunks := s.chunks + 1, peakAll := if s.peakAll < peak then peak else s.peakAll }
  if peak = 0 then
    let s := { s with
      silentChunks := s.silentChunks + 1, consecutiveSilent := s.consecutiveSilent + 1 }
    if s.peakAll = 0 ∧ silentChunksBeforeSwitch ≤ s.consecutiveSilent ∧
        s.sourceIndex + 1 < sourceCount then
      if (s.switchToNextSource opens).1 then (s.switchToNextSource opens).2
      else (s.switchToNextSource opens).2.finish
    else s
  else { s with consecutiveSilent := 0 }

/-- One turn of `captureLoop`; `stopped` says that `stop` comes during the read. -/
def turn (read : Read) (stopped : Bool) (opens : ℕ → Bool) (s : Loop) : Loop :=
  if s.inLoop = false then s
  else if s.running = false then s.finish
  else
    let s := { s with running := !stopped }
    match read with
    | .threw | .failed => s.finish
    | .got bytes => if bytes = [] then s else s.hear opens (peakOf bytes)

/-- A turn of the loop, with what `read` and `openSource` do, or a `stop` from outside. -/
inductive Event
  | turn (read : Read) (stopped : Bool) (opens : ℕ → Bool)
  | stop

/-- One event. -/
def step (s : Loop) : Event → Loop
  | .turn read stopped opens => s.turn read stopped opens
  | .stop => { s with running := false }

/-- The chunk that an event reads. -/
def chunkOf (s : Loop) : Event → Option (List Byte)
  | .turn (.got bytes) _ _ =>
      if s.inLoop = true ∧ s.running = true ∧ bytes ≠ [] then some bytes else none
  | _ => none

end Loop

/-- The chunks that were read, since the capture began and since its source was opened. -/
structure Heard where
  chunks : List (List Byte)
  since : List (List Byte)
deriving DecidableEq, Repr

/-- Before the first chunk. -/
def Heard.nothing : Heard := ⟨[], []⟩

/-- What was read after an event. -/
def Heard.see (s : Loop) (x : Heard) (e : Loop.Event) : Heard :=
  match s.chunkOf e with
  | none => x
  | some bytes =>
      ⟨x.chunks ++ [bytes], if (s.step e).tried = s.tried then x.since ++ [bytes] else []⟩

/-- A capture beside what it has read. -/
abbrev Listened := Loop × Heard

/-- The event leaves the source. -/
def Loop.Leaves (s : Loop) (e : Loop.Event) : Prop :=
  (s.step e).tried ≠ s.tried ∨ (s.step e).sourceIndex ≠ s.sourceIndex

/-- What holds of each event of a capture. -/
structure Orderly (x : Listened) (e : Loop.Event) : Prop where
  /-- A source is left when a chunk is read, and with it nothing but silence was read, fifty
  chunks of it since the source was opened. -/
  silence : x.1.Leaves e → ∃ bytes, x.1.chunkOf e = some bytes ∧
    (∀ c ∈ x.2.chunks ++ [bytes], Silent c) ∧ 50 ≤ (x.2.since ++ [bytes]).length
  /-- The sources are tried in the order of `SOURCES`, from the first one on. -/
  order : (x.1.step e).tried <+: List.range sourceCount
  /-- What was heard keeps its source. -/
  kept : (∃ c ∈ (x.2.see x.1 e).chunks, ¬ Silent c) → ¬ x.1.Leaves e

/-! ### Peaks -/

/-- The cast to `short` makes the signed little-endian number of the two bytes. -/
theorem sample_eq (lo hi : Byte) : sample lo hi = 2 ^ 8 * hi.toInt + lo.toNat := by
  have happend : (hi.signExtend 32 <<< 8 ||| lo.setWidth 32).setWidth 16 = hi ++ lo := by
    ext i hlt
    rw [BitVec.getElem_append]
    simp only [BitVec.getElem_setWidth, BitVec.getLsbD_or, BitVec.getLsbD_shiftLeft,
      BitVec.getLsbD_signExtend, BitVec.getLsbD_setWidth]
    have h32 : i < 32 := by omega
    by_cases h8 : i < 8
    · simp [h8, h32, BitVec.getLsbD_eq_getElem]
    · have hbyte : i - 8 < 8 := by omega
      have hword : i - 8 < 32 := by omega
      have hlow : lo.getLsbD i = false := BitVec.getLsbD_of_ge lo i (Nat.le_of_not_lt h8)
      simp [h8, h32, hbyte, hword, hlow, BitVec.getLsbD_eq_getElem]
  rw [sample, happend, BitVec.toInt_append]
  rfl

theorem sampleAt_zero (lo hi : Byte) (rest : List Byte) :
    sampleAt (lo :: hi :: rest) 0 = sample lo hi := (sample_eq lo hi).symm

theorem sampleAt_succ (lo hi : Byte) (rest : List Byte) (k : ℕ) :
    sampleAt (lo :: hi :: rest) (k + 1) = sampleAt rest k := rfl

theorem silent_cons_iff {lo hi : Byte} {rest : List Byte} :
    Silent (lo :: hi :: rest) ↔ sample lo hi = 0 ∧ Silent rest := by
  constructor
  · intro h
    refine ⟨?_, fun k hk => ?_⟩
    · rw [← sampleAt_zero lo hi rest]
      exact h 0 (by simp)
    · rw [← sampleAt_succ lo hi rest]
      exact h (k + 1) (by simp only [List.length_cons]; omega)
  · rintro ⟨hfirst, hrest⟩ k hk
    cases k with
    | zero => rw [sampleAt_zero, hfirst]
    | succ k =>
        rw [sampleAt_succ]
        exact hrest k (by simp only [List.length_cons] at hk; omega)

theorem peakLoop_eq_zero_iff (peak : ℕ) (bytes : List Byte) :
    peakLoop peak bytes = 0 ↔ peak = 0 ∧ Silent bytes := by
  induction peak, bytes using peakLoop.induct with
  | case1 peak lo hi rest ih =>
      have hmax : (if peak < (sample lo hi).natAbs then (sample lo hi).natAbs else peak) = 0 ↔
          peak = 0 ∧ sample lo hi = 0 := by
        split_ifs <;> omega
      rw [peakLoop, ih, hmax, silent_cons_iff, and_assoc]
  | case2 bytes peak hshort =>
      have hsilent : Silent bytes := by
        intro k hk
        rcases bytes with _ | ⟨lo, _ | ⟨hi, rest⟩⟩
        · simp at hk
        · simp at hk
        · exact absurd rfl (hshort lo hi rest)
      rw [peakLoop]
      · exact (and_iff_left hsilent).symm
      · exact hshort

/-- **The peak of a chunk is zero exactly when all its samples are.** -/
theorem peakOf_eq_zero_iff (bytes : List Byte) : peakOf bytes = 0 ↔ Silent bytes := by
  rw [peakOf, peakLoop_eq_zero_iff, eq_self, true_and]

/-! ### One event -/

namespace Loop

/-- The sources that are tried follow one another, up to the one that opens. -/
theorem openFrom_spec (opens : ℕ → Bool) (n i : ℕ) :
    i ≤ (openFrom opens n i).2 ∧ (openFrom opens n i).2 ≤ i + n ∧
      (openFrom opens n i).1 =
        List.range' i (min ((openFrom opens n i).2 + 1) (i + n) - i) := by
  induction n generalizing i with
  | zero =>
      refine ⟨Nat.le_refl i, Nat.le_refl i, ?_⟩
      rw [show min ((openFrom opens 0 i).2 + 1) (i + 0) - i = 0 by omega]
      rfl
  | succ n ih =>
      rw [openFrom]
      split_ifs
      · refine ⟨Nat.le_refl i, by omega, ?_⟩
        rw [show min (i + 1) (i + (n + 1)) - i = 1 by omega]
        rfl
      · obtain ⟨hfirst, hlast, htried⟩ := ih (i + 1)
        refine ⟨by omega, by omega, ?_⟩
        show i :: (openFrom opens n (i + 1)).1 = List.range' i
          (min ((openFrom opens n (i + 1)).2 + 1) (i + (n + 1)) - i)
        rw [htried, ← List.range'_succ]
        congr 1
        omega

/-- What an event does to a capture. -/
inductive Move (s : Loop) (e : Event) (s' : Loop) : Prop
  /-- No chunk was read. -/
  | quiet (chunk : s.chunkOf e = none) (tried : s'.tried = s.tried)
      (source : s'.sourceIndex = s.sourceIndex) (peak : s'.peakAll = s.peakAll)
      (silent : s'.consecutiveSilent = s.consecutiveSilent)
      (inLoop : s'.inLoop = true → s.inLoop = true)
  /-- A chunk, and the source stays. -/
  | stay (bytes : List Byte) (chunk : s.chunkOf e = some bytes) (tried : s'.tried = s.tried)
      (source : s'.sourceIndex = s.sourceIndex)
      (peak : s'.peakAll = 0 ↔ s.peakAll = 0 ∧ peakOf bytes = 0)
      (silent : s'.consecutiveSilent ≤ s.consecutiveSilent + 1)
  /-- A silent chunk, and the next sources are tried. -/
  | leave (bytes : List Byte) (chunk : s.chunkOf e = some bytes) (silence : peakOf bytes = 0)
      (nothing : s.peakAll = 0) (fifty : 50 ≤ s.consecutiveSilent + 1)
      (room : s.sourceIndex + 1 < sourceCount) (ahead : s.sourceIndex < s'.sourceIndex)
      (tried : s'.tried = s.tried ++ List.range' (s.sourceIndex + 1)
        (min (s'.sourceIndex + 1) sourceCount - (s.sourceIndex + 1)))
      (peak : s'.peakAll = 0) (silent : s'.inLoop = true → s'.consecutiveSilent = 0)

/-- What `switchToNextSource` does while there is a next source. -/
theorem switch_spec (opens : ℕ → Bool) {s : Loop} (hroom : s.sourceIndex + 1 < sourceCount) :
    s.switchToNextSource opens = (false, s) ∨
      ∃ opened j, s.sourceIndex < j ∧ s.switchToNextSource opens =
        (opened, { s with
          sourceIndex := j
          tried := s.tried ++ List.range' (s.sourceIndex + 1)
            (min (j + 1) sourceCount - (s.sourceIndex + 1))
          consecutiveSilent := if opened then 0 else s.consecutiveSilent }) := by
  obtain ⟨hfirst, -, htried⟩ := openFrom_spec opens (sourceCount - (s.sourceIndex + 1))
    (s.sourceIndex + 1)
  rw [Nat.add_sub_cancel' (Nat.le_of_lt hroom)] at htried
  simp only [switchToNextSource]
  split_ifs with hstopped hopened
  · exact .inl rfl
  · exact .inr ⟨true, _, hfirst, by rw [htried]; rfl⟩
  · exact .inr ⟨false, _, hfirst, by rw [htried]; rfl⟩

/-- **A chunk keeps its source, or fifty silent ones lead to the next.** -/
theorem move_hear {s : Loop} {e : Event} {bytes : List Byte} (running : Bool)
    (opens : ℕ → Bool) (hchunk : s.chunkOf e = some bytes) :
    s.Move e (hear opens (peakOf bytes) { s with running := running }) := by
  by_cases hsilent : peakOf bytes = 0
  · have hpeak : s.peakAll = 0 ↔ s.peakAll = 0 ∧ peakOf bytes = 0 :=
      (and_iff_left hsilent).symm
    simp only [hear, hsilent, Nat.not_lt_zero, if_false, if_true]
    by_cases hswitch : s.peakAll = 0 ∧ silentChunksBeforeSwitch ≤ s.consecutiveSilent + 1 ∧
        s.sourceIndex + 1 < sourceCount
    · obtain ⟨hnothing, hfifty, hroom⟩ := hswitch
      rw [if_pos ⟨hnothing, hfifty, hroom⟩]
      rcases switch_spec opens (s := ⟨running, s.inLoop, s.sourceIndex, s.chunks + 1, s.peakAll,
        s.silentChunks + 1, s.consecutiveSilent + 1, s.tried⟩) hroom with hf | ⟨opened, j, hj, hf⟩
      · rw [hf]
        exact .stay bytes hchunk rfl rfl hpeak (Nat.le_refl _)
      · rw [hf]
        cases opened with
        | true =>
            exact .leave bytes hchunk hsilent hnothing hfifty hroom hj rfl hnothing fun _ => rfl
        | false =>
            exact .leave bytes hchunk hsilent hnothing hfifty hroom hj rfl hnothing
              fun hin => Bool.noConfusion hin
    · rw [if_neg hswitch]
      exact .stay bytes hchunk rfl rfl hpeak (Nat.le_refl _)
  · have hpeak : (if s.peakAll < peakOf bytes then peakOf bytes else s.peakAll) = 0 ↔
        s.peakAll = 0 ∧ peakOf bytes = 0 := by
      split_ifs <;> omega
    simp only [hear, if_neg hsilent]
    exact .stay bytes hchunk rfl rfl hpeak (Nat.zero_le _)

/-- **What an event can do.** -/
theorem move_step (s : Loop) (e : Event) : s.Move e (s.step e) := by
  cases e with
  | stop => exact .quiet rfl rfl rfl rfl rfl id
  | turn read stopped opens =>
      simp only [step, turn]
      split_ifs with hout hstopped
      · have hchunk : s.chunkOf (.turn read stopped opens) = none := by
          cases read <;> simp [chunkOf, hout]
        exact .quiet hchunk rfl rfl rfl rfl id
      · have hchunk : s.chunkOf (.turn read stopped opens) = none := by
          cases read <;> simp [chunkOf, hstopped]
        exact .quiet hchunk rfl rfl rfl rfl fun hin => Bool.noConfusion hin
      · cases read with
        | threw => exact .quiet rfl rfl rfl rfl rfl fun hin => Bool.noConfusion hin
        | failed => exact .quiet rfl rfl rfl rfl rfl fun hin => Bool.noConfusion hin
        | got bytes =>
            by_cases hempty : bytes = []
            · have hchunk : s.chunkOf (.turn (.got bytes) stopped opens) = none := by
                simp [chunkOf, hempty]
              simp only [if_pos hempty]
              exact .quiet hchunk rfl rfl rfl rfl id
            · have hchunk : s.chunkOf (.turn (.got bytes) stopped opens) = some bytes := by
                simp [chunkOf, hempty, hout, hstopped]
              simp only [if_neg hempty]
              exact move_hear (!stopped) opens hchunk

end Loop

/-! ### A capture -/

/-- The counters agree with what was read. -/
structure Fair (x : Listened) : Prop where
  /-- `peakAll` is zero as long as nothing was heard. -/
  peak : x.1.peakAll = 0 ↔ ∀ c ∈ x.2.chunks, Silent c
  /-- `consecutiveSilent` counts chunks of the current source. -/
  silent : x.1.inLoop = true → x.1.consecutiveSilent ≤ x.2.since.length
  /-- All sources up to the current one were tried, each once. -/
  tried : x.1.tried = List.range (min (x.1.sourceIndex + 1) sourceCount)

/-- With a silent chunk more, all is silent exactly when it was. -/
theorem forall_mem_concat_silent {cs : List (List Byte)} {c : List Byte} :
    (∀ d ∈ cs ++ [c], Silent d) ↔ (∀ d ∈ cs, Silent d) ∧ Silent c := by
  rw [List.forall_mem_append, List.forall_mem_singleton]

/-- A turn that reads a chunk is one of a running loop. -/
theorem Loop.inLoop_of_chunkOf {s : Loop} {e : Loop.Event} {bytes : List Byte}
    (h : s.chunkOf e = some bytes) : s.inLoop = true := by
  cases e with
  | stop => cases h
  | turn read stopped opens =>
      cases read with
      | threw | failed => cases h
      | got chunk =>
          by_contra hout
          simp [Loop.chunkOf, hout] at h

/-- The sources tried from the next one on continue those before. -/
theorem range_append_range' {i j n : ℕ} (hi : i + 1 < n) (hij : i < j) :
    List.range (min (i + 1) n) ++ List.range' (i + 1) (min (j + 1) n - (i + 1)) =
      List.range (min (j + 1) n) := by
  rw [List.range_eq_range', List.range_eq_range', Nat.min_eq_left (Nat.le_of_lt hi)]
  calc List.range' 0 (i + 1) ++ List.range' (i + 1) (min (j + 1) n - (i + 1))
      = List.range' 0 (i + 1) ++ List.range' (0 + (i + 1)) (min (j + 1) n - (i + 1)) := by
        rw [Nat.zero_add]
    _ = List.range' 0 (i + 1 + (min (j + 1) n - (i + 1))) := List.range'_append_1 ..
    _ = List.range' 0 (min (j + 1) n) := by
        congr 1
        omega

/-- **An event keeps the counters in step with what was read.** -/
theorem fair_step (x : Listened) (e : Loop.Event) (h : Fair x) :
    Fair (watched Loop.step Heard.see x e) := by
  obtain ⟨s, a⟩ := x
  obtain ⟨hpeak, hsilent, htried⟩ := h
  have hmove := Loop.move_step s e
  show Fair (s.step e, a.see s e)
  cases hmove with
  | quiet chunk tried source peak silent inLoop =>
      have hsee : a.see s e = a := by rw [Heard.see, chunk]
      rw [hsee]
      refine ⟨?_, fun hin => ?_, ?_⟩
      · rw [peak]
        exact hpeak
      · rw [silent]
        exact hsilent (inLoop hin)
      · rw [tried, source]
        exact htried
  | stay bytes chunk tried source peak silent =>
      have hsee : a.see s e = ⟨a.chunks ++ [bytes], a.since ++ [bytes]⟩ := by
        rw [Heard.see, chunk]
        simp only [if_pos tried]
      rw [hsee]
      refine ⟨?_, fun _ => ?_, ?_⟩
      · rw [forall_mem_concat_silent, peak, peakOf_eq_zero_iff]
        exact and_congr_left fun _ => hpeak
      · have hbefore := hsilent (Loop.inLoop_of_chunkOf chunk)
        simp only [List.length_append, List.length_singleton]
        exact Nat.le_trans silent (Nat.succ_le_succ hbefore)
      · rw [tried, source]
        exact htried
  | leave bytes chunk silence nothing fifty room ahead tried peak silent =>
      have hchunks : (a.see s e).chunks = a.chunks ++ [bytes] := by rw [Heard.see, chunk]
      refine ⟨?_, fun hin => ?_, ?_⟩
      · rw [hchunks, forall_mem_concat_silent]
        exact iff_of_true peak ⟨hpeak.1 nothing, (peakOf_eq_zero_iff bytes).1 silence⟩
      · show (s.step e).consecutiveSilent ≤ _
        rw [silent hin]
        exact Nat.zero_le _
      · show (s.step e).tried = _
        rw [tried, htried]
        exact range_append_range' room ahead

/-- The sources before a given one are the first ones. -/
theorem range_prefix_range {m n : ℕ} (h : m ≤ n) : List.range m <+: List.range n := by
  rw [← Nat.min_eq_left h, ← List.take_range]
  exact List.take_prefix ..

/-- **With fair counters an event is orderly.** -/
theorem orderly_of_fair (x : Listened) (e : Loop.Event) (h : Fair x) : Orderly x e := by
  have hnext := fair_step x e h
  obtain ⟨s, a⟩ := x
  have hmove := Loop.move_step s e
  have hsilence : s.Leaves e → ∃ bytes, s.chunkOf e = some bytes ∧
      (∀ c ∈ a.chunks ++ [bytes], Silent c) ∧ 50 ≤ (a.since ++ [bytes]).length := by
    intro hleaves
    cases hmove with
    | quiet chunk tried source peak silent inLoop =>
        exact absurd hleaves (not_or_intro (not_not_intro tried) (not_not_intro source))
    | stay bytes chunk tried source peak silent =>
        exact absurd hleaves (not_or_intro (not_not_intro tried) (not_not_intro source))
    | leave bytes chunk silence nothing fifty room ahead tried peak silent =>
        have hcount := h.silent (Loop.inLoop_of_chunkOf chunk)
        refine ⟨bytes, chunk, ?_, ?_⟩
        · rw [forall_mem_concat_silent]
          exact ⟨h.peak.1 nothing, (peakOf_eq_zero_iff bytes).1 silence⟩
        · rw [List.length_append, List.length_singleton]
          exact Nat.le_trans fifty (Nat.succ_le_succ hcount)
  refine ⟨hsilence, ?_, ?_⟩
  · show (s.step e).tried <+: _
    rw [show (s.step e).tried = _ from hnext.tried]
    exact range_prefix_range (Nat.min_le_right ..)
  · rintro ⟨c, hc, hheard⟩ hleaves
    obtain ⟨bytes, hchunk, hall, -⟩ := hsilence hleaves
    have hchunks : (a.see s e).chunks = a.chunks ++ [bytes] := by rw [Heard.see, hchunk]
    rw [hchunks] at hc
    exact hheard (hall c hc)

/-- A capture begins with fair counters. -/
theorem fair_started {s : Loop} {opens : ℕ → Bool} (hidle : s.running = false)
    (hopened : (s.startLocked opens).1 = true) : Fair ((s.startLocked opens).2, .nothing) := by
  obtain ⟨-, -, htried⟩ := Loop.openFrom_spec opens sourceCount 0
  simp only [Loop.startLocked, hidle, Bool.false_eq_true, if_false] at hopened ⊢
  split_ifs at hopened ⊢
  · refine ⟨iff_of_true rfl (List.forall_mem_nil _), fun _ => Nat.le_refl 0, ?_⟩
    show (Loop.openFrom opens sourceCount 0).1 = _
    rw [htried, Nat.zero_add, Nat.sub_zero, List.range_eq_range']

/-- **Only silence changes the source.**  In a capture that found a source, whatever is read,
whichever sources open later and whenever `stop` comes: a source is left only after fifty
chunks of it with nothing but silence since the capture began, the sources are tried in their
order and none twice, and a sample that is not zero keeps the source to the end. -/
theorem orderly_capture (s : Loop) (opens : ℕ → Bool) (hidle : s.running = false)
    (hopened : (s.startLocked opens).1 = true) (es : List Loop.Event) :
    Along (watched Loop.step Heard.see) Orderly ((s.startLocked opens).2, .nothing) es :=
  along_of_invariant fair_step orderly_of_fair (fair_started hidle hopened) es

/-- Before the first capture. -/
def Loop.idle : Loop := ⟨false, false, 0, 0, 0, 0, 0, []⟩

/-- A first source that delivers fifty chunks of silence, and a second one with a voice. -/
theorem orderly_routed_elsewhere :
    (Loop.idle.startLocked fun _ => true).1 = true ∧
      Along (watched Loop.step Heard.see) Orderly
        ((Loop.idle.startLocked fun _ => true).2, .nothing)
        (List.replicate 50 (.turn (.got [0, 0, 7]) false fun _ => true) ++
          [.turn (.got [0x10, 0xff]) false fun _ => true]) :=
  ⟨rfl, orderly_capture Loop.idle (fun _ => true) rfl rfl _⟩

end Capture
end App
end Carlinkit
