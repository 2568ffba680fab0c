/-
# The verdict of a capture

What `captureLoop` does with a chunk after it was read, and the line that `veredito` writes when
the loop ends.  On the head unit that line is all one has to tell a microphone that is not
routed to the app from a phone that does not listen.

A chunk is sent, or the queue refuses it, or the change of source throws it away (`Fate`).
`reported_capture` compares the line with the chunks themselves: the counts, the bytes and the
loudest sample are theirs, and at most two chunks, which are silent, are in none of the numbers
for what was sent and what was refused.
-/

import Carlinkit.App.SilentSources
import Mathlib.Algebra.BigOperators.Group.List.Basic

namespace Carlinkit
namespace App
namespace Capture

open Framing Machine

/-- `sourceLabel` of a source of `SOURCES`. -/
def sourceLabel (i : ℕ) : String :=
  match i with
  | 0 => "VOICE_RECOGNITION"
  | 1 => "VOICE_COMMUNICATION"
  | _ => "MIC"

/-- What `veredito` finds. -/
inductive Verdict
  | nothingRead
  | digitalSilence
  | noiseFloor
  | realAudio
deriving DecidableEq, Repr

/-- The tests of `veredito`. -/
def Verdict.of (chunks peak : ℕ) : Verdict :=
  if chunks = 0 then .nothingRead
  else if peak = 0 then .digitalSilence
  else if peak < 150 then .noiseFloor
  else .realAudio

/-- Its words. -/
def Verdict.text (peak : ℕ) : Verdict → String
  | .nothingRead => "NOTHING was read from the device"
  | .digitalSilence => "ALL chunks were digital silence: the head unit did not route the mic here"
  | .noiseFloor => "only noise floor (peak " ++ toString peak ++ "), no usable voice"
  | .realAudio => "real audio captured (peak " ++ toString peak ++ ")"

/-- `veredito`. -/
def veredito (chunks peak silent bytes : ℕ) (source : String) (sendFailures : ℕ) : String :=
  "mic: capture stopped. " ++ (Verdict.of chunks peak).text peak ++ " | source=" ++ source ++
    " chunks=" ++ toString chunks ++ " silent=" ++ toString silent ++ " bytesSent=" ++
    toString bytes ++ " sendFailures=" ++ toString sendFailures

/-- What becomes of a chunk. -/
inductive Fate
  | sent
  | refused
  /-- `continue` or `break` at the change of source. -/
  | dropped
deriving DecidableEq, Repr

/-- The condition of the change of source, before a chunk of the given peak is counted. -/
def Loop.Switches (s : Loop) (peak : ℕ) : Prop :=
  peak = 0 ∧ s.peakAll = 0 ∧ silentChunksBeforeSwitch ≤ s.consecutiveSilent + 1 ∧
    s.sourceIndex + 1 < sourceCount

instance (s : Loop) (peak : ℕ) : Decidable (s.Switches peak) :=
  inferInstanceAs (Decidable (_ ∧ _ ∧ _ ∧ _))

/-- The fate of a chunk; `accepted` is the result of `sendMicAudio`. -/
def Loop.fate (s : Loop) (bytes : List Byte) (accepted : Bool) : Fate :=
  if s.Switches (peakOf bytes) then .dropped else if accepted then .sent else .refused

/-- A capture with what its lines are made of. -/
structure Recorder where
  loop : Loop
  sourceName : String
  bytesSent : ℕ
  sendFailures : ℕ
  /-- The lines about the sending, and the verdict. -/
  log : List String
deriving DecidableEq, Repr

/-- An event of the loop, and whether `send` takes a chunk. -/
abbrev Turn := Loop.Event × Bool

namespace Recorder

/-- The line about a chunk that could not be sent. -/
def failedLine (n : ℕ) : String := "mic: sendMicAudio failed " ++ toString n ++ "x"

/-- `startLocked`. -/
def startLocked (opens : ℕ → Bool) (r : Recorder) : Bool × Recorder :=
  if r.loop.running then (true, r)
  else if (r.loop.startLocked opens).1 then
    (true, ⟨(r.loop.startLocked opens).2, sourceLabel (r.loop.startLocked opens).2.sourceIndex,
      0, 0, r.log⟩)
  else (false, { r with loop := (r.loop.startLocked opens).2 })

/-- The chunk after `peakOf`. -/
def pass (r : Recorder) (loop : Loop) : Fate → List Byte → Recorder
  | .dropped, _ =>
      { r with
        loop := loop
        sourceName := if loop.inLoop then sourceLabel loop.sourceIndex else r.sourceName }
  | .sent, bytes => { r with loop := loop, bytesSent := r.bytesSent + bytes.length }
  | .refused, _ =>
      { r with
        loop := loop
        sendFailures := r.sendFailures + 1
        log :=
          if r.sendFailures + 1 = 1 ∨ (r.sendFailures + 1) % 100 = 0 then
            r.log ++ [failedLine (r.sendFailures + 1)]
          else r.log }

/-- The `finally`, where the loop has ended. -/
def closing (wasInLoop : Bool) (r : Recorder) : Recorder :=
  if wasInLoop = true ∧ r.loop.inLoop = false then
    { r with
      log := r.log ++ [veredito r.loop.chunks r.loop.peakAll r.loop.silentChunks r.bytesSent
        r.sourceName r.sendFailures] }
  else r

/-- One event. -/
def step (r : Recorder) (e : Turn) : Recorder :=
  closing r.loop.inLoop
    (match r.loop.chunkOf e.1 with
    | none => { r with loop := r.loop.step e.1 }
    | some bytes => r.pass (r.loop.step e.1) (r.loop.fate bytes e.2) bytes)

end Recorder

/-! ### What there was to report -/

/-- A chunk that was read, and its fate. -/
abbrev Known := List Byte × Fate

/-- The chunks after an event. -/
def see (r : Recorder) (known : List Known) (e : Turn) : List Known :=
  match r.loop.chunkOf e.1 with
  | none => known
  | some bytes => known ++ [(bytes, r.loop.fate bytes e.2)]

/-- The loudest sample of all chunks. -/
def loudest (known : List Known) : ℕ := known.foldl (fun n c => max n (peakOf c.1)) 0

/-- The bytes of the chunks that were sent. -/
def sentBytes (known : List Known) : ℕ :=
  ((known.filter (·.2 = .sent)).map fun c => c.1.length).sum

/-- How many chunks had a fate. -/
def count (fate : Fate) (known : List Known) : ℕ := known.countP (·.2 = fate)

/-- The verdict on the chunks. -/
def report (known : List Known) (source : String) : String :=
  veredito known.length (loudest known) (known.countP (peakOf ·.1 = 0)) (sentBytes known) source
    (count .refused known)

/-- The lines for `n` refused chunks. -/
def failedLines (n : ℕ) : List String :=
  ((List.range' 1 n).filter fun k => k = 1 ∨ k % 100 = 0).map Recorder.failedLine

/-- The chunks are as the verdict says. -/
def Verdict.Fits : Verdict → List (List Byte) → Prop
  | .nothingRead, cs => cs = []
  | .digitalSilence, cs => cs ≠ [] ∧ ∀ c ∈ cs, Silent c
  | .noiseFloor, cs =>
      (∃ c ∈ cs, ¬ Silent c) ∧
        ∀ c ∈ cs, ∀ k, 2 * k + 1 < c.length → (sampleAt c k).natAbs < 150
  | .realAudio, cs => ∃ c ∈ cs, ∃ k, 2 * k + 1 < c.length ∧ 150 ≤ (sampleAt c k).natAbs

/-- A recorder beside the chunks that it has read. -/
abbrev Kept := Recorder × List Known

/-- What the log of a capture says, after the lines `before` it. -/
structure Reported (before : List String) (x : Kept) : Prop where
  /-- Every refused chunk that is due a line has it, and the verdict comes when the loop ends. -/
  log : x.1.log = before ++ failedLines (count .refused x.2) ++
    if x.1.loop.inLoop then [] else [report x.2 x.1.sourceName]
  verdict : (Verdict.of x.2.length (loudest x.2)).Fits (x.2.map Prod.fst)
  /-- Two chunks are lost without a number at most, one for each change of source. -/
  dropped : count .dropped x.2 ≤ 2
  silent : ∀ c ∈ x.2, c.2 = .dropped → Silent c.1

/-! ### Peaks -/

theorem le_peakLoop_iff (n peak : ℕ) (bytes : List Byte) :
    n ≤ peakLoop peak bytes ↔
      n ≤ peak ∨ ∃ k, 2 * k + 1 < bytes.length ∧ n ≤ (sampleAt bytes k).natAbs := by
  induction peak, bytes using peakLoop.induct with
  | case1 peak lo hi rest ih =>
      have hmax : n ≤ (if peak < (sample lo hi).natAbs then (sample lo hi).natAbs else peak) ↔
          n ≤ peak ∨ n ≤ (sample lo hi).natAbs := by
        split_ifs <;> omega
      rw [peakLoop, ih, hmax, or_assoc]
      refine or_congr_right ⟨?_, ?_⟩
      · rintro (hfirst | ⟨k, hk, hloud⟩)
        · exact ⟨0, by simp, by rwa [sampleAt_zero]⟩
        · exact ⟨k + 1, by simp only [List.length_cons]; omega, by rwa [sampleAt_succ]⟩
      · rintro ⟨k, hk, hloud⟩
        cases k with
        | zero => exact .inl (by rwa [sampleAt_zero] at hloud)
        | succ k =>
            rw [sampleAt_succ] at hloud
            exact .inr ⟨k, by simp only [List.length_cons] at hk; omega, hloud⟩
  | case2 bytes peak hshort =>
      have hnone : ¬ ∃ k, 2 * k + 1 < bytes.length ∧ n ≤ (sampleAt bytes k).natAbs := by
        rintro ⟨k, hk, -⟩
        rcases bytes with _ | ⟨lo, _ | ⟨hi, rest⟩⟩
        · simp at hk
        · simp at hk
        · exact hshort lo hi rest rfl
      rw [peakLoop]
      · exact (or_iff_left hnone).symm
      · exact hshort

/-- **A chunk is as loud as its loudest sample.** -/
theorem lt_peakOf_iff (n : ℕ) (bytes : List Byte) :
    n < peakOf bytes ↔ ∃ k, 2 * k + 1 < bytes.length ∧ n < (sampleAt bytes k).natAbs := by
  rw [peakOf, ← Nat.succ_le_iff, le_peakLoop_iff]
  exact or_iff_right (Nat.not_succ_le_zero n)

theorem loudest_concat (known : List Known) (c : Known) :
    loudest (known ++ [c]) = max (loudest known) (peakOf c.1) := by
  rw [loudest, loudest, List.foldl_append]
  rfl

theorem lt_loudest_iff (n : ℕ) (known : List Known) :
    n < loudest known ↔ ∃ c ∈ known, n < peakOf c.1 := by
  induction known using List.reverseRecOn with
  | nil => simp [loudest]
  | append_singleton known c ih =>
      rw [loudest_concat, lt_max_iff, ih]
      simp only [List.mem_append, List.mem_singleton, or_and_right, exists_or, exists_eq_left]

/-- **The verdict fits the chunks.** -/
theorem verdict_fits (known : List Known) :
    (Verdict.of known.length (loudest known)).Fits (known.map Prod.fst) := by
  rw [Verdict.of]
  split_ifs with hnone hsilent hquiet
  · exact List.map_eq_nil_iff.2 (List.length_eq_zero_iff.1 hnone)
  · refine ⟨fun h => hnone (by rw [List.map_eq_nil_iff.1 h]; rfl), List.forall_mem_map.2 ?_⟩
    intro c hc
    by_contra hsound
    rw [← peakOf_eq_zero_iff] at hsound
    have := (lt_loudest_iff 0 known).2 ⟨c, hc, Nat.pos_of_ne_zero hsound⟩
    omega
  · obtain ⟨c, hc, hloud⟩ := (lt_loudest_iff 0 known).1 (Nat.pos_of_ne_zero hsilent)
    refine ⟨⟨c.1, List.mem_map_of_mem hc, fun h => ?_⟩, List.forall_mem_map.2 fun d hd k hk => ?_⟩
    · rw [(peakOf_eq_zero_iff c.1).2 h] at hloud
      exact Nat.lt_irrefl 0 hloud
    · by_contra hk'
      have hpeak : 149 < peakOf d.1 := (lt_peakOf_iff 149 d.1).2 ⟨k, hk, by omega⟩
      have := (lt_loudest_iff 149 known).2 ⟨d, hd, hpeak⟩
      omega
  · obtain ⟨c, hc, hloud⟩ := (lt_loudest_iff 149 known).1 (by omega)
    obtain ⟨k, hk, hsample⟩ := (lt_peakOf_iff 149 c.1).1 hloud
    exact ⟨c.1, List.mem_map_of_mem hc, k, hk, hsample⟩

/-! ### One event -/

namespace Loop

variable {s : Loop} {e : Event} {bytes : List Byte}

/-- Without a chunk the counters stay. -/
theorem step_of_chunkOf_none (h : s.chunkOf e = none) :
    (s.step e).chunks = s.chunks ∧ (s.step e).peakAll = s.peakAll ∧
      (s.step e).silentChunks = s.silentChunks ∧ (s.step e).sourceIndex = s.sourceIndex ∧
        ((s.step e).inLoop = true → s.inLoop = true) := by
  cases e with
  | stop => exact ⟨rfl, rfl, rfl, rfl, id⟩
  | turn read stopped opens =>
      simp only [step, turn]
      split_ifs with hout hstopped
      · exact ⟨rfl, rfl, rfl, rfl, id⟩
      · exact ⟨rfl, rfl, rfl, rfl, fun hin => Bool.noConfusion hin⟩
      · cases read with
        | threw => exact ⟨rfl, rfl, rfl, rfl, fun hin => Bool.noConfusion hin⟩
        | failed => exact ⟨rfl, rfl, rfl, rfl, fun hin => Bool.noConfusion hin⟩
        | got chunk =>
            have hempty : chunk = [] := by
              by_contra hread
              simp [chunkOf, hout, hstopped, hread] at h
            simp only [if_pos hempty]
            exact ⟨trivial, trivial, trivial, trivial, id⟩

/-- A chunk is heard in a running loop. -/
theorem step_of_chunkOf_some (h : s.chunkOf e = some bytes) :
    s.inLoop = true ∧ ∃ running opens,
      s.step e = hear opens (peakOf bytes) { s with running := running } := by
  refine ⟨inLoop_of_chunkOf h, ?_⟩
  cases e with
  | stop => cases h
  | turn read stopped opens =>
      cases read with
      | threw | failed => cases h
      | got chunk =>
          simp only [chunkOf, Option.ite_none_right_eq_some, Option.some.injEq] at h
          obtain ⟨⟨hin, hrun, hread⟩, rfl⟩ := h
          refine ⟨!stopped, opens, ?_⟩
          simp [step, turn, hin, hrun, hread]

/-- What hearing a chunk counts, and where the loop stands then. -/
theorem hear_spec (opens : ℕ → Bool) (peak : ℕ) (s : Loop) :
    (hear opens peak s).chunks = s.chunks + 1 ∧
      (hear opens peak s).peakAll = max s.peakAll peak ∧
        (hear opens peak s).silentChunks = s.silentChunks + (if peak = 0 then 1 else 0) ∧
          ((hear opens peak s).inLoop = true → s.inLoop = true) ∧
            (if s.Switches peak then
              (hear opens peak s).inLoop = true → s.sourceIndex < (hear opens peak s).sourceIndex
            else
              (hear opens peak s).inLoop = s.inLoop ∧
                (hear opens peak s).sourceIndex = s.sourceIndex) := by
  have hmax : (if s.peakAll < peak then peak else s.peakAll) = max s.peakAll peak := by
    split_ifs <;> omega
  by_cases hsilent : peak = 0
  · subst hsilent
    have hpeak : (if s.peakAll < 0 then 0 else s.peakAll) = s.peakAll := if_neg (Nat.not_lt_zero _)
    simp only [hear, hpeak, if_true, Nat.max_zero, Switches, true_and]
    by_cases hswitch : s.peakAll = 0 ∧ silentChunksBeforeSwitch ≤ s.consecutiveSilent + 1 ∧
        s.sourceIndex + 1 < sourceCount
    · rw [if_pos hswitch, if_pos hswitch]
      rcases switch_spec opens (s := ⟨s.running, s.inLoop, s.sourceIndex, s.chunks + 1, s.peakAll,
        s.silentChunks + 1, s.consecutiveSilent + 1, s.tried⟩) hswitch.2.2 with
        hf | ⟨opened, j, hj, hf⟩
      · rw [hf]
        exact ⟨rfl, rfl, rfl, fun h => Bool.noConfusion h, fun h => Bool.noConfusion h⟩
      · rw [hf]
        cases opened with
        | true => exact ⟨rfl, rfl, rfl, id, fun _ => hj⟩
        | false => exact ⟨rfl, rfl, rfl, fun h => Bool.noConfusion h, fun h => Bool.noConfusion h⟩
    · rw [if_neg hswitch, if_neg hswitch]
      exact ⟨rfl, rfl, rfl, id, rfl, rfl⟩
  · simp only [hear, hmax, if_neg hsilent]
    rw [if_neg fun h : s.Switches peak => hsilent h.1]
    exact ⟨trivial, trivial, rfl, id, trivial, trivial⟩

end Loop

/-! ### All events -/

/-- The counters are those of the chunks. -/
structure Counted (x : Kept) : Prop where
  chunks : x.1.loop.chunks = x.2.length
  peakAll : x.1.loop.peakAll = loudest x.2
  silentChunks : x.1.loop.silentChunks = x.2.countP (peakOf ·.1 = 0)
  bytesSent : x.1.bytesSent = sentBytes x.2
  sendFailures : x.1.sendFailures = count .refused x.2
  dropped : count .dropped x.2 ≤ 2
  /-- Each dropped chunk brought the loop to a later source, or to its end. -/
  room : x.1.loop.inLoop = true → count .dropped x.2 ≤ x.1.loop.sourceIndex
  silent : ∀ c ∈ x.2, c.2 = .dropped → Silent c.1

theorem count_concat (fate : Fate) (known : List Known) (c : Known) :
    count fate (known ++ [c]) = count fate known + if c.2 = fate then 1 else 0 := by
  simp only [count, List.countP_append, List.countP_singleton, decide_eq_true_eq]

theorem sentBytes_concat (known : List Known) (c : Known) :
    sentBytes (known ++ [c]) = sentBytes known + if c.2 = .sent then c.1.length else 0 := by
  simp only [sentBytes, List.filter_append, List.map_append, List.sum_append]
  congr 1
  by_cases hsent : c.2 = .sent <;> simp [hsent]

theorem failedLines_succ (n : ℕ) :
    failedLines (n + 1) = failedLines n ++
      if n + 1 = 1 ∨ (n + 1) % 100 = 0 then [Recorder.failedLine (n + 1)] else [] := by
  have hrange : List.range' 1 (n + 1) = List.range' 1 n ++ [n + 1] := by
    rw [← List.range'_append_1 (m := n) (n := 1), Nat.add_comm 1 n]
    rfl
  rw [failedLines, hrange, List.filter_append, List.map_append, ← failedLines]
  congr 1
  rw [List.filter_singleton]
  by_cases hdue : n + 1 = 1 ∨ (n + 1) % 100 = 0
  · rw [if_pos hdue, decide_eq_true hdue]
    rfl
  · rw [if_neg hdue, decide_eq_false hdue]
    rfl

/-- What a chunk adds to the log. -/
theorem log_pass {r : Recorder} {before : List String}
    (h : r.log = before ++ failedLines r.sendFailures) (loop : Loop) (fate : Fate)
    (bytes : List Byte) :
    (r.pass loop fate bytes).log =
      before ++ failedLines (r.sendFailures + if fate = .refused then 1 else 0) := by
  cases fate with
  | sent | dropped => exact h
  | refused =>
      rw [if_pos rfl, failedLines_succ, ← List.append_assoc, ← h]
      simp only [Recorder.pass]
      split_ifs
      · rfl
      · exact (List.append_nil _).symm

/-- A dropped chunk is one at which the source is changed. -/
theorem Loop.fate_eq_dropped_iff (s : Loop) (bytes : List Byte) (accepted : Bool) :
    s.fate bytes accepted = .dropped ↔ s.Switches (peakOf bytes) := by
  rw [fate]
  split_ifs with hswitches haccepted
  · exact iff_of_true rfl hswitches
  · exact iff_of_false nofun hswitches
  · exact iff_of_false nofun hswitches

/-- **A chunk is counted where it belongs.** -/
theorem counted_pass {r : Recorder} {known : List Known} {e : Turn} {bytes : List Byte}
    (h : Counted (r, known)) (hchunk : r.loop.chunkOf e.1 = some bytes) :
    Counted (r.pass (r.loop.step e.1) (r.loop.fate bytes e.2) bytes,
      known ++ [(bytes, r.loop.fate bytes e.2)]) := by
  obtain ⟨hin, running, opens, hstep⟩ := Loop.step_of_chunkOf_some hchunk
  obtain ⟨hchunks, hpeak, hsilent, -, hplace⟩ :=
    Loop.hear_spec opens (peakOf bytes) { r.loop with running := running }
  rw [← hstep] at hchunks hpeak hsilent hplace
  have hloop : (r.pass (r.loop.step e.1) (r.loop.fate bytes e.2) bytes).loop = r.loop.step e.1 := by
    cases r.loop.fate bytes e.2 <;> rfl
  have hdrop := r.loop.fate_eq_dropped_iff bytes e.2
  have hswitches : Loop.Switches { r.loop with running := running } (peakOf bytes) ↔
      r.loop.Switches (peakOf bytes) := Iff.rfl
  have hroom := h.room hin
  simp only at hroom
  constructor
  · simp only [hloop, hchunks, List.length_append, List.length_singleton]
    exact congrArg (· + 1) h.chunks
  · simp only [hloop, hpeak, loudest_concat]
    exact congrArg (max · (peakOf bytes)) h.peakAll
  · simp only [hloop, hsilent, List.countP_append, List.countP_singleton, decide_eq_true_eq]
    exact congrArg (· + _) h.silentChunks
  · rw [sentBytes_concat, ← h.bytesSent]
    cases r.loop.fate bytes e.2 <;> rfl
  · rw [count_concat, ← h.sendFailures]
    cases r.loop.fate bytes e.2 <;> rfl
  · rw [count_concat]
    split_ifs with hdropped
    · have hlast : r.loop.sourceIndex + 1 < 3 := (hdrop.1 hdropped).2.2.2
      omega
    · exact h.dropped
  · intro hin'
    rw [hloop] at hin' ⊢
    rw [count_concat]
    split_ifs with hdropped
    · rw [if_pos (hswitches.2 (hdrop.1 hdropped))] at hplace
      have hlater := hplace hin'
      simp only at hlater ⊢
      omega
    · rw [if_neg fun hs => hdropped (hdrop.2 (hswitches.1 hs))] at hplace
      rw [hplace.2]
      exact hroom
  · intro c hc hcdropped
    rcases List.mem_append.1 hc with hold | hnew
    · exact h.silent c hold hcdropped
    · rw [List.mem_singleton] at hnew
      subst hnew
      exact (peakOf_eq_zero_iff bytes).1 (hdrop.1 hcdropped).1

/-- The verdict is the one on the chunks, and comes when the loop ends. -/
theorem closing_log {r : Recorder} {known : List Known} {lines : List String} {wasInLoop : Bool}
    (h : Counted (r, known)) (hin : r.loop.inLoop = true → wasInLoop = true)
    (hlog : r.log = lines ++ if wasInLoop then [] else [report known r.sourceName]) :
    (r.closing wasInLoop).log =
      lines ++ if r.loop.inLoop then [] else [report known r.sourceName] := by
  have hreport : veredito r.loop.chunks r.loop.peakAll r.loop.silentChunks r.bytesSent
      r.sourceName r.sendFailures = report known r.sourceName := by
    rw [report, ← h.chunks, ← h.peakAll, ← h.silentChunks, ← h.bytesSent, ← h.sendFailures]
  cases wasInLoop with
  | false =>
      have hout : r.loop.inLoop = false := by
        by_contra hrun
        exact Bool.noConfusion (hin (Bool.eq_true_of_not_eq_false hrun))
      rw [Recorder.closing, if_neg (fun hends => Bool.noConfusion hends.1), hlog, hout]
  | true =>
      rw [Recorder.closing]
      cases hends : r.loop.inLoop with
      | false => simp [hlog, hreport]
      | true => simp [hlog]

/-- `closing` writes to the log alone. -/
theorem closing_eq (wasInLoop : Bool) (r : Recorder) :
    r.closing wasInLoop = { r with log := (r.closing wasInLoop).log } := by
  rw [Recorder.closing]
  split_ifs <;> rfl

/-- The counters and the log are right. -/
structure Right (before : List String) (x : Kept) : Prop where
  counted : Counted x
  log : x.1.log = before ++ failedLines (count .refused x.2) ++
    if x.1.loop.inLoop then [] else [report x.2 x.1.sourceName]

theorem right_closing {before : List String} {r : Recorder} {known : List Known}
    {wasInLoop : Bool} (h : Counted (r, known)) (hin : r.loop.inLoop = true → wasInLoop = true)
    (hlog : r.log = before ++ failedLines (count .refused known) ++
      if wasInLoop then [] else [report known r.sourceName]) :
    Right before (r.closing wasInLoop, known) := by
  have hclosed := closing_log h hin hlog
  rw [closing_eq]
  exact ⟨⟨h.chunks, h.peakAll, h.silentChunks, h.bytesSent, h.sendFailures, h.dropped, h.room,
    h.silent⟩, hclosed⟩

/-- **One event.** -/
theorem right_step {before : List String} (x : Kept) (e : Turn) (h : Right before x) :
    Right before (watched Recorder.step see x e) := by
  obtain ⟨r, known⟩ := x
  show Right before (r.step e, see r known e)
  cases hchunk : r.loop.chunkOf e.1 with
  | none =>
      obtain ⟨hchunks, hpeak, hsilent, hindex, hin⟩ := Loop.step_of_chunkOf_none hchunk
      have hsee : see r known e = known := by rw [see, hchunk]
      rw [Recorder.step, hsee]
      simp only [hchunk]
      refine right_closing ⟨?_, ?_, ?_, h.counted.bytesSent, h.counted.sendFailures,
        h.counted.dropped, fun hrun => ?_, h.counted.silent⟩ hin h.log
      · exact hchunks.trans h.counted.chunks
      · exact hpeak.trans h.counted.peakAll
      · exact hsilent.trans h.counted.silentChunks
      · show _ ≤ (r.loop.step e.1).sourceIndex
        rw [hindex]
        exact h.counted.room (hin hrun)
  | some bytes =>
      have hrun := (Loop.step_of_chunkOf_some hchunk).1
      have hsee : see r known e = known ++ [(bytes, r.loop.fate bytes e.2)] := by
        rw [see, hchunk]
      have hlog := h.log
      simp only [hrun, if_true, List.append_nil] at hlog
      rw [← show r.sendFailures = _ from h.counted.sendFailures] at hlog
      rw [Recorder.step, hsee]
      simp only [hchunk]
      refine right_closing (counted_pass h.counted hchunk) (fun _ => hrun) ?_
      rw [hrun, if_pos rfl, List.append_nil, count_concat, log_pass hlog,
        ← show r.sendFailures = _ from h.counted.sendFailures]

/-- A capture begins with no chunks. -/
theorem right_started {r : Recorder} {opens : ℕ → Bool} (hidle : r.loop.running = false)
    (hopened : (r.startLocked opens).1 = true) :
    Right r.log ((r.startLocked opens).2, []) := by
  simp only [Recorder.startLocked, hidle, Bool.false_eq_true, if_false] at hopened ⊢
  split_ifs at hopened ⊢ with hstarted
  simp only [Loop.startLocked, hidle, Bool.false_eq_true, if_false] at hstarted ⊢
  split_ifs at hstarted ⊢
  exact ⟨⟨rfl, rfl, rfl, rfl, rfl, Nat.zero_le _, fun _ => Nat.zero_le _,
    List.forall_mem_nil _⟩, by simp [failedLines, count]⟩

/-- **The line is true.**  In a capture that found a source, whatever is read, whichever sources
open later, whichever chunks the queue takes and whenever `stop` comes: the log has a line for
the first refused chunk and for every hundredth, and, when the loop has ended, one verdict, which
fits the samples that were read; its numbers are those of the chunks, all but two silent ones at
most, which a change of source threw away. -/
theorem reported_capture (r : Recorder) (opens : ℕ → Bool) (hidle : r.loop.running = false)
    (hopened : (r.startLocked opens).1 = true) (es : List Turn) :
    Reported r.log (run (watched Recorder.step see) ((r.startLocked opens).2, []) es) := by
  have hright : Right r.log
      (run (watched Recorder.step see) ((r.startLocked opens).2, []) es) :=
    run_invariant right_step (right_started hidle hopened) es
  exact ⟨hright.log, verdict_fits _, hright.counted.dropped, hright.counted.silent⟩

/-- A recorder before the first capture. -/
def Recorder.idle : Recorder := ⟨Loop.idle, "?", 0, 0, []⟩

/-- A voice on the first source, of which the queue takes one chunk. -/
theorem reported_capture_voice :
    (Recorder.idle.startLocked fun _ => true).1 = true ∧
      Reported []
        (run (watched Recorder.step see) ((Recorder.idle.startLocked fun _ => true).2, [])
          [(.turn (.got [0x10, 0x27]) false fun _ => true, true),
            (.turn (.got [0, 0, 7]) false fun _ => true, false), (.stop, true),
            (.turn .failed false fun _ => true, true)]) :=
  ⟨rfl, reported_capture Recorder.idle (fun _ => true) rfl rfl _⟩

end Capture
end App
end Carlinkit
