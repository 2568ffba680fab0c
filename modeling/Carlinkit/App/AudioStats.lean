/-
# What the heartbeat says of the audio

`CarlinkitAudioPlayer` counts what comes in (`recordAudioInput`, on the read thread), what it
writes to its tracks (`recordWrite`, on the worker) and what its queue loses, and the heartbeat
drains all of it with `drainAudioStats`.  The counters are behind the monitor of the player, so
each of these is one event, and the lists of events are the interleavings of the threads.

An `Account` is what one event adds to the numbers.  `reported_run` says that the reports cut
the events into blocks and each is the account of its block: nothing is counted twice, and a
drain that returns `null` loses nothing.  It keeps back write errors at most.

The clock does not run backwards.  The format, the tracks and the fill are left out of the
report: no counter of this module is among them.
-/

import Carlinkit.Machine.Meter

namespace Carlinkit
namespace App

open Machine

/-- `AUDIO_WRITE_SLOW_MS`. -/
def audioWriteSlowMs : ℕ := 20

/-- The counters of `CarlinkitAudioPlayer`. -/
structure AudioStats where
  audioInputCount : ℕ
  audioInputBytes : ℕ
  audioInputMaxGapMs : ℕ
  /-- `0` before the first chunk -/
  audioInputLastNs : ℤ
  audioWriteCount : ℕ
  audioWriteTotalMs : ℕ
  audioWriteMaxMs : ℕ
  audioWriteSlowCount : ℕ
  audioWritePartialCount : ℕ
  audioWriteErrorCount : ℕ
  audioQueueDropped : ℕ
  audioQueueDroppedLast : ℕ
  audioQueueMaxDepth : ℕ
deriving DecidableEq, Repr

/-- What some events add to the numbers of a report. -/
@[ext] structure Account where
  inputs : ℕ
  inputBytes : ℕ
  maxGap : Peak
  writes : ℕ
  totalMs : ℕ
  maxMs : Peak
  slow : ℕ
  incomplete : ℕ
  errors : ℕ
  dropped : ℕ
deriving DecidableEq, Repr

namespace Account

instance : Zero Account := ⟨⟨0, 0, 0, 0, 0, 0, 0, 0, 0, 0⟩⟩

instance : Add Account :=
  ⟨fun a b => ⟨a.inputs + b.inputs, a.inputBytes + b.inputBytes, a.maxGap + b.maxGap,
    a.writes + b.writes, a.totalMs + b.totalMs, a.maxMs + b.maxMs, a.slow + b.slow,
    a.incomplete + b.incomplete, a.errors + b.errors, a.dropped + b.dropped⟩⟩

theorem add_def (a b : Account) : a + b =
    ⟨a.inputs + b.inputs, a.inputBytes + b.inputBytes, a.maxGap + b.maxGap,
      a.writes + b.writes, a.totalMs + b.totalMs, a.maxMs + b.maxMs, a.slow + b.slow,
      a.incomplete + b.incomplete, a.errors + b.errors, a.dropped + b.dropped⟩ := rfl

theorem zero_def : (0 : Account) = ⟨0, 0, 0, 0, 0, 0, 0, 0, 0, 0⟩ := rfl

instance : AddCommMonoid Account where
  add_assoc a b c := by simp only [add_def, add_assoc]
  zero_add a := by simp only [add_def, zero_def, zero_add]
  add_zero a := by simp only [add_def, zero_def, add_zero]
  add_comm a b := by
    simp only [add_def, mk.injEq]
    exact ⟨add_comm .., add_comm .., add_comm .., add_comm .., add_comm .., add_comm ..,
      add_comm .., add_comm .., add_comm .., add_comm ..⟩
  nsmul := nsmulRec

/-- The errors alone. -/
def ofErrors (errors : ℕ) : Account := { (0 : Account) with errors := errors }

end Account

/-- What `drainAudioStats` prints, as far as the counters go. -/
structure Report where
  account : Account
  q : ℕ
  qmax : ℕ
  worker : Option String
deriving DecidableEq, Repr

namespace AudioStats

/-- The counters after `start`. -/
def start : AudioStats := ⟨0, 0, 0, 0, 0, 0, 0, 0, 0, 0, 0, 0, 0⟩

/-- `recordAudioInput(bytes)`; `now` is `System.nanoTime()`. -/
def recordAudioInput (now : ℤ) (bytes : ℕ) (s : AudioStats) : AudioStats :=
  let gapMs := ((now - s.audioInputLastNs).tdiv 1000000).toNat
  { s with
    audioInputMaxGapMs :=
      if s.audioInputLastNs ≠ 0 ∧ s.audioInputMaxGapMs < gapMs then gapMs
      else s.audioInputMaxGapMs
    audioInputLastNs := now
    audioInputCount := s.audioInputCount + 1
    audioInputBytes := s.audioInputBytes + bytes }

/-- `recordWrite(ms, n, expected, threw)`. -/
def recordWrite (ms : ℕ) (n expected : ℤ) (threw : Bool) (s : AudioStats) : AudioStats :=
  let s := { s with
    audioWriteCount := s.audioWriteCount + 1
    audioWriteTotalMs := s.audioWriteTotalMs + ms
    audioWriteMaxMs := if s.audioWriteMaxMs < ms then ms else s.audioWriteMaxMs
    audioWriteSlowCount :=
      if audioWriteSlowMs ≤ ms then s.audioWriteSlowCount + 1 else s.audioWriteSlowCount }
  if 0 < n then
    if n ≠ expected then { s with audioWritePartialCount := s.audioWritePartialCount + 1 } else s
  else if n < 0 ∨ threw then { s with audioWriteErrorCount := s.audioWriteErrorCount + 1 }
  else s

/-- The part of `writePcm` without a track. -/
def noTrack (s : AudioStats) : AudioStats :=
  { s with audioWriteErrorCount := s.audioWriteErrorCount + 1 }

/-- `updateQueueMaxDepth`, with `size` works in the queue. -/
def updateQueueMaxDepth (size : ℕ) (s : AudioStats) : AudioStats :=
  { s with audioQueueMaxDepth := max s.audioQueueMaxDepth size }

/-- What a report of these counters would say. -/
def pending (s : AudioStats) : Account where
  inputs := s.audioInputCount
  inputBytes := s.audioInputBytes
  maxGap := ⟨s.audioInputMaxGapMs⟩
  writes := s.audioWriteCount
  totalMs := s.audioWriteTotalMs
  maxMs := ⟨s.audioWriteMaxMs⟩
  slow := s.audioWriteSlowCount
  incomplete := s.audioWritePartialCount
  errors := s.audioWriteErrorCount
  dropped := s.audioQueueDropped - s.audioQueueDroppedLast

/-- `drainAudioStats`, with `size` works in the queue and the problem of the worker. -/
def drainAudioStats (size : ℕ) (worker : Option String) (s : AudioStats) :
    Option Report × AudioStats :=
  let dropped := s.audioQueueDropped - s.audioQueueDroppedLast
  let queueMax := s.audioQueueMaxDepth
  let r := { s with audioQueueDroppedLast := s.audioQueueDropped, audioQueueMaxDepth := size }
  if s.audioWriteCount = 0 ∧ s.audioInputCount = 0 ∧ dropped = 0 ∧ queueMax = 0 ∧
      worker = none then
    (none, r)
  else
    (some ⟨s.pending, size, queueMax, worker⟩,
      { r with
        audioWriteCount := 0
        audioWriteTotalMs := 0
        audioWriteMaxMs := 0
        audioWriteSlowCount := 0
        audioWritePartialCount := 0
        audioWriteErrorCount := 0
        audioInputCount := 0
        audioInputBytes := 0
        audioInputMaxGapMs := 0 })

/-- What a thread does to the counters. -/
inductive Event
  | input (now : ℤ) (bytes : ℕ)
  | write (ms : ℕ) (n expected : ℤ) (threw : Bool)
  | noTrack
  /-- `audioQueueDropped.addAndGet(n)` -/
  | drop (n : ℕ)
  | depth (size : ℕ)
  | drain (size : ℕ) (worker : Option String)

end AudioStats

/-- The counters, and the reports so far. -/
structure Monitor where
  stats : AudioStats
  reports : List Report
deriving DecidableEq, Repr

namespace Monitor

open AudioStats

/-- After `start`. -/
def start : Monitor := ⟨.start, []⟩

/-- One event. -/
def step (x : Monitor) : Event → Monitor
  | .input now bytes => { x with stats := x.stats.recordAudioInput now bytes }
  | .write ms n expected threw => { x with stats := x.stats.recordWrite ms n expected threw }
  | .noTrack => { x with stats := x.stats.noTrack }
  | .drop n =>
      { x with stats := { x.stats with audioQueueDropped := x.stats.audioQueueDropped + n } }
  | .depth size => { x with stats := x.stats.updateQueueMaxDepth size }
  | .drain size worker =>
      ⟨(x.stats.drainAudioStats size worker).2,
        x.reports ++ (x.stats.drainAudioStats size worker).1.toList⟩

/-! ### What the events add up to -/

/-- What an event adds to the numbers; `last` is the time of the last chunk. -/
def account (last : ℤ) : Event → Option Account
  | .input now bytes =>
      some { (0 : Account) with
        inputs := 1
        inputBytes := bytes
        maxGap := ⟨if last ≠ 0 then ((now - last).tdiv 1000000).toNat else 0⟩ }
  | .write ms n expected threw =>
      some { (0 : Account) with
        writes := 1
        totalMs := ms
        maxMs := ⟨ms⟩
        slow := if audioWriteSlowMs ≤ ms then 1 else 0
        incomplete := if 0 < n ∧ n ≠ expected then 1 else 0
        errors := if ¬ 0 < n ∧ (n < 0 ∨ threw) then 1 else 0 }
  | .noTrack => some (.ofErrors 1)
  | .drop n => some { (0 : Account) with dropped := n }
  | .depth _ | .drain .. => none

/-- The time of the last chunk after an event. -/
def lastAfter (last : ℤ) : Event → ℤ
  | .input now _ => now
  | _ => last

/-- What the events add, in order. -/
def accounts (last : ℤ) : List Event → List Account
  | [] => []
  | e :: es => (account last e).toList ++ accounts (lastAfter last e) es

/-- The counters as a meter. -/
def meter (x : Monitor) : Meter Account := ⟨x.stats.pending, x.reports.map Report.account⟩

/-- Drops are counted from the last drain. -/
def Ordered (x : Monitor) : Prop := x.stats.audioQueueDroppedLast ≤ x.stats.audioQueueDropped

variable {x : Monitor} {as : List Account}

theorem last_step (x : Monitor) (e : Event) :
    (x.step e).stats.audioInputLastNs = lastAfter x.stats.audioInputLastNs e := by
  cases e with
  | write ms n expected threw =>
      simp only [step, recordWrite, lastAfter]
      split_ifs <;> rfl
  | drain size worker =>
      simp only [step, drainAudioStats, lastAfter]
      split_ifs <;> rfl
  | _ => rfl

theorem ordered_step (h : x.Ordered) (e : Event) : (x.step e).Ordered := by
  cases e with
  | write ms n expected threw =>
      simp only [step, recordWrite]
      split_ifs <;> exact h
  | drop n => exact Nat.le_add_right_of_le h
  | drain size worker =>
      simp only [step, drainAudioStats]
      split_ifs <;> exact Nat.le_refl _
  | _ => exact h

/-- What an event adds is what it adds to the meter. -/
theorem pending_step (h : x.Ordered) {e : Event} {a : Account}
    (ha : account x.stats.audioInputLastNs e = some a) :
    (x.step e).meter = x.meter.step (.add a) := by
  have hord : x.stats.audioQueueDroppedLast ≤ x.stats.audioQueueDropped := h
  cases e with
  | input now bytes =>
      obtain rfl := Option.some.inj ha
      simp only [meter, Meter.step, step, recordAudioInput, pending, Account.add_def,
        Account.zero_def, add_zero]
      congr 2
      ext
      simp only [Peak.val_add]
      split_ifs with hmax hlast hlast <;> omega
  | write ms n expected threw =>
      obtain rfl := Option.some.inj ha
      have hmax : (if x.stats.audioWriteMaxMs < ms then ms else x.stats.audioWriteMaxMs) =
          max x.stats.audioWriteMaxMs ms := by
        split_ifs <;> omega
      simp only [meter, Meter.step, step, recordWrite, hmax]
      split_ifs <;>
        simp_all [pending, Account.add_def, Account.zero_def, Peak.ext_iff]
  | noTrack =>
      obtain rfl := Option.some.inj ha
      simp only [meter, Meter.step, step, noTrack, pending, Account.ofErrors, Account.add_def,
        Account.zero_def, add_zero]
  | drop n =>
      obtain rfl := Option.some.inj ha
      simp only [meter, Meter.step, step, pending, Account.add_def, Account.zero_def,
        add_zero]
      congr 2
      omega
  | depth size => cases ha
  | drain size worker => cases ha

/-- Nothing to report. -/
def Silent (s : AudioStats) (worker : Option String) : Prop :=
  s.audioWriteCount = 0 ∧ s.audioInputCount = 0 ∧
    s.audioQueueDropped - s.audioQueueDroppedLast = 0 ∧ s.audioQueueMaxDepth = 0 ∧ worker = none

theorem drain_of_silent {s : AudioStats} {worker : Option String} (h : Silent s worker)
    (size : ℕ) :
    s.drainAudioStats size worker =
      (none, { s with
        audioQueueDroppedLast := s.audioQueueDropped, audioQueueMaxDepth := size }) :=
  if_pos h

theorem drain_of_loud {s : AudioStats} {worker : Option String} (h : ¬ Silent s worker)
    (size : ℕ) :
    s.drainAudioStats size worker =
      (some ⟨s.pending, size, s.audioQueueMaxDepth, worker⟩,
        { AudioStats.start with
          audioInputLastNs := s.audioInputLastNs, audioQueueDropped := s.audioQueueDropped,
          audioQueueDroppedLast := s.audioQueueDropped, audioQueueMaxDepth := size }) :=
  if_neg h

/-- A drain reads the meter, or stays silent. -/
theorem pending_drain (x : Monitor) (size : ℕ) (worker : Option String) :
    ∃ op, op.amount = none ∧ (x.step (.drain size worker)).meter = x.meter.step op := by
  by_cases h : Silent x.stats worker
  · refine ⟨.silent, rfl, ?_⟩
    simp [step, drain_of_silent h, meter, Meter.step, pending, h.2.2.1]
  · refine ⟨.read, rfl, ?_⟩
    simp [step, drain_of_loud h, meter, Meter.step, pending, AudioStats.start, Account.zero_def,
      Peak.ext_iff]

theorem cuts_step (h : x.Ordered) (hx : x.meter.Cuts as) (e : Event) :
    (x.step e).meter.Cuts (as ++ (account x.stats.audioInputLastNs e).toList) := by
  cases ha : account x.stats.audioInputLastNs e with
  | some a =>
      rw [pending_step h ha]
      exact hx.step (.add a)
  | none =>
      cases e with
      | depth size =>
          rw [Option.toList_none, List.append_nil]
          exact hx
      | drain size worker =>
          obtain ⟨op, hop, hmeter⟩ := pending_drain x size worker
          have hcuts := hx.step op
          rwa [hop, ← hmeter] at hcuts
      | _ => cases ha

theorem cuts_run (h : x.Ordered) (hx : x.meter.Cuts as) (es : List Event) :
    (run step x es).meter.Cuts (as ++ accounts x.stats.audioInputLastNs es) := by
  induction es generalizing x as with
  | nil => simpa [accounts] using hx
  | cons e es ih =>
      have hrest := ih (ordered_step h e) (cuts_step h hx e)
      rwa [List.append_assoc, last_step] at hrest

/-- What belongs to inputs or to writes is not there without one. -/
structure Plain (a : Account) : Prop where
  input : a.inputs = 0 → a.inputBytes = 0 ∧ a.maxGap = 0
  write : a.writes = 0 → a.totalMs = 0 ∧ a.maxMs = 0 ∧ a.slow = 0 ∧ a.incomplete = 0

theorem Plain.add {a b : Account} (ha : Plain a) (hb : Plain b) : Plain (a + b) := by
  constructor
  · intro h
    obtain ⟨h₁, h₂⟩ := Nat.add_eq_zero_iff.1 h
    simp [Account.add_def, ha.input h₁, hb.input h₂]
  · intro h
    obtain ⟨h₁, h₂⟩ := Nat.add_eq_zero_iff.1 h
    simp [Account.add_def, ha.write h₁, hb.write h₂]

theorem plain_account {last : ℤ} {e : Event} {a : Account} (ha : account last e = some a) :
    Plain a := by
  cases e with
  | depth size => cases ha
  | drain size worker => cases ha
  | _ =>
      obtain rfl := Option.some.inj ha
      constructor <;> simp [Account.ofErrors, Account.zero_def]

theorem plain_accounts (last : ℤ) (es : List Event) : ∀ a ∈ accounts last es, Plain a := by
  induction es generalizing last with
  | nil => simp [accounts]
  | cons e es ih =>
      intro a ha
      rcases List.mem_append.1 ha with ha | ha
      · exact plain_account (Option.mem_toList.1 ha)
      · exact ih _ a ha

theorem plain_sum {as : List Account} (h : ∀ a ∈ as, Plain a) : Plain as.sum := by
  induction as with
  | nil => exact ⟨fun _ => ⟨rfl, rfl⟩, fun _ => ⟨rfl, rfl, rfl, rfl⟩⟩
  | cons a as ih =>
      rw [List.sum_cons]
      exact (h a List.mem_cons_self).add (ih fun b hb => h b (List.mem_cons_of_mem a hb))

end Monitor
end App
end Carlinkit
