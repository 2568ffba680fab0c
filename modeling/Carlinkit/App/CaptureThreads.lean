/-
# The threads of the microphone

`CarlinkitMicrophone`: `start`, `startLocked`, `openSource`, `switchToNextSource`,
`captureLoop`, `stop` and `setDecodeType`, as threads of one machine (`State.step`).
An event names the thread that moves, and one event is one action on what the threads
share.

* Any number of threads call `start`, `stop` and `setDecodeType`, at any time.  Each
  capture that starts makes a capture thread.
* `monitor` is the caller in a `synchronized` block of several actions.  The capture
  thread reads `running`, `record`, `decodeType`, `sampleRate` and the counters outside
  the monitor, so those blocks are taken apart where they write them; the others are one
  event, which waits for the monitor.
* A `join` can always return, because the thread ended or because its time is over.
* `openSource` is two events: the test of the buffer size and `releaseRecord`, then the
  new `AudioRecord` up to its first recording.

The three fields of the format each hold a number of some `CaptureFormat`, and are kept
as that format, since they are not written at once.  `sent` is what was handed to
`sendMicAudio`.  The fields that only the log reads are left out.
-/

import Carlinkit.Protocol.Audio
import Carlinkit.Machine.Run
import Carlinkit.Machine.Threads

namespace Carlinkit
namespace App
namespace Capture

open Protocol Machine

/-- `SOURCES.length`. -/
def sourceCount : ℕ := 3

/-- `SILENT_CHUNKS_BEFORE_SWITCH`. -/
def silentChunksBeforeSwitch : ℕ := 50

/-- An `AudioRecord`, with the format that its rate was taken from. -/
structure AudioRecord where
  id : ℕ
  format : CaptureFormat
deriving DecidableEq, Repr

/-- A call of `sendMicAudio`, with the rate of the `AudioRecord` it was read from. -/
structure Chunk where
  decodeType : BitVec 32
  length : ℤ
  recordedAt : ℕ
deriving DecidableEq, Repr

/-- A call of a thread that is not a capture thread. -/
inductive Call
  | start
  | stop
  | setDecodeType (type : BitVec 32)
deriving DecidableEq, Repr

/-- Where a calling thread is. -/
inductive CallerPc
  | idle
  /-- Before the block of `start`. -/
  | start
  /-- In `previous.join(400)`. -/
  | join (previous : ℕ)
  /-- Before `startLocked`. -/
  | startLocked
  /-- In `startLocked`, before `openSource`. -/
  | opening
  /-- In `openSource`, before the new `AudioRecord`. -/
  | making
  /-- In `startLocked`, with a source open. -/
  | launching
  /-- Before the block of `stop`, which is followed by `start` in `setDecodeType`. -/
  | stop (restart : Bool)
  /-- Before the block of `setDecodeType`. -/
  | setDecodeType (type : BitVec 32)
  /-- `decodeType` is written. -/
  | settingRate (f : CaptureFormat)
  /-- `sampleRate` is written. -/
  | settingChunk (f : CaptureFormat)
deriving DecidableEq, Repr

/-- `startLocked` is on its way. -/
def CallerPc.Starting : CallerPc → Prop
  | .opening | .making | .launching => True
  | _ => False

/-- The thread holds the monitor. -/
def CallerPc.Holding : CallerPc → Prop
  | .opening | .making | .launching | .settingRate _ | .settingChunk _ => True
  | _ => False

instance : ∀ pc : CallerPc, Decidable pc.Starting
  | .opening | .making | .launching => .isTrue trivial
  | .idle | .start | .join _ | .startLocked | .stop _ | .setDecodeType _ | .settingRate _
  | .settingChunk _ => .isFalse id

instance : ∀ pc : CallerPc, Decidable pc.Holding
  | .opening | .making | .launching | .settingRate _ | .settingChunk _ => .isTrue trivial
  | .idle | .start | .join _ | .startLocked | .stop _ | .setDecodeType _ => .isFalse id

/-- Where a capture thread is. -/
inductive CapturePc
  | unborn
  /-- Before `new byte[chunkSamples * 2]`. -/
  | begin
  /-- Before the test of `running`. -/
  | check
  /-- Before `record` is read. -/
  | load
  | reading (r : AudioRecord)
  /-- Before the test of `running` in `switchToNextSource`. -/
  | switching
  | opening
  | making
  /-- Before `sendMicAudio`. -/
  | sending (r : AudioRecord) (length : ℤ)
  /-- Before the block of the `finally`. -/
  | finish
  /-- Past that block. -/
  | ended
  | dead
deriving DecidableEq, Repr

/-- The `AudioRecord` that the thread is reading from, or whose chunk it has. -/
def CapturePc.source : CapturePc → Option AudioRecord
  | .reading r | .sending r _ => some r
  | _ => none

/-- In `captureLoop`, and not past its release of ownership. -/
def CapturePc.InLoop : CapturePc → Prop
  | .unborn | .ended | .dead => False
  | _ => True

/-- `Thread.isAlive`. -/
def CapturePc.Alive : CapturePc → Prop
  | .unborn | .dead => False
  | _ => True

instance : ∀ pc : CapturePc, Decidable pc.InLoop
  | .unborn | .ended | .dead => .isFalse id
  | .begin | .check | .load | .reading _ | .switching | .opening | .making | .sending _ _
  | .finish => .isTrue trivial

instance : ∀ pc : CapturePc, Decidable pc.Alive
  | .unborn | .dead => .isFalse id
  | .begin | .check | .load | .reading _ | .switching | .opening | .making | .sending _ _
  | .finish | .ended => .isTrue trivial

theorem CapturePc.InLoop.alive {pc : CapturePc} (h : pc.InLoop) : pc.Alive := by
  cases pc <;> trivial

theorem CallerPc.Starting.holding {pc : CallerPc} (h : pc.Starting) : pc.Holding := by
  cases pc <;> trivial

/-- The microphone and its threads. -/
structure State where
  decodeType : CaptureFormat
  sampleRate : CaptureFormat
  chunkSamples : CaptureFormat
  record : Option AudioRecord
  captureThread : Option ℕ
  running : Bool
  peakAll : ℕ
  consecutiveSilent : ℕ
  sourceIndex : ℕ
  monitor : Option ℕ
  callers : ℕ → CallerPc
  /-- What the last call of a thread returned. -/
  results : ℕ → Bool
  captures : ℕ → CapturePc
  /-- How many capture threads were started. -/
  threads : ℕ
  /-- How many `AudioRecord`s were made. -/
  records : ℕ
  sent : List Chunk

/-- Which thread moves.  `ok` is what comes of its action: the buffer size is valid, the
source opens, the thread starts, `sendMicAudio` does not throw. -/
inductive Event
  | call (i : ℕ) (c : Call)
  | caller (i : ℕ) (ok : Bool)
  | capture (t : ℕ) (ok : Bool)
  /-- `AudioRecord.read` returns with its largest sample, or throws. -/
  | read (t : ℕ) (result : Option ℤ) (peak : ℕ)
deriving DecidableEq, Repr

/-- The capture thread that moves. -/
def Event.captureThread : Event → Option ℕ
  | .capture t _ | .read t _ _ => some t
  | _ => none

/-- A new microphone: decodeType 5, 16000 Hz. -/
def new : State where
  decodeType := .assistant
  sampleRate := .assistant
  chunkSamples := .assistant
  record := none
  captureThread := none
  running := false
  peakAll := 0
  consecutiveSilent := 0
  sourceIndex := 0
  monitor := none
  callers _ := .idle
  results _ := false
  captures _ := .unborn
  threads := 0
  records := 0
  sent := []

namespace State

/-- Thread `i` is at `pc`. -/
def setCaller (s : State) (i : ℕ) (pc : CallerPc) : State :=
  { s with callers := Function.update s.callers i pc }

/-- Thread `i` returns from its call, without the monitor. -/
def leave (s : State) (i : ℕ) (result : Bool) : State :=
  { s with
    callers := Function.update s.callers i .idle
    results := Function.update s.results i result }

/-- Capture thread `t` is at `pc`. -/
def setCapture (s : State) (t : ℕ) (pc : CapturePc) : State :=
  { s with captures := Function.update s.captures t pc }

/-- `new AudioRecord(source, sampleRate, ..)`. -/
def make (s : State) : State :=
  { s with record := some ⟨s.records, s.sampleRate⟩, records := s.records + 1 }

/-- `releaseRecord`. -/
def releaseRecord (s : State) : State := { s with record := none }

/-- A thread calls the microphone. -/
def call (s : State) (i : ℕ) : Call → State
  | .start => s.setCaller i .start
  | .stop => s.setCaller i (.stop false)
  | .setDecodeType type => s.setCaller i (.setDecodeType type)

/-- The block of `start`, and the test whether the previous thread is alive. -/
def startStep (s : State) (i : ℕ) : State :=
  if s.running then s.leave i true
  else
    match s.captureThread with
    | none => s.setCaller i .startLocked
    | some t =>
        if (s.captures t).Alive then s.setCaller i (.join t) else s.setCaller i .startLocked

/-- `startLocked` after a source that did not open. -/
def nextStart (s : State) (i : ℕ) : State :=
  if s.sourceIndex + 1 < sourceCount then
    { s.setCaller i .opening with sourceIndex := s.sourceIndex + 1 }
  else { s.leave i false with sourceIndex := s.sourceIndex + 1, monitor := none }

/-- `startLocked` with a source open; `ok` is about `thread.start()`. -/
def launch (s : State) (i : ℕ) (ok : Bool) : State :=
  let s := { s.leave i ok with monitor := none, peakAll := 0, consecutiveSilent := 0 }
  if ok then
    { s.setCapture s.threads .begin with
      running := true
      captureThread := some s.threads
      threads := s.threads + 1 }
  else { s with running := false, captureThread := none, record := none }

/-- The block of `setDecodeType`, up to the first write. -/
def setDecodeTypeStep (s : State) (i : ℕ) (type : BitVec 32) : State :=
  match CaptureFormat.ofDecodeType type with
  | none => s.leave i false
  | some f =>
      if type = s.decodeType.decodeType ∧ s.sampleRate.sampleRate = f.sampleRate then s.leave i true
      else { s.setCaller i (.settingRate f) with decodeType := f, monitor := some i }

/-- Thread `i` in its call. -/
def callerStep (s : State) (i : ℕ) (ok : Bool) : State :=
  match s.callers i with
  | .idle => s
  | .start => if s.monitor = none then s.startStep i else s
  | .join t => if (s.captures t).Alive then s.leave i false else s.setCaller i .startLocked
  | .startLocked =>
      if s.monitor = none then
        if s.running then s.leave i true
        else { s.setCaller i .opening with sourceIndex := 0, monitor := some i }
      else s
  | .opening => if ok then s.releaseRecord.setCaller i .making else s.nextStart i
  | .making => if ok then s.make.setCaller i .launching else s.releaseRecord.nextStart i
  | .launching => s.launch i ok
  | .stop restart =>
      if s.monitor = none then
        let s := { s with running := false }
        if restart then s.setCaller i .start else s.leave i true
      else s
  | .setDecodeType type => if s.monitor = none then s.setDecodeTypeStep i type else s
  | .settingRate f => { s.setCaller i (.settingChunk f) with sampleRate := f }
  | .settingChunk f =>
      let s := { s with chunkSamples := f, monitor := none }
      if s.running then s.setCaller i (.stop true) else s.leave i true

/-- `switchToNextSource` after its test of `running`, or after a source that did not open. -/
def nextSource (s : State) (t : ℕ) : State :=
  { s.setCapture t (if s.sourceIndex + 1 < sourceCount then .opening else .finish) with
    sourceIndex := s.sourceIndex + 1 }

/-- `captureLoop`, all but the return of `read`. -/
def captureStep (s : State) (t : ℕ) (ok : Bool) : State :=
  match s.captures t with
  | .unborn | .reading _ | .dead => s
  | .begin => s.setCapture t .check
  | .check => s.setCapture t (if s.running then .load else .finish)
  | .load =>
      match s.record with
      | some r => s.setCapture t (.reading r)
      -- the `NullPointerException` is caught
      | none => s.setCapture t .finish
  | .switching => if s.running then s.nextSource t else s.setCapture t .finish
  | .opening => if ok then s.releaseRecord.setCapture t .making else s.nextSource t
  | .making =>
      if ok then { s.make.setCapture t .check with consecutiveSilent := 0 }
      else s.releaseRecord.nextSource t
  | .sending r length =>
      { s.setCapture t (if ok then .check else .finish) with
        sent := s.sent ++ [⟨s.decodeType.decodeType, length, r.format.sampleRate⟩] }
  | .finish =>
      if s.monitor = none then
        if s.captureThread = some t then
          { s.setCapture t .ended with running := false, captureThread := none, record := none }
        else s.setCapture t .ended
      else s
  | .ended => s.setCapture t .dead

/-- A chunk of `length` bytes with its largest sample. -/
def account (s : State) (t : ℕ) (r : AudioRecord) (length : ℤ) (peak : ℕ) : State :=
  let s := { s with peakAll := max s.peakAll peak }
  if peak = 0 then
    let s := { s with consecutiveSilent := s.consecutiveSilent + 1 }
    if s.peakAll = 0 ∧ silentChunksBeforeSwitch ≤ s.consecutiveSilent ∧
        s.sourceIndex + 1 < sourceCount then s.setCapture t .switching
    else s.setCapture t (.sending r length)
  else { s.setCapture t (.sending r length) with consecutiveSilent := 0 }

/-- `captureLoop` when `read` returns. -/
def readStep (s : State) (t : ℕ) (result : Option ℤ) (peak : ℕ) : State :=
  match s.captures t, result with
  | .reading _, none => s.setCapture t .finish
  | .reading r, some n =>
      if n < 0 then s.setCapture t .finish
      else if n = 0 then s.setCapture t .check
      else s.account t r n peak
  | _, _ => s

/-- One event. -/
def step (s : State) : Event → State
  | .call i c => if s.callers i = .idle then s.call i c else s
  | .caller i ok => s.callerStep i ok
  | .capture t ok => s.captureStep t ok
  | .read t result peak => s.readStep t result peak

/-! ### What a thread leaves alone -/

/-- A calling thread sends nothing; it touches the capture threads at the launch, `record`
in `startLocked`, and the format in `setDecodeType`. -/
theorem frame_callerStep (s : State) (i : ℕ) (ok : Bool) :
    (s.callerStep i ok).sent = s.sent ∧
      (s.callers i ≠ .launching → (s.callerStep i ok).captures = s.captures ∧
        (s.callerStep i ok).threads = s.threads) ∧
      (¬ (s.callers i).Starting → (s.callerStep i ok).record = s.record) ∧
      ((∀ type, s.callers i ≠ .setDecodeType type) →
        (s.callerStep i ok).decodeType = s.decodeType) ∧
      ((∀ f, s.callers i ≠ .settingRate f) → (s.callerStep i ok).sampleRate = s.sampleRate) := by
  unfold callerStep
  cases hpc : s.callers i with
  | idle => simp
  | start =>
      simp only [startStep]
      split_ifs
      · simp [leave]
      · cases s.captureThread with
        | none => simp [setCaller]
        | some t =>
            simp only
            split_ifs <;> simp [setCaller]
      · simp
  | opening | making =>
      simp only [nextStart]
      split_ifs <;> simp [setCaller, leave, make, releaseRecord, CallerPc.Starting]
  | launching => cases ok <;> simp [launch, leave, setCapture, CallerPc.Starting]
  | setDecodeType type =>
      simp only [setDecodeTypeStep]
      split_ifs
      · cases CaptureFormat.ofDecodeType type with
        | none => simp [leave]
        | some f =>
            simp only
            split_ifs <;> simp [setCaller, leave]
      · simp
  | settingRate f => simp [setCaller]
  | join t | startLocked | stop restart | settingChunk f =>
      simp only
      split_ifs <;> simp [setCaller, leave]

/-- A capture thread leaves the callers and the format alone, and out of its loop also
`record`. -/
theorem frame_captureStep (s : State) (t : ℕ) (ok : Bool) :
    (s.captureStep t ok).callers = s.callers ∧ (s.captureStep t ok).monitor = s.monitor ∧
      (s.captureStep t ok).decodeType = s.decodeType ∧
      (s.captureStep t ok).sampleRate = s.sampleRate ∧
      (s.captureStep t ok).threads = s.threads ∧
      (¬ (s.captures t).InLoop → (s.captureStep t ok).record = s.record) := by
  unfold captureStep
  cases hpc : s.captures t with
  | unborn | reading r | dead | begin | check | sending r length | ended => simp [setCapture]
  | load => cases hr : s.record <;> simp [setCapture, hr]
  | switching | opening | making =>
      simp only [nextSource]
      split_ifs <;> simp [setCapture, make, releaseRecord, CapturePc.InLoop]
  | finish =>
      simp only
      split_ifs <;> simp [setCapture, CapturePc.InLoop]

/-- The return of `read` concerns the thread and its counters alone. -/
theorem frame_readStep (s : State) (t : ℕ) (result : Option ℤ) (peak : ℕ) :
    (s.readStep t result peak).callers = s.callers ∧
      (s.readStep t result peak).monitor = s.monitor ∧
      (s.readStep t result peak).decodeType = s.decodeType ∧
      (s.readStep t result peak).sampleRate = s.sampleRate ∧
      (s.readStep t result peak).threads = s.threads ∧
      (s.readStep t result peak).record = s.record ∧ (s.readStep t result peak).sent = s.sent := by
  unfold readStep
  cases s.captures t with
  | reading r =>
      cases result with
      | none => simp [setCapture]
      | some n =>
          simp only [account]
          split_ifs <;> simp [setCapture]
  | _ => simp

/-- A `startLocked` that goes well is four actions, and makes a capture thread. -/
theorem run_startLocked {s : State} {i : ℕ} (hpc : s.callers i = .startLocked)
    (hfree : s.monitor = none) (hrun : s.running = false) :
    (∀ n < 4, (run step s (List.replicate n (.caller i true))).callers i ≠ .idle) ∧
      (run step s (List.replicate 4 (.caller i true))).callers =
        Function.update s.callers i .idle ∧
      (run step s (List.replicate 4 (.caller i true))).captures =
        Function.update s.captures s.threads .begin ∧
      (run step s (List.replicate 4 (.caller i true))).running = true ∧
      (run step s (List.replicate 4 (.caller i true))).monitor = none := by
  refine ⟨fun n hn => ?_, ?_⟩
  · match n with
    | 0 => simp [hpc]
    | 1 | 2 | 3 =>
        simp [List.replicate, step, callerStep, hpc, hfree, hrun, setCaller, releaseRecord, make]
    | n + 4 => omega
  · simp [List.replicate, step, callerStep, hpc, hfree, hrun, setCaller, releaseRecord, make,
      launch, leave, setCapture]

/-! ### The monitor -/

/-- At most one calling thread is in a `synchronized` block of several actions, and it has
the monitor. -/
def Held (s : State) : Prop := OwnerOf s.monitor CallerPc.Holding s.callers

theorem held_new : new.Held := fun _ h => absurd h id

variable {s : State}

theorem Held.nextStart (h : s.Held) {i : ℕ} (hi : (s.callers i).Holding) :
    (s.nextStart i).Held := by
  unfold State.nextStart
  split_ifs
  · exact h.inside (a := .opening) hi rfl rfl
  · exact h.leaves (a := .idle) hi rfl id

theorem Held.startStep (h : s.Held) (i : ℕ) : (s.startStep i).Held := by
  unfold State.startStep
  split_ifs
  · exact h.outside (a := .idle) rfl rfl id
  · cases s.captureThread with
    | none => exact h.outside (a := .startLocked) rfl rfl id
    | some t =>
        simp only
        split_ifs
        · exact h.outside (a := .join t) rfl rfl id
        · exact h.outside (a := .startLocked) rfl rfl id

theorem Held.setDecodeTypeStep (h : s.Held) (hfree : s.monitor = none) (i : ℕ)
    (type : BitVec 32) : (s.setDecodeTypeStep i type).Held := by
  unfold State.setDecodeTypeStep
  cases CaptureFormat.ofDecodeType type with
  | none => exact h.outside (a := .idle) rfl rfl id
  | some f =>
      simp only
      split_ifs
      · exact h.outside (a := .idle) rfl rfl id
      · exact .enters (a := .settingRate f) (h.free hfree) rfl rfl

theorem Held.callerStep (h : s.Held) (i : ℕ) (ok : Bool) : (s.callerStep i ok).Held := by
  unfold State.callerStep
  cases hpc : s.callers i with
  | idle => exact h
  | start =>
      simp only
      split_ifs
      · exact h.startStep i
      · exact h
  | join t =>
      simp only
      split_ifs
      · exact h.outside (a := .idle) rfl rfl id
      · exact h.outside (a := .startLocked) rfl rfl id
  | startLocked =>
      simp only
      split_ifs with hfree
      · exact h.outside (a := .idle) rfl rfl id
      · exact .enters (a := .opening) (h.free hfree) rfl rfl
      · exact h
  | opening | making =>
      have hi : (s.callers i).Holding := by rw [hpc]; trivial
      cases ok with
      | true => exact h.inside (a := _) hi rfl rfl
      | false => first | exact h.nextStart hi | exact Held.nextStart (s := s.releaseRecord) h hi
  | launching =>
      have hi : (s.callers i).Holding := by rw [hpc]; trivial
      cases ok <;> exact h.leaves (a := .idle) hi rfl id
  | stop restart =>
      simp only
      split_ifs
      · exact h.outside (a := .start) rfl rfl id
      · exact h.outside (a := .idle) rfl rfl id
      · exact h
  | setDecodeType type =>
      simp only
      split_ifs with hfree
      · exact h.setDecodeTypeStep hfree i type
      · exact h
  | settingRate f => exact h.inside (a := .settingChunk f) (by rw [hpc]; trivial) rfl rfl
  | settingChunk f =>
      have hi : (s.callers i).Holding := by rw [hpc]; trivial
      simp only
      split_ifs
      · exact h.leaves (a := .stop true) hi rfl id
      · exact h.leaves (a := .idle) hi rfl id

/-- **Every event keeps the monitor.** -/
theorem Held.step (h : s.Held) (e : Event) : (s.step e).Held := by
  cases e with
  | call i c =>
      simp only [State.step]
      split_ifs
      · cases c <;> exact h.outside rfl rfl id
      · exact h
  | caller i ok => exact h.callerStep i ok
  | capture t ok =>
      obtain ⟨hcallers, hmonitor, -⟩ := s.frame_captureStep t ok
      rw [Held, State.step, hcallers, hmonitor]
      exact h
  | read t result peak =>
      obtain ⟨hcallers, hmonitor, -⟩ := s.frame_readStep t result peak
      rw [Held, State.step, hcallers, hmonitor]
      exact h

end State
end Capture
end App
end Carlinkit
