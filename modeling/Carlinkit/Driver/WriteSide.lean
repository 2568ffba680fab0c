/-
# The threads that write

`CarlinkitDriver`: `start`, `stop`, `send`, `dropOldestAudio`, `sendNow`,
`WriteLoop` and `HeartbeatLoop`, as threads of one machine (`State.step`).  An
event names the thread that moves, and one event is one action on what the
threads share: a test of `running`, one operation of the queue, taking
`writeLock`, one `bulkTransfer`.  `writeLock` is given back with the last
transfer under it, since nothing happens in between.

* `start` is over but for `sendInitSequence`, with the write thread running: it
  holds the monitor, so `stop` and the other threads come after it.
* Any number of threads call `send`, at any time and with any message; the
  requests of `ConnectLoop` are such calls.
* `stop` may run once; a second call returns at once.  A `join` can always
  return, because the thread ended or because its time is over.

Threads are never interrupted.  The fields from `wire` on are the record of what
happened, which the code does not keep but for the two counters: `accepted` are
the messages whose `offer` succeeded, in order, and `log` are the messages whose
last byte was written.
-/

import Carlinkit.Driver.SendNow
import Carlinkit.Driver.InitSequence
import Carlinkit.Machine.Run

namespace Carlinkit
namespace Driver

open Framing Protocol Machine

/-- `SEND_QUEUE_CAPACITY`. -/
def sendQueueCapacity : ℕ := 128

/-- `HEARTBEAT_MAX_FAILURES`. -/
def heartbeatMaxFailures : ℕ := 3

/-- `Outgoing`, with the number of its acceptance as its identity. -/
structure Outgoing where
  id : ℕ
  message : Message
deriving DecidableEq, Repr

/-- A test of `dropOldestAudio`. -/
def Outgoing.isAudio (o : Outgoing) : Bool := o.message.type == MessageType.audioData

/-- Why a message was written. -/
inductive Source
  | queued (id : ℕ)
  | heartbeat
  | closing
deriving DecidableEq, Repr

/-- A message on the wire. -/
structure Sent where
  source : Source
  message : Message
deriving DecidableEq, Repr

/-- Where a thread is in `send`. -/
inductive SendPc
  | idle
  | offer (m : Message)
  /-- The first `offer` was refused. -/
  | refused (m : Message)
  /-- In the loop of `dropOldestAudio`, whose iterator was made when `seen` messages
  had been accepted. -/
  | scanning (m : Message) (seen : ℕ)
  /-- A message was removed. -/
  | again (m : Message)
deriving DecidableEq, Repr

/-- Where `WriteLoop` is. -/
inductive WritePc
  | check
  | poll
  /-- Before `writeLock`, with a message. -/
  | hand (o : Outgoing)
  | header (o : Outgoing)
  | payload (o : Outgoing) (h : o.message.payload ≠ [])
  | ended
deriving DecidableEq, Repr

/-- Where `HeartbeatLoop` is. -/
inductive BeatPc
  | check
  /-- Before `writeLock`. -/
  | lock
  | header
  | sleep
  | ended
deriving DecidableEq, Repr

/-- Where `stop` is. -/
inductive StopPc
  | idle
  | joinWrite
  /-- Before `writeLock` for the closing messages. -/
  | lock
  | release
  | releasePayload
  | close
  | joinRead
  | joinBeat
  | joinConnect
  /-- Before `writeLock` for `releaseInterface`. -/
  | lockInterface
  | interface
  | done
deriving DecidableEq, Repr

/-- The holder of `writeLock`. -/
inductive Owner
  | writer
  | beat
  | stopper
deriving DecidableEq, Repr

/-- The heartbeat message. -/
def heartbeat : Message := ⟨MessageType.heartbeat, [], by decide⟩

/-- The first closing message. -/
def releaseVideoFocus : Message := sendCommand Command.releaseVideoFocus

/-- The second closing message. -/
def closeDongle : Message := ⟨MessageType.closeDongle, [], by decide⟩

/-- The driver, as far as the sending threads see it. -/
structure State where
  /-- What is left of `sendInitSequence`. -/
  todo : List Message
  queue : List Outgoing
  clients : ℕ → SendPc
  writer : WritePc
  beat : BeatPc
  /-- `consecutiveFailures` of `HeartbeatLoop`. -/
  failures : ℕ
  stopper : StopPc
  running : Bool
  lock : Option Owner
  sendDropped : ℕ
  sendFailed : ℕ
  /-- The messages of `onError`. -/
  errors : List String
  /-- The interface was released. -/
  released : Bool
  wire : List Byte
  log : List Sent
  accepted : List Message
  evicted : List Outgoing
  /-- The calls of `send` that have returned, with their results. -/
  returned : List (Message × Bool)
  /-- All of CLOSE_DONGLE was written. -/
  closeWritten : Bool

/-- Which thread moves, and the outcome of its transfer if it makes one. -/
inductive Event
  /-- `sendInitSequence` sends its next message. -/
  | init
  /-- Thread `i` calls `send`. -/
  | call (i : ℕ) (m : Message)
  /-- Thread `i` goes on in `send`; if `missed`, an iterator does not see what came
  after it was made. -/
  | send (i : ℕ) (missed : Bool)
  | write (o : Outcome)
  | beat (o : Outcome)
  /-- `stop` is called, or goes on. -/
  | stop (o : Outcome)
deriving DecidableEq, Repr

namespace State

/-- The driver in `start`, after the write thread was started. -/
def start (todo : List Message) : State where
  todo := todo
  queue := []
  clients _ := .idle
  writer := .check
  beat := .check
  failures := 0
  stopper := .idle
  running := true
  lock := none
  sendDropped := 0
  sendFailed := 0
  errors := []
  released := false
  wire := []
  log := []
  accepted := []
  evicted := []
  returned := []
  closeWritten := false

/-- `sendQueue.offer` with room in the queue. -/
def accept (s : State) (m : Message) : State :=
  { s with queue := s.queue ++ [⟨s.accepted.length, m⟩], accepted := s.accepted ++ [m] }

/-- `sendQueue.remove(o)`. -/
def evict (s : State) (o : Outgoing) : State :=
  { s with queue := s.queue.erase o, evicted := s.evicted ++ [o] }

/-- The next message of `sendInitSequence`; the queue has room for it. -/
def initStep (s : State) : State :=
  match s.todo with
  | [] => s
  | m :: todo =>
      if s.queue.length < sendQueueCapacity then { s.accept m with todo := todo } else s

/-- Thread `i` is at `pc` of `send`. -/
def setClient (s : State) (i : ℕ) (pc : SendPc) : State :=
  { s with clients := Function.update s.clients i pc }

/-- Thread `i` leaves `send(m)` with `result`. -/
def leaveSend (s : State) (i : ℕ) (m : Message) (result : Bool) : State :=
  { s.setClient i .idle with returned := s.returned ++ [(m, result)] }

/-- The audio that an iterator of `dropOldestAudio` still finds, oldest first. -/
def oldestAudio (s : State) (seen : ℕ) (missed : Bool) : Option Outgoing :=
  s.queue.find? fun o => o.isAudio && (!missed || decide (o.id < seen))

/-- Thread `i` in `send`. -/
def sendStep (s : State) (i : ℕ) (missed : Bool) : State :=
  match s.clients i with
  | .idle => s
  | .offer m =>
      if s.queue.length < sendQueueCapacity then (s.accept m).leaveSend i m true
      else s.setClient i (.refused m)
  | .refused m => s.setClient i (.scanning m s.accepted.length)
  | .scanning m seen =>
      match s.oldestAudio seen missed with
      | some o => (s.evict o).setClient i (.again m)
      | none => { s with sendDropped := s.sendDropped + 1 }.leaveSend i m false
  | .again m =>
      let s' := { s with sendDropped := s.sendDropped + 1 }
      if s.queue.length < sendQueueCapacity then (s'.accept m).leaveSend i m true
      else s'.leaveSend i m false

/-- One `bulkTransfer` on `epOut`. -/
def transfer (s : State) (bs : List Byte) (o : Outcome) : State :=
  { s with wire := s.wire ++ o.sent bs }

/-- A whole message is on the wire. -/
def record (s : State) (source : Source) (m : Message) : State :=
  { s with log := s.log ++ [⟨source, m⟩] }

/-- `WriteLoop`. -/
def writeStep (s : State) (o : Outcome) : State :=
  match s.writer with
  | .check => { s with writer := if s.running then .poll else .ended }
  | .poll =>
      match s.queue with
      -- nothing came for 200 ms
      | [] => { s with writer := .check }
      | x :: queue => { s with writer := .hand x, queue := queue }
  | .hand x => if s.lock = none then { s with writer := .header x, lock := some .writer } else s
  | .header x =>
      let s' := s.transfer x.message.headerBytes o
      if o = .full then
        if h : x.message.payload = [] then
          { s'.record (.queued x.id) x.message with writer := .check, lock := none }
        else { s' with writer := .payload x h }
      else { s' with writer := .check, lock := none, sendFailed := s.sendFailed + 1 }
  | .payload x _ =>
      let s' := s.transfer x.message.payload o
      if o = .full then
        { s'.record (.queued x.id) x.message with writer := .check, lock := none }
      else { s' with writer := .check, lock := none, sendFailed := s.sendFailed + 1 }
  | .ended => s

/-- `HeartbeatLoop`; its message has no payload. -/
def beatStep (s : State) (o : Outcome) : State :=
  match s.beat with
  | .check => { s with beat := if s.running then .lock else .ended }
  | .lock => if s.lock = none then { s with beat := .header, lock := some .beat } else s
  | .header =>
      let s' := s.transfer heartbeat.headerBytes o
      if o = .full then
        { s'.record .heartbeat heartbeat with beat := .sleep, lock := none, failures := 0 }
      else if s.failures + 1 < heartbeatMaxFailures then
        { s' with beat := .sleep, lock := none, failures := s.failures + 1 }
      else
        { s' with
          beat := .ended
          lock := none
          failures := s.failures + 1
          errors := s.errors ++
            ["heartbeat failed " ++ toString (s.failures + 1) ++ " times in a row"] }
  | .sleep => { s with beat := .check }
  | .ended => s

/-- `stop`.  A transfer that throws ends the block of the closing messages. -/
def stopStep (s : State) (o : Outcome) : State :=
  match s.stopper with
  | .idle => { s with stopper := .joinWrite, running := false }
  | .joinWrite => { s with stopper := .lock }
  | .lock => if s.lock = none then { s with stopper := .release, lock := some .stopper } else s
  | .release =>
      let s' := s.transfer releaseVideoFocus.headerBytes o
      if o = .full then { s' with stopper := .releasePayload }
      else if o.complete = none then { s' with stopper := .joinRead, lock := none }
      else { s' with stopper := .close }
  | .releasePayload =>
      let s' := s.transfer releaseVideoFocus.payload o
      if o = .full then { s'.record .closing releaseVideoFocus with stopper := .close }
      else if o.complete = none then { s' with stopper := .joinRead, lock := none }
      else { s' with stopper := .close }
  | .close =>
      let s' := s.transfer closeDongle.headerBytes o
      if o = .full then
        { s'.record .closing closeDongle with
          stopper := .joinRead, lock := none, closeWritten := true }
      else { s' with stopper := .joinRead, lock := none }
  | .joinRead => { s with stopper := .joinBeat }
  | .joinBeat => { s with stopper := .joinConnect }
  | .joinConnect => { s with stopper := .lockInterface }
  | .lockInterface =>
      if s.lock = none then { s with stopper := .interface, lock := some .stopper } else s
  | .interface => { s with stopper := .done, lock := none, released := true }
  | .done => s

/-- One event.  Until `sendInitSequence` is through, only the write thread runs
beside it. -/
def step (s : State) (e : Event) : State :=
  match e with
  | .init => s.initStep
  | .write o => s.writeStep o
  | .call i m =>
      if s.todo = [] ∧ s.clients i = .idle then s.setClient i (.offer m) else s
  | .send i missed => if s.todo = [] then s.sendStep i missed else s
  | .beat o => if s.todo = [] then s.beatStep o else s
  | .stop o => if s.todo = [] then s.stopStep o else s

/-! ### What a thread leaves alone -/

theorem sendStep_frame (s : State) (i : ℕ) (missed : Bool) :
    (s.sendStep i missed).writer = s.writer ∧ (s.sendStep i missed).beat = s.beat ∧
      (s.sendStep i missed).stopper = s.stopper ∧ (s.sendStep i missed).running = s.running ∧
      (s.sendStep i missed).released = s.released ∧ (s.sendStep i missed).wire = s.wire ∧
      (s.sendStep i missed).closeWritten = s.closeWritten := by
  cases hpc : s.clients i with
  | idle | refused m => simp [sendStep, hpc, setClient]
  | offer m | again m =>
      simp only [sendStep, hpc]
      split_ifs <;> exact ⟨rfl, rfl, rfl, rfl, rfl, rfl, rfl⟩
  | scanning m seen =>
      simp only [sendStep, hpc]
      cases s.oldestAudio seen missed <;> exact ⟨rfl, rfl, rfl, rfl, rfl, rfl, rfl⟩

theorem initStep_frame (s : State) :
    s.initStep.writer = s.writer ∧ s.initStep.beat = s.beat ∧ s.initStep.stopper = s.stopper ∧
      s.initStep.running = s.running ∧ s.initStep.released = s.released ∧
      s.initStep.wire = s.wire ∧ s.initStep.closeWritten = s.closeWritten ∧
      s.initStep.clients = s.clients := by
  unfold initStep
  cases s.todo with
  | nil => exact ⟨rfl, rfl, rfl, rfl, rfl, rfl, rfl, rfl⟩
  | cons m todo =>
      simp only
      split_ifs <;> exact ⟨rfl, rfl, rfl, rfl, rfl, rfl, rfl, rfl⟩

theorem writeStep_frame (s : State) (o : Outcome) :
    (s.writeStep o).beat = s.beat ∧ (s.writeStep o).stopper = s.stopper ∧
      (s.writeStep o).running = s.running ∧ (s.writeStep o).released = s.released ∧
      (s.writeStep o).closeWritten = s.closeWritten ∧ (s.writeStep o).clients = s.clients := by
  cases hpc : s.writer with
  | check | ended => simp [writeStep, hpc]
  | poll =>
      simp only [writeStep, hpc]
      cases s.queue <;> exact ⟨rfl, rfl, rfl, rfl, rfl, rfl⟩
  | hand x | header x | payload x hne =>
      simp only [writeStep, hpc]
      split_ifs <;> exact ⟨rfl, rfl, rfl, rfl, rfl, rfl⟩

theorem beatStep_frame (s : State) (o : Outcome) :
    (s.beatStep o).writer = s.writer ∧ (s.beatStep o).stopper = s.stopper ∧
      (s.beatStep o).running = s.running ∧ (s.beatStep o).released = s.released ∧
      (s.beatStep o).closeWritten = s.closeWritten ∧ (s.beatStep o).clients = s.clients := by
  cases hpc : s.beat with
  | check | sleep | ended => simp [beatStep, hpc]
  | lock | header =>
      simp only [beatStep, hpc]
      split_ifs <;> exact ⟨rfl, rfl, rfl, rfl, rfl, rfl⟩

/-- **The write thread writes what `sendNow` writes**, in one transfer or in two. -/
theorem writeStep_sendNow {s : State} {x : Outgoing} (hpc : s.writer = .header x)
    (o₁ o₂ : Outcome) :
    (if o₁ = .full ∧ x.message.payload ≠ [] then (s.writeStep o₁).writeStep o₂
      else s.writeStep o₁).wire = s.wire ++ (sendNow x.message o₁ o₂).1 := by
  cases o₁ with
  | full =>
      by_cases hp : x.message.payload = []
      · simp [writeStep, hpc, hp, transfer, record, sendNow, Outcome.complete]
      · simp only [ne_eq, hp, not_false_eq_true, and_self, if_true, writeStep, hpc, dite_false]
        split_ifs with ho <;>
          simp [transfer, record, sendNow, Outcome.complete, Outcome.sent, hp, ho]
  | failed n throws =>
      cases throws <;> simp [writeStep, hpc, transfer, sendNow, Outcome.complete]

end State

/-- Every transfer of the event writes all it is given. -/
def Event.Full : Event → Prop
  | .init | .call _ _ | .send _ _ => True
  | .write o | .beat o | .stop o => o = .full

instance : ∀ e : Event, Decidable e.Full
  | .init | .call _ _ | .send _ _ => .isTrue trivial
  | .write o | .beat o | .stop o => inferInstanceAs (Decidable (o = .full))

end Driver
end Carlinkit
