/-
# The audio queue and its arrays

`CarlinkitAudioPlayer`: `audioQueue` and `pcmPool` with what the threads do to them,
`acquirePcmBuffer`, `recyclePcmBuffer`, `clearQueueAndRecycle`, `offerPcm`,
`offerControl` and `dropOldestPcm`.  Each step is one operation of the queue or of the
pool, and `AudioPlayer` says which thread makes it and when.

* An array is named by a number, and `arrays` has its bytes.  An array that is not needed
  when the pool is full is forgotten; such arrays are in `lost`, and nothing reads them
  again.
* An iterator of `dropOldestPcm` finds what was in the queue when it was made; if `missed`,
  it does not see what came after that.
* `audioQueueDropped` is counted together with the operation before or after it.  The
  other counters are only for the log, and are left out.

`Pcm.slice` is what the message said, which the code does not keep.
-/

import Carlinkit.Protocol.Audio
import Mathlib.Logic.Function.Basic

namespace Carlinkit
namespace App
namespace Audio

open Framing Protocol

/-- `AUDIO_QUEUE_CAPACITY`. -/
def audioQueueCapacity : ℕ := 16

/-- `AUDIO_QUEUE_HIGH_WATERMARK`. -/
def audioQueueHighWatermark : ℕ := 12

/-- `AUDIO_QUEUE_TARGET`. -/
def audioQueueTarget : ℕ := 4

/-- An `AudioWork` with PCM, and the slice of the payload that was copied. -/
structure Pcm where
  decodeType : BitVec 32
  array : ℕ
  pcmLength : ℕ
  slice : List Byte
deriving DecidableEq, Repr

/-- An `AudioWork` without PCM. -/
inductive Control
  | command (c : AudioCommand) (decodeType : BitVec 32)
  | mute (muted : Bool)
deriving DecidableEq, Repr

/-- What an `AudioWork` asks for. -/
inductive Item
  | pcm (p : Pcm)
  | control (c : Control)
deriving DecidableEq, Repr

/-- The array of an item. -/
def Item.arrays : Item → List ℕ
  | .pcm p => [p.array]
  | .control _ => []

/-- `AudioWork`, with the number of its acceptance as its identity. -/
structure Work where
  id : ℕ
  item : Item
deriving DecidableEq, Repr

/-- The queue, the pool and the arrays. -/
structure Buffers where
  queue : List Work
  /-- How many works were accepted. -/
  accepted : ℕ
  pool : List ℕ
  arrays : ℕ → List Byte
  /-- How many arrays were made. -/
  made : ℕ
  lost : List ℕ
  audioQueueDropped : ℕ

namespace Buffers

/-- Before anything came. -/
def new : Buffers where
  queue := []
  accepted := 0
  pool := []
  arrays _ := []
  made := 0
  lost := []
  audioQueueDropped := 0

/-- `acquirePcmBuffer`. -/
def acquire (b : Buffers) (length : ℕ) : ℕ × Buffers :=
  match b.pool.find? fun a => length ≤ (b.arrays a).length with
  | some a => (a, { b with pool := b.pool.erase a })
  | none =>
      (b.made, { b with
        arrays := Function.update b.arrays b.made (List.replicate length 0)
        made := b.made + 1 })

/-- `recyclePcmBuffer`. -/
def recycle (b : Buffers) (a : ℕ) : Buffers :=
  if b.pool.length < audioQueueCapacity then { b with pool := b.pool ++ [a] }
  else { b with lost := b.lost ++ [a] }

/-- Nobody holds the array any more. -/
def lose (b : Buffers) (a : ℕ) : Buffers := { b with lost := b.lost ++ [a] }

/-- `System.arraycopy` to the start of the array. -/
def copy (b : Buffers) (a : ℕ) (bytes : List Byte) : Buffers :=
  { b with arrays := Function.update b.arrays a (bytes ++ (b.arrays a).drop bytes.length) }

/-- `audioQueueDropped.addAndGet(n)`. -/
def drop (b : Buffers) (n : ℕ) : Buffers :=
  { b with audioQueueDropped := b.audioQueueDropped + n }

/-- `audioQueue.offer` does not refuse. -/
def HasRoom (b : Buffers) : Prop := b.queue.length < audioQueueCapacity

instance (b : Buffers) : Decidable b.HasRoom := inferInstanceAs (Decidable (_ < _))

/-- `audioQueue.offer` with room in the queue. -/
def accept (b : Buffers) (item : Item) : Buffers :=
  { b with queue := b.queue ++ [⟨b.accepted, item⟩], accepted := b.accepted + 1 }

/-- `audioQueue.poll`. -/
def poll (b : Buffers) : Option (Item × Buffers) :=
  match b.queue with
  | [] => none
  | w :: queue => some (w.item, { b with queue := queue })

/-- The PCM that an iterator of `dropOldestPcm` still finds, oldest first. -/
def oldestPcm (b : Buffers) (seen : ℕ) (missed : Bool) : Option (Work × Pcm) :=
  b.queue.findSome? fun w =>
    match w.item with
    | .pcm p => if missed ∧ seen ≤ w.id then none else some (w, p)
    | .control _ => none

/-- `audioQueue.remove(w)`. -/
def evict (b : Buffers) (w : Work) : Buffers := { b with queue := b.queue.erase w }

end Buffers

/-- Where a thread is in `offerPcm`. -/
inductive PcmPc
  /-- Before the test of the watermark. -/
  | size
  /-- Before the test of the loop, with what was trimmed so far. -/
  | trim (n : ℕ)
  /-- Before `dropOldestPcm`. -/
  | trimDrop (n : ℕ)
  /-- In its loop, whose iterator was made when `seen` works had been accepted. -/
  | trimScan (n seen : ℕ)
  /-- With an array that was removed. -/
  | trimmed (n array : ℕ)
  | offer
  /-- The first `offer` was refused. -/
  | drop
  | scan (seen : ℕ)
  | dropped (array : ℕ)
  | again
  /-- Before the last `recyclePcmBuffer`. -/
  | refuse
deriving DecidableEq, Repr

/-- Where a thread is in `offerControl`. -/
inductive ControlPc
  /-- Before `dropOldestPcm`, with what was purged so far. -/
  | drop (n : ℕ)
  | scan (n seen : ℕ)
  | dropped (n array : ℕ)
  | offer
  /-- The first `offer` was refused. -/
  | discard
  /-- In `clearQueueAndRecycle`, with the size that was seen before. -/
  | clear (n : ℕ)
  | clearing (n array : ℕ)
  | last
deriving DecidableEq, Repr

/-- The array that was taken out of the queue. -/
def PcmPc.taken : PcmPc → List ℕ
  | .trimmed _ array | .dropped array => [array]
  | _ => []

/-- The array that was taken out of the queue. -/
def ControlPc.taken : ControlPc → List ℕ
  | .dropped _ array | .clearing _ array => [array]
  | _ => []

/-- The first place in `offerControl`. -/
def ControlPc.enter (purgePcm : Bool) : ControlPc := if purgePcm then .drop 0 else .offer

namespace Buffers

/-- `offerPcm`; no place left is its return. -/
def offerPcm (b : Buffers) (p : Pcm) (missed : Bool) : PcmPc → Buffers × Option PcmPc
  | .size => (b, some (if audioQueueHighWatermark ≤ b.queue.length then .trim 0 else .offer))
  | .trim n =>
      if audioQueueTarget < b.queue.length then (b, some (.trimDrop n))
      else (b.drop n, some .offer)
  | .trimDrop n => (b, some (.trimScan n b.accepted))
  | .trimScan n seen =>
      match b.oldestPcm seen missed with
      | some (w, q) => (b.evict w, some (.trimmed n q.array))
      | none => (b.drop n, some .offer)
  | .trimmed n array => (b.recycle array, some (.trim (n + 1)))
  | .offer => if b.HasRoom then (b.accept (.pcm p), none) else (b, some .drop)
  | .drop => (b, some (.scan b.accepted))
  | .scan seen =>
      match b.oldestPcm seen missed with
      | some (w, q) => (b.evict w, some (.dropped q.array))
      | none => (b, some .refuse)
  | .dropped array => (b.recycle array, some .again)
  | .again =>
      if b.HasRoom then ((b.drop 1).accept (.pcm p), none) else (b.drop 1, some .refuse)
  | .refuse => ((b.recycle p.array).drop 1, none)

/-- `offerControl`. -/
def offerControl (b : Buffers) (c : Control) (missed : Bool) :
    ControlPc → Buffers × Option ControlPc
  | .drop n => (b, some (.scan n b.accepted))
  | .scan n seen =>
      match b.oldestPcm seen missed with
      | some (w, q) => (b.evict w, some (.dropped n q.array))
      | none => (b.drop n, some .offer)
  | .dropped n array => (b.recycle array, some (.drop (n + 1)))
  | .offer => if b.HasRoom then (b.accept (.control c), none) else (b, some .discard)
  | .discard => (b, some (.clear b.queue.length))
  | .clear n =>
      match b.poll with
      | some (.pcm p, b) => (b, some (.clearing n p.array))
      | some (.control _, b) => (b, some (.clear n))
      | none => (b.drop n, some .last)
  | .clearing n array => (b.recycle array, some (.clear n))
  -- a refusal is only logged
  | .last => if b.HasRoom then (b.accept (.control c), none) else (b, none)

end Buffers
end Audio
end App
end Carlinkit
