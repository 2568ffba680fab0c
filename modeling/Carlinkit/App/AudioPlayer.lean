/-
# The threads of the audio player

`CarlinkitAudioPlayer`: `start`, `stop`, `setMuted`, `onAudio` and `AudioWriteLoop`, as
threads of one machine (`State.step`).  An event names the thread that moves, and one
event is one action on what the threads share.

* The read thread of the driver fills its payload buffer and calls `onAudio`, one message
  after another.  Any number of threads call `start`, `stop` and `setMuted`, at any time.
  Each `start` that goes well makes a worker.
* `lock` is the caller in a block of `lifecycleLock`, which `lifecycleLock.wait` gives
  back for a while.  The blocks of the worker and the second one of `stop` are one event.
* A `wait` and a `join` can always return, because what they wait for came or because
  their time is over; a `start` can also be interrupted.
* An `AudioTrack` is used by the worker alone, so a call of it is one event, before which
  the worker is at that call (`WorkerPc.uses`); it may throw.  An exception may also come
  out of the worker at any other place (`Event.throw`).

Left out are the counters for the log, and the geometry of the frames that
`recordFill` needs.
-/

import Carlinkit.App.AudioQueue
import Carlinkit.Machine.Run
import Carlinkit.Machine.Threads

namespace Carlinkit
namespace App
namespace Audio

open Framing Protocol Machine

/-- The bytes of the PCM range, if the payload has it. -/
def slice (payload : Option (List Byte)) (m : AudioMessage) : Option (List Byte) :=
  match payload with
  | some bytes =>
      if m.pcmOffset + m.pcmLength ≤ bytes.length then
        some ((bytes.drop m.pcmOffset).take m.pcmLength)
      else none
  | none => none

/-- Where the read thread is in `onAudio`, with the slice as it was at the call. -/
inductive ReaderPc
  | idle
  /-- Before the test of `running`. -/
  | check (m : AudioMessage) (said : Option (List Byte))
  /-- Before the test of `muted`. -/
  | muteTest (m : AudioMessage) (said : Option (List Byte))
  | acquire (m : AudioMessage) (said : Option (List Byte))
  /-- Before `System.arraycopy`. -/
  | copy (m : AudioMessage) (said : Option (List Byte)) (array : ℕ)
  | pcm (p : Pcm) (pc : PcmPc)
  | control (c : Control) (pc : ControlPc)
deriving DecidableEq, Repr

/-- A call of a thread other than the read thread. -/
inductive Call
  | start
  | stop
  | setMuted (muted : Bool)
deriving DecidableEq, Repr

/-- Where a calling thread is. -/
inductive CallerPc
  | idle
  /-- Before the block of `start`. -/
  | start
  /-- In the block, before the test of the previous worker. -/
  | startTest
  /-- In `lifecycleLock.wait`. -/
  | startWait
  /-- In `clearQueueAndRecycle`. -/
  | startClear
  | startRecycle (array : ℕ)
  | startReset
  /-- Before `running` is set. -/
  | startRunning
  /-- Before `audioThread` is set. -/
  | startThread
  /-- Before `t.start()`. -/
  | startLaunch (t : ℕ)
  /-- Before the first block of `stop`. -/
  | stop
  | stopClear
  | stopRecycle (array : ℕ)
  | stopInterrupt
  | join (t : ℕ)
  /-- Before the second block of `stop`. -/
  | settle (t : ℕ)
  /-- Before `muted` is set. -/
  | mute (muted : Bool)
  /-- Before the test of `running` in `setMuted`. -/
  | muteCheck (muted : Bool)
  | control (c : Control) (pc : ControlPc)
deriving DecidableEq, Repr

/-- Where a worker is; `rest` are the tracks that its loop still comes to. -/
inductive WorkerPc
  | unborn
  /-- Before the test of `running`. -/
  | checkRunning
  /-- Before the test of `audioThread`. -/
  | checkThread
  | poll
  /-- After an `InterruptedException`, before the test of `running`. -/
  | wokenRunning
  | wokenThread
  /-- In `writePcm`, before the test of `muted`. -/
  | pcm (p : Pcm)
  /-- Before `ensureTrack`. -/
  | ensure (p : Pcm)
  /-- Before `new AudioTrack`. -/
  | create (p : Pcm)
  /-- Before `play` of the new track. -/
  | playFresh (p : Pcm) (a : ℕ)
  | play (p : Pcm) (a : ℕ)
  | write (p : Pcm) (a : ℕ)
  /-- In the `finally` of the item, with an exception on its way or not. -/
  | recycle (p : Pcm) (threw : Bool)
  | command (c : AudioCommand) (decodeType : BitVec 32)
  | mute (muted : Bool)
  | pause (a : ℕ) (rest : List ℕ)
  | flush (a : ℕ) (rest : List ℕ)
  | unmute (a : ℕ) (rest : List ℕ)
  /-- Before the block of the `catch`. -/
  | catching
  /-- Before `releaseTrack`. -/
  | leaving
  | stopTrack (a : ℕ) (rest : List ℕ)
  | release (a : ℕ) (rest : List ℕ)
  /-- Before the end of `releaseTrack`. -/
  | forget
  /-- Before the block of the `finally`. -/
  | ending
  | ended
  | dead
deriving DecidableEq, Repr

/-- `Thread.isAlive`. -/
def WorkerPc.Alive : WorkerPc → Prop
  | .unborn | .dead => False
  | _ => True

/-- Between entering `run` and the end of `releaseTrack`. -/
def WorkerPc.InRun : WorkerPc → Prop
  | .unborn | .ending | .ended | .dead => False
  | _ => True

/-- The `AudioTrack` whose call the worker is at. -/
def WorkerPc.uses : WorkerPc → Option ℕ
  | .playFresh _ a | .play _ a | .write _ a | .pause a _ | .flush a _ | .unmute a _
  | .stopTrack a _ | .release a _ => some a
  | _ => none

instance : ∀ pc : WorkerPc, Decidable pc.Alive
  | .unborn | .dead => .isFalse id
  | .checkRunning | .checkThread | .poll | .wokenRunning | .wokenThread | .pcm _ | .ensure _
  | .create _ | .playFresh .. | .play .. | .write .. | .recycle .. | .command .. | .mute _
  | .pause .. | .flush .. | .unmute .. | .catching | .leaving | .stopTrack .. | .release ..
  | .forget | .ending | .ended => .isTrue trivial

instance : ∀ pc : WorkerPc, Decidable pc.InRun
  | .unborn | .ending | .ended | .dead => .isFalse id
  | .checkRunning | .checkThread | .poll | .wokenRunning | .wokenThread | .pcm _ | .ensure _
  | .create _ | .playFresh .. | .play .. | .write .. | .recycle .. | .command .. | .mute _
  | .pause .. | .flush .. | .unmute .. | .catching | .leaving | .stopTrack .. | .release ..
  | .forget => .isTrue trivial

/-- The tracks of the player. -/
structure Tracks where
  tracks : List (BitVec 32 × ℕ)
  track : Option ℕ
  currentDecodeType : BitVec 32
  /-- The play state of a track is `PLAYING`. -/
  playing : ℕ → Bool
  /-- How many were made. -/
  made : ℕ

namespace Tracks

def new : Tracks := ⟨[], none, -1, fun _ => false, 0⟩

/-- The current track, if it is for `decodeType`. -/
def current (ts : Tracks) (decodeType : BitVec 32) : Option ℕ :=
  if ts.currentDecodeType = decodeType then ts.track else none

/-- `tracks.get`. -/
def get (ts : Tracks) (decodeType : BitVec 32) : Option ℕ := ts.tracks.lookup decodeType

/-- `tracks.values()`. -/
def values (ts : Tracks) : List ℕ := ts.tracks.map Prod.snd

/-- `a` is the current track from now on. -/
def adopt (ts : Tracks) (decodeType : BitVec 32) (a : ℕ) : Tracks :=
  { ts with track := some a, currentDecodeType := decodeType }

/-- `tracks.put` of a new track. -/
def put (ts : Tracks) (decodeType : BitVec 32) (a : ℕ) : Tracks :=
  { ts with tracks := ts.tracks ++ [(decodeType, a)] }.adopt decodeType a

/-- The play state of `a`. -/
def setPlaying (ts : Tracks) (a : ℕ) (playing : Bool) : Tracks :=
  { ts with playing := Function.update ts.playing a playing }

/-- The next call in the loop of `applyMuted`. -/
def nextMuted (muted : Bool) : List ℕ → WorkerPc
  | [] => .checkRunning
  | a :: rest => if muted then .pause a rest else .unmute a rest

/-- The next call in the loop of `releaseTrack`. -/
def nextRelease (ts : Tracks) : List ℕ → WorkerPc
  | [] => .forget
  | a :: rest => if ts.playing a then .stopTrack a rest else .release a rest

/-- The end of `releaseTrack`. -/
def clear (ts : Tracks) : Tracks := { ts with tracks := [], track := none, currentDecodeType := -1 }

end Tracks

/-- The commands that `handleCommand` flushes a track for. -/
def isStop : AudioCommand → Bool
  | .outputStop | .mediaStop | .phonecallStop | .naviStop | .siriStop => true
  | _ => false

/-- The player and its threads. -/
structure State where
  buffers : Buffers
  tracks : Tracks
  /-- The driver's payload buffer. -/
  payload : Option (List Byte)
  running : Bool
  muted : Bool
  audioThread : Option ℕ
  lock : Option ℕ
  /-- The interrupt status of a worker. -/
  interrupted : ℕ → Bool
  reader : ReaderPc
  callers : ℕ → CallerPc
  workers : ℕ → WorkerPc
  /-- How many workers were made. -/
  threads : ℕ

/-- Which thread moves.  `ok` is what comes of its action: a wait goes on, the worker starts,
a call of an `AudioTrack` does not throw. -/
inductive Event
  /-- The driver reads into its payload buffer. -/
  | receive (payload : Option (List Byte))
  | onAudio (m : Option AudioMessage)
  | read (missed : Bool)
  | call (i : ℕ) (c : Call)
  | caller (i : ℕ) (ok missed : Bool)
  | worker (t : ℕ) (ok : Bool)
  /-- An exception comes out of what the worker is at. -/
  | throw (t : ℕ)
deriving DecidableEq, Repr

/-- A new player. -/
def new : State where
  buffers := .new
  tracks := .new
  payload := none
  running := false
  muted := false
  audioThread := none
  lock := none
  interrupted _ := false
  reader := .idle
  callers _ := .idle
  workers _ := .unborn
  threads := 0

namespace State

/-- Thread `i` is at `pc`. -/
def setCaller (s : State) (i : ℕ) (pc : CallerPc) : State :=
  { s with callers := Function.update s.callers i pc }

/-- Worker `t` is at `pc`. -/
def setWorker (s : State) (t : ℕ) (pc : WorkerPc) : State :=
  { s with workers := Function.update s.workers t pc }

/-- `onAudio`. -/
def readStep (s : State) (missed : Bool) : State :=
  match s.reader with
  | .idle => s
  | .check m said =>
      if s.running then
        match m.kind with
        | .command =>
            { s with reader := .control (.command m.audioCommand m.decodeType) (.enter false) }
        | .pcm =>
            if s.payload = none ∨ m.pcmLength = 0 then { s with reader := .idle }
            else { s with reader := .muteTest m said }
        | .volumeDuration => { s with reader := .idle }
      else { s with reader := .idle }
  | .muteTest m said => { s with reader := if s.muted then .idle else .acquire m said }
  | .acquire m said =>
      let (array, buffers) := s.buffers.acquire m.pcmLength
      { s with buffers := buffers, reader := .copy m said array }
  | .copy m said array =>
      match slice s.payload m with
      | some bytes =>
          { s with
            buffers := s.buffers.copy array bytes
            reader := .pcm ⟨m.decodeType, array, m.pcmLength, said.getD []⟩ .size }
      -- `arraycopy` throws
      | none => { s with buffers := s.buffers.lose array, reader := .idle }
  | .pcm p pc =>
      let (buffers, next) := s.buffers.offerPcm p missed pc
      { s with buffers := buffers, reader := next.elim .idle (.pcm p) }
  | .control c pc =>
      let (buffers, next) := s.buffers.offerControl c missed pc
      { s with buffers := buffers, reader := next.elim .idle (.control c) }

/-- A thread calls the player. -/
def call (s : State) (i : ℕ) : Call → State
  | .start => s.setCaller i .start
  | .stop => s.setCaller i .stop
  | .setMuted muted => s.setCaller i (.mute muted)

/-- `clearQueueAndRecycle` of thread `i`. -/
def clearStep (s : State) (i : ℕ) (again : CallerPc) (recycle : ℕ → CallerPc) (done : CallerPc) :
    State :=
  match s.buffers.poll with
  | some (.pcm p, buffers) => { s with buffers := buffers }.setCaller i (recycle p.array)
  | some (.control _, buffers) => { s with buffers := buffers }.setCaller i again
  | none => s.setCaller i done

/-- `start`, `stop` and `setMuted`. -/
def callerStep (s : State) (i : ℕ) (ok missed : Bool) : State :=
  match s.callers i with
  | .idle => s
  | .start =>
      if s.lock = none then
        if s.running then s.setCaller i .idle else { s.setCaller i .startTest with lock := some i }
      else s
  | .startTest =>
      if ∃ t ∈ s.audioThread, (s.workers t).Alive then
        { s.setCaller i (if ok then .startWait else .idle) with lock := none }
      else s.setCaller i .startClear
  | .startWait =>
      if s.lock = none then
        if ok then { s.setCaller i .startTest with lock := some i } else s.setCaller i .idle
      else s
  | .startClear => s.clearStep i .startClear .startRecycle .startReset
  | .startRecycle array => { s with buffers := s.buffers.recycle array }.setCaller i .startClear
  | .startReset =>
      { s with buffers := { s.buffers with audioQueueDropped := 0 } }.setCaller i .startRunning
  | .startRunning => { s.setCaller i .startThread with running := true }
  | .startThread =>
      { s.setCaller i (.startLaunch s.threads) with
        audioThread := some s.threads, threads := s.threads + 1 }
  | .startLaunch t =>
      let s := { s.setCaller i .idle with lock := none }
      if ok then s.setWorker t .checkRunning else s
  | .stop =>
      if s.lock = none then
        if ¬ s.running ∧ s.audioThread = none then s.setCaller i .idle
        else { s.setCaller i .stopClear with running := false, lock := some i }
      else s
  | .stopClear => s.clearStep i .stopClear .stopRecycle .stopInterrupt
  | .stopRecycle array => { s with buffers := s.buffers.recycle array }.setCaller i .stopClear
  | .stopInterrupt =>
      match s.audioThread with
      | some t =>
          { s.setCaller i (.join t) with
            interrupted := Function.update s.interrupted t true, lock := none }
      | none => { s.setCaller i .idle with lock := none }
  | .join t => s.setCaller i (.settle t)
  | .settle t =>
      if s.lock = none then
        if s.audioThread = some t ∧ ¬ (s.workers t).Alive then
          { s.setCaller i .idle with audioThread := none }
        else s.setCaller i .idle
      else s
  | .mute muted => { s.setCaller i (.muteCheck muted) with muted := muted }
  | .muteCheck muted =>
      s.setCaller i (if s.running then .control (.mute muted) (.enter muted) else .idle)
  | .control c pc =>
      let (buffers, next) := s.buffers.offerControl c missed pc
      { s with buffers := buffers }.setCaller i (next.elim .idle (.control c))

/-- `ensureTrack`, up to the first call of a track. -/
def ensureStep (s : State) (t : ℕ) (p : Pcm) : State :=
  match s.tracks.current p.decodeType with
  | some a =>
      s.setWorker t (if s.muted ∨ s.tracks.playing a = true then .write p a else .play p a)
  | none =>
      match s.tracks.get p.decodeType with
      | some a =>
          { s with tracks := s.tracks.adopt p.decodeType a }.setWorker t
            (if s.muted then .write p a else .play p a)
      | none => s.setWorker t (if formatOf p.decodeType = none then .recycle p false else .create p)

/-- `new AudioTrack`, and the test of `muted`; the track may not initialise. -/
def createStep (s : State) (t : ℕ) (p : Pcm) (ok : Bool) : State :=
  if ok then
    let a := s.tracks.made
    let s := { s with tracks := { s.tracks.setPlaying a false with made := a + 1 } }
    if s.muted then { s with tracks := s.tracks.put p.decodeType a }.setWorker t (.write p a)
    else s.setWorker t (.playFresh p a)
  else s.setWorker t (.recycle p false)

/-- What a polled item leads to. -/
def dispatch : Item → WorkerPc
  | .pcm p => .pcm p
  | .control (.command c decodeType) => .command c decodeType
  | .control (.mute muted) => .mute muted

/-- `handleCommand`, up to the first call of a track. -/
def commandStep (s : State) (t : ℕ) (c : AudioCommand) (decodeType : BitVec 32) : State :=
  match if isStop c then s.tracks.get decodeType else none with
  | some a => s.setWorker t (if s.tracks.playing a then .pause a [] else .flush a [])
  | none => s.setWorker t .checkRunning

/-- `AudioWriteLoop`. -/
def workerStep (s : State) (t : ℕ) (ok : Bool) : State :=
  match s.workers t with
  | .unborn | .dead => s
  | .checkRunning => s.setWorker t (if s.running then .checkThread else .leaving)
  | .checkThread => s.setWorker t (if s.audioThread = some t then .poll else .leaving)
  | .poll =>
      if s.interrupted t then
        { s.setWorker t .wokenRunning with
          interrupted := Function.update s.interrupted t false }
      else
        match s.buffers.poll with
        | some (item, buffers) => { s with buffers := buffers }.setWorker t (dispatch item)
        -- nothing came for 200 ms
        | none => s.setWorker t .checkRunning
  | .wokenRunning => s.setWorker t (if s.running then .wokenThread else .leaving)
  | .wokenThread => s.setWorker t (if s.audioThread = some t then .checkRunning else .leaving)
  | .pcm p => s.setWorker t (if s.muted ∨ p.pcmLength = 0 then .recycle p false else .ensure p)
  | .ensure p => s.ensureStep t p
  | .create p => s.createStep t p ok
  | .playFresh p a =>
      if ok then
        { s with tracks := (s.tracks.setPlaying a true).put p.decodeType a }.setWorker t
          (.write p a)
      else s.setWorker t (.recycle p false)
  | .play p a =>
      { s with tracks := if ok then s.tracks.setPlaying a true else s.tracks }.setWorker t
        (.write p a)
  | .write p _ => s.setWorker t (.recycle p false)
  | .recycle p threw =>
      { s with buffers := s.buffers.recycle p.array }.setWorker t
        (if threw then .catching else .checkRunning)
  | .command c decodeType => s.commandStep t c decodeType
  | .mute muted => s.setWorker t (Tracks.nextMuted muted s.tracks.values)
  | .pause a rest =>
      if ok then { s with tracks := s.tracks.setPlaying a false }.setWorker t (.flush a rest)
      else s.setWorker t (Tracks.nextMuted true rest)
  | .flush _ rest => s.setWorker t (Tracks.nextMuted true rest)
  | .unmute a rest =>
      { s with tracks := if ok then s.tracks.setPlaying a true else s.tracks }.setWorker t
        (Tracks.nextMuted false rest)
  | .catching =>
      if s.lock = none then
        { s.setWorker t .leaving with
          running := if s.audioThread = some t then false else s.running }
      else s
  | .leaving => s.setWorker t (s.tracks.nextRelease s.tracks.values)
  | .stopTrack a rest =>
      if ok then { s with tracks := s.tracks.setPlaying a false }.setWorker t (.release a rest)
      else s.setWorker t (s.tracks.nextRelease rest)
  | .release _ rest => s.setWorker t (s.tracks.nextRelease rest)
  | .forget => { s with tracks := s.tracks.clear }.setWorker t .ending
  | .ending =>
      if s.lock = none then
        if s.audioThread = some t then
          { s.setWorker t .ended with audioThread := none, running := false }
        else s.setWorker t .ended
      else s
  | .ended => s.setWorker t .dead

/-- An exception comes out of what worker `t` is at. -/
def throwStep (s : State) (t : ℕ) : State :=
  match s.workers t with
  | .unborn | .dead => s
  | .pcm p | .ensure p | .create p | .playFresh p _ | .play p _ | .write p _ =>
      s.setWorker t (.recycle p true)
  | .recycle p _ => { s with buffers := s.buffers.lose p.array }.setWorker t .catching
  | .catching => s.setWorker t .leaving
  -- out of the `finally` the thread dies
  | .leaving | .stopTrack .. | .release .. | .forget | .ending | .ended => s.setWorker t .dead
  | _ => s.setWorker t .catching

/-- One event. -/
def step (s : State) : Event → State
  | .receive payload => if s.reader = .idle then { s with payload := payload } else s
  | .onAudio m =>
      match m with
      | some m =>
          if s.reader = .idle then { s with reader := .check m (slice s.payload m) } else s
      | none => s
  | .read missed => s.readStep missed
  | .call i c => if s.callers i = .idle then s.call i c else s
  | .caller i ok missed => s.callerStep i ok missed
  | .worker t ok => s.workerStep t ok
  | .throw t => s.throwStep t

end State
end Audio
end App
end Carlinkit
