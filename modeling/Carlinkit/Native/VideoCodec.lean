/-
# The native video codec and its two threads

`OMXVideoCodec` (C++) behind the JNI functions of `OMXVideoCodec.java`.  The methods of
`CarlinkitVideoRenderer` are `synchronized`, so one thread at a time is in these functions:
the caller.  `init` starts the decoder thread (`init_omxDecoderThread`), which makes the
source and the decoder, says so, and then reads until `shutdown` tells it to stop.

`init` waits for the decoder thread with a mutex and a condition variable.  The test of
`decoderThreadInitialized_` and the wait are one step, as the mutex is held from one to the
other; a notification wakes only who waits, and a wait may also end by itself (`spurious`).

`OMXCodec` is not in the repository.  Its part of a run is in the events: how `connect`,
`Create` and `start` come out (`Opening`), how often `OMXCodec::read` asks the source for a
buffer before it returns.  A call through a null pointer, a call after `nativeDelete`, and a
`std::thread` that is overwritten or destroyed while it runs end the process (`crashed`).

`handed`, `calls` and `surface` record what was passed to the native side.  The references to
the window are left out.
-/

import Carlinkit.App.SpsDetection
import Carlinkit.Native.OmxSource

namespace Carlinkit
namespace Native

open Framing Machine App

/-- How `client_->connect()`, `OMXCodec::Create` and `decoder_->start()` come out; `0` is
`OK`. -/
structure Opening where
  connect : ℤ
  codec : Bool
  start : ℤ
deriving DecidableEq, Repr

/-- `OMXDecoder`: `status_`, whether there is a `decoder_`, and the format that `Create`
got. -/
structure OMXDecoder where
  status : ℤ
  decoder : Bool
  created : Option Format
deriving DecidableEq

/-- `new OMXDecoder()`. -/
def OMXDecoder.new : OMXDecoder := ⟨-1, false, none⟩

/-- `OMXDecoder::init`, with the format of the source; `none` is `start()` on a null
`decoder_`. -/
def OMXDecoder.init (d : OMXDecoder) (format : Format) (o : Opening) : OMXDecoder × Bool :=
  if o.connect = 0 then
    if o.codec then (⟨o.start, true, some format⟩, false)
    else ({ d with status := 0, created := some format }, true)
  else ({ d with status := o.connect }, false)

/-- Where the caller is. -/
inductive CallerPc
  | idle
  /-- `init`: before the test of `decoderThreadInitialized_` -/
  | initLock
  /-- `init`: in `omxDecoderCond_.wait` -/
  | initWaiting
  /-- `init`: before `omxDecoder_->getStatus()` -/
  | initStatus
  /-- `queueBuffer`: the buffer is made -/
  | made (buffer : MediaBuffer)
  /-- `shutdown`: before `decoderThreadQuitFlag_ = true` -/
  | quitting
  /-- `shutdown`: before `omxSource_->stop()` -/
  | stopping
  /-- `shutdown`: in `omxDecoderThread_.join()` -/
  | joining
  /-- `nativeDelete`: before `delete` -/
  | deleting
deriving DecidableEq

/-- Where the decoder thread is. -/
inductive DecoderPc
  | absent
  /-- before `new OMXSource` -/
  | makeSource
  /-- before `new OMXDecoder` -/
  | makeDecoder
  /-- before `omxDecoder_->init()` -/
  | initDecoder
  /-- before `decoderThreadInitialized_ = true` -/
  | announce
  /-- before `notify_one` -/
  | notify
  /-- before the test of `decoderThreadQuitFlag_` -/
  | test
  /-- before `decoder_->read` -/
  | read
  /-- in `OMXCodec::read` -/
  | reading
  /-- in `OMXSource::read`, called from there -/
  | pulling
  /-- in `OMXCodec::read`, after the source gave `ERROR_END_OF_STREAM` -/
  | drained
  /-- before `omxDecoder_->stop()` -/
  | stop
  | ended
deriving DecidableEq, Repr

/-- `OMXVideoCodec`, and the threads in it. -/
structure VideoCodec where
  /-- `screenSize_.width` -/
  width : ℤ
  /-- `screenSize_.height` -/
  height : ℤ
  fps : ℤ
  omxSource : Option OMXSource
  omxDecoder : Option OMXDecoder
  decoderThreadInitialized : Bool
  decoderThreadQuitFlag : Bool
  caller : CallerPc
  decoder : DecoderPc
  /-- what `nativeDecoderInit` returned -/
  result : Option Bool
  /-- the width and the height that `setSurface` got -/
  surface : ℤ × ℤ
  deleted : Bool
  crashed : Bool
  handed : List MediaBuffer
  calls : List NativeCall
deriving DecidableEq

/-- What happens next. -/
inductive Event
  /-- `setSurface(surface, width, height)` -/
  | setSurface (width height : ℤ)
  /-- `nativeDecoderInit(fps)` -/
  | init (fps : ℤ)
  /-- `nativeSetSps(buf, len)` -/
  | setSps (buf : List Byte) (len : ℕ)
  /-- `nativeConsume(buf, len, t)` -/
  | consume (buf : List Byte) (len : ℕ) (t : ℤ)
  /-- `nativeDelete()` -/
  | delete
  /-- the next action of the caller -/
  | caller
  /-- the next action of the decoder thread -/
  | decoder (o : Opening) (pulls : Bool)
  /-- a wait that ends by itself -/
  | spurious

/-- An action of the decoder thread. -/
def Event.IsDecoder : Event → Prop
  | .decoder _ _ => True
  | _ => False

instance : DecidablePred Event.IsDecoder := fun e => by
  cases e <;> unfold Event.IsDecoder <;> infer_instance

/-- An action of the caller. -/
def Event.IsCaller : Event → Prop
  | .caller => True
  | _ => False

instance : DecidablePred Event.IsCaller := fun e => by
  cases e <;> unfold Event.IsCaller <;> infer_instance

namespace VideoCodec

/-- `new OMXVideoCodec()`; `ScreenSize` starts with zeros. -/
def new : VideoCodec :=
  ⟨0, 0, 0, none, none, false, false, .idle, .absent, none, (0, 0), false, false, [], []⟩

/-- The process ends. -/
def crash (s : VideoCodec) : VideoCodec := { s with crashed := true }

/-- `setNativeWindow(nativeWindow, height, width)`. -/
def setNativeWindow (s : VideoCodec) (height width : ℤ) : VideoCodec :=
  { s with width := width, height := height }

/-- `nativeSurfaceInit(surface, width, height)`. -/
def nativeSurfaceInit (s : VideoCodec) (width height : ℤ) : VideoCodec :=
  s.setNativeWindow height width

/-- `setSurface(surface, width, height)` of the Java class. -/
def setSurface (s : VideoCodec) (width height : ℤ) : VideoCodec :=
  { s.nativeSurfaceInit height width with surface := (width, height) }

/-- `init(fps)` up to the lock: the thread is started. -/
def init (s : VideoCodec) (fps : ℤ) : VideoCodec :=
  if s.decoder = .absent then { s with fps := fps, decoder := .makeSource, caller := .initLock }
  else s.crash

/-- `setSps`. -/
def setSps (s : VideoCodec) (buf : List Byte) (len : ℕ) : VideoCodec :=
  match s.omxSource with
  | none => s.crash
  | some x =>
      { s with omxSource := some (x.setAvcc (buf.take len)), calls := s.calls ++ [.setSps buf len] }

/-- `queueBuffer` up to `source()->queueBuffer`: the copy is made. -/
def queueBuffer (s : VideoCodec) (buf : List Byte) (len : ℕ) (t : ℤ) : VideoCodec :=
  let s := { s with calls := s.calls ++ [.consume buf len] }
  if s.decoderThreadQuitFlag then s
  else
    let buffer : MediaBuffer := ⟨buf.take len, t⟩
    { s with caller := .made buffer, handed := s.handed ++ [buffer] }

/-- `shutdown` up to its first action. -/
def shutdown (s : VideoCodec) : VideoCodec :=
  { s with caller := if s.decoderThreadInitialized then .quitting else .deleting }

/-- The next action of the caller in the function that it is in. -/
def callerStep (s : VideoCodec) : VideoCodec :=
  match s.caller with
  | .idle | .initWaiting => s
  | .initLock =>
      { s with caller := if s.decoderThreadInitialized then .initStatus else .initWaiting }
  | .initStatus =>
      match s.omxDecoder with
      | none => s.crash
      | some d => { s with caller := .idle, result := some (decide (d.status = 0)) }
  | .made buffer =>
      match s.omxSource with
      | none => s.crash
      | some x => { s with caller := .idle, omxSource := some (x.queueBuffer buffer) }
  | .quitting => { s with caller := .stopping, decoderThreadQuitFlag := true }
  | .stopping =>
      match s.omxSource with
      | none => s.crash
      | some x => { s with caller := .joining, omxSource := some x.stop }
  | .joining => if s.decoder = .ended then { s with caller := .deleting } else s
  | .deleting =>
      -- a thread that is destroyed while it runs
      if s.decoder = .ended ∨ s.decoder = .absent then { s with caller := .idle, deleted := true }
      else s.crash

/-- The next action of the decoder thread. -/
def decoderStep (s : VideoCodec) (o : Opening) (pulls : Bool) : VideoCodec :=
  match s.decoder with
  | .absent | .ended => s
  | .makeSource =>
      { s with decoder := .makeDecoder, omxSource := some (.new s.width s.height s.fps) }
  | .makeDecoder => { s with decoder := .initDecoder, omxDecoder := some .new }
  | .initDecoder =>
      match s.omxSource, s.omxDecoder with
      | some x, some d =>
          let s := { s with decoder := .announce, omxDecoder := some (d.init x.format o).1 }
          if (d.init x.format o).2 then s.crash else s
      | _, _ => s.crash
  | .announce => { s with decoder := .notify, decoderThreadInitialized := true }
  | .notify =>
      { s with decoder := .test, caller := if s.caller = .initWaiting then .initLock else s.caller }
  | .test => { s with decoder := if s.decoderThreadQuitFlag then .stop else .read }
  | .read =>
      match s.omxDecoder with
      | some ⟨_, true, _⟩ => { s with decoder := .reading }
      | _ => s.crash
  | .reading => { s with decoder := if pulls then .pulling else .test }
  | .pulling =>
      match s.omxSource with
      | none => s.crash
      | some x =>
          match x.nextBuffer with
          | (.waits, _) => s
          | (.ended, _) => { s with decoder := .drained }
          | (.got _, x') => { s with decoder := .reading, omxSource := some x' }
  | .drained => { s with decoder := if pulls then .pulling else .test }
  | .stop =>
      match s.omxDecoder with
      | some ⟨_, true, _⟩ => { s with decoder := .ended }
      | _ => s.crash

/-- A call of the Java class, which needs the handle and an idle caller. -/
def enter (s : VideoCodec) (f : VideoCodec → VideoCodec) : VideoCodec :=
  if s.deleted then s.crash else if s.caller = .idle then f s else s

/-- One event; a process that ended does nothing. -/
def step (s : VideoCodec) (e : Event) : VideoCodec :=
  if s.crashed then s
  else
    match e with
    | .setSurface width height => s.enter (·.setSurface width height)
    | .init fps => s.enter (·.init fps)
    | .setSps buf len => s.enter (·.setSps buf len)
    | .consume buf len t => s.enter (·.queueBuffer buf len t)
    | .delete => s.enter shutdown
    | .caller => s.callerStep
    | .decoder o pulls => s.decoderStep o pulls
    | .spurious => if s.caller = .initWaiting then { s with caller := .initLock } else s

/-- How `CarlinkitVideoRenderer` uses a codec: the Surface and `init` first and once, the
rest only when `init` returned `true`, and nothing after `shutdown`. -/
def Uses (s : VideoCodec) : Event → Prop
  | .setSurface _ _ | .init _ => s.decoder = .absent ∧ s.deleted = false
  | .setSps _ _ | .consume _ _ _ | .delete => s.result = some true ∧ s.deleted = false
  | _ => True

instance (s : VideoCodec) (e : Event) : Decidable (s.Uses e) := by
  cases e <;> unfold Uses <;> infer_instance

/-- The buffer that the caller has made and not queued yet. -/
def inHand (s : VideoCodec) : List MediaBuffer :=
  match s.caller with
  | .made buffer => [buffer]
  | _ => []

end VideoCodec
end Native
end Carlinkit
