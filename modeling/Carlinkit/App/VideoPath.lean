/-
# The way of a frame through the session

`CarlinkitSession` between the driver's read thread and the renderer.  The main
thread attaches and detaches the Surface and says when it is ready; the read thread
brings the frames, and makes the decoder itself when it finds none.  Both go through
the renderer, one `synchronized` call at a time, and between two calls the other
thread may move: `MainPc` and `ReadPc` say where each of them stands.

A frame is offered to the parameter set cache before the session sees it, and
UNPLUGGED clears the cache.  The driver stays the same throughout the run.

SPS and PPS are reinjected by `onSurfaceReady` alone, and only after its `start`.
`right_iff` says what this asks of the order of the steps, and `InGap` where the two
gaps are: between `start` and `reinjectParameterSets` on the main thread, and
behind the `start` of `onVideoFrame`.
-/

import Carlinkit.Machine.Run
import Carlinkit.Driver.Dispatch
import Carlinkit.App.VideoRenderer

namespace Carlinkit
namespace App
namespace VideoPath

open Framing Protocol Machine

/-- A call from the Activity or the service. -/
inductive Call
  | attachSurface (view : ℕ)
  | detachSurface
  | onSurfaceReady
  | onSurfaceDestroyed
  | onScreenTakenByHeadUnit (taken : Bool)
deriving DecidableEq, Repr

/-- What the main thread does next. -/
inductive MainPc
  | idle
  /-- `attachSurface`: `video.setSurfaceView(view)`. -/
  | setting (view : ℕ)
  /-- `detachSurface`: `video.setSurfaceView(null)`. -/
  | unsetting
  /-- `detachSurface`: the session's own fields. -/
  | forgetting
  /-- `detachSurface`: `surfaceReady = false`. -/
  | unreadying
  /-- `detachSurface`: `audio.setMuted(true)`. -/
  | muting
  /-- `onSurfaceReady`: `audio.setMuted(false)`. -/
  | unmuting
  /-- `onSurfaceReady`: `video.start()`. -/
  | starting
  /-- `onSurfaceReady`: `parameterSetCache().parameterSets()`. -/
  | reading
  /-- `onSurfaceReady`: `video.reinjectParameterSets(params)`. -/
  | reinjecting (params : Option (List Byte))
  /-- `onSurfaceReady`: `driver.requestKeyFrame()`. -/
  | asking
  /-- `onSurfaceDestroyed`: `video.stop()`. -/
  | stopping
  /-- `onScreenTakenByHeadUnit(false)`: the test before `requestKeyFrame()`. -/
  | handingBack
deriving DecidableEq, Repr

/-- What the read thread does next in `onVideoFrame`; at `feeding` it also remembers
whether it called `video.start()` for this frame. -/
inductive ReadPc
  | idle
  | checkingReady (f : Frame)
  | checkingTaken (f : Frame)
  | checkingRunning (f : Frame)
  | starting (f : Frame)
  | feeding (f : Frame) (started : Bool)
deriving DecidableEq

/-- The session with its renderer, the cache of its driver and both threads. -/
structure State where
  renderer : VideoRenderer
  cache : ParameterSetCache
  surfaceView : Option ℕ
  surfaceReady : Bool
  screenTakenByHeadUnit : Bool
  muted : Bool
  receivedData : Bool
  videoFramesReceived : ℕ
  /-- How often `requestKeyFrame` was called. -/
  keyFrames : ℕ
  main : MainPc
  read : ReadPc
deriving DecidableEq

/-- A new session. -/
def start (fps : ℕ) : State where
  renderer := .new fps
  cache := .empty
  surfaceView := none
  surfaceReady := false
  screenTakenByHeadUnit := false
  muted := false
  receivedData := false
  videoFramesReceived := 0
  keyFrames := 0
  main := .idle
  read := .idle

/-- One move of one thread; a thread that cannot make it leaves the state as it is. -/
inductive Event
  /-- A call reaches the idle main thread. -/
  | call (c : Call)
  /-- The main thread goes on. -/
  | main (o : Started)
  /-- The idle read thread gets a frame. -/
  | frame (f : Frame)
  /-- The idle read thread gets UNPLUGGED. -/
  | unplugged
  /-- The read thread goes on; a decode takes `ms` milliseconds. -/
  | read (o : Started) (ms : ℕ)
deriving DecidableEq

/-- The first step of a call. -/
def callStep (s : State) : Call → State
  | .attachSurface view => { s with surfaceView := some view, main := .setting view }
  | .detachSurface => { s with renderer := s.renderer.stop, main := .unsetting }
  | .onSurfaceReady => { s with surfaceReady := true, main := .unmuting }
  | .onSurfaceDestroyed => { s with surfaceReady := false, main := .stopping }
  | .onScreenTakenByHeadUnit taken =>
      { s with
        screenTakenByHeadUnit := taken
        main := if taken then .idle else .handingBack }

/-- The next step of the main thread. -/
def mainStep (s : State) (o : Started) : State :=
  match s.main with
  | .idle => s
  | .setting view =>
      { s with renderer := s.renderer.setSurfaceView (some view), main := .idle }
  | .unsetting => { s with renderer := s.renderer.setSurfaceView none, main := .forgetting }
  | .forgetting => { s with surfaceView := none, main := .unreadying }
  | .unreadying => { s with surfaceReady := false, main := .muting }
  | .muting => { s with muted := true, main := .idle }
  | .unmuting => { s with muted := false, main := .starting }
  | .starting =>
      let r := s.renderer.start s.cache.hasParameterSets o
      { s with renderer := r.2, main := if r.1 then .reading else .idle }
  | .reading => { s with main := .reinjecting s.cache.parameterSets }
  | .reinjecting params =>
      { s with renderer := s.renderer.reinjectParameterSets params, main := .asking }
  | .asking => { s with keyFrames := s.keyFrames + 1, main := .idle }
  | .stopping => { s with renderer := s.renderer.stop, main := .idle }
  | .handingBack =>
      { s with
        keyFrames := if s.surfaceReady ∧ s.renderer.running then s.keyFrames + 1 else s.keyFrames
        main := .idle }

/-- `dispatch` offers the frame to the cache and `onVideoFrame` begins. -/
def frameStep (s : State) (f : Frame) : State :=
  { s with
    cache := (s.cache.offer f.msg f.payload).2
    receivedData := true
    videoFramesReceived := s.videoFramesReceived + 1
    read := .checkingReady f }

/-- The next step of `onVideoFrame`. -/
def readStep (s : State) (o : Started) (ms : ℕ) : State :=
  match s.read with
  | .idle => s
  | .checkingReady f => { s with read := if s.surfaceReady then .checkingTaken f else .idle }
  | .checkingTaken f =>
      { s with read := if s.screenTakenByHeadUnit then .idle else .checkingRunning f }
  | .checkingRunning f =>
      { s with read := if s.renderer.running then .feeding f false else .starting f }
  | .starting f =>
      { s with
        renderer := (s.renderer.start s.cache.hasParameterSets o).2
        read := .feeding f true }
  | .feeding f _ => { s with renderer := s.renderer.onFrame f ms, read := .idle }

/-- One move. -/
def step (s : State) : Event → State
  | .call c => if s.main = .idle then callStep s c else s
  | .main o => mainStep s o
  | .frame f => if s.read = .idle then frameStep s f else s
  | .unplugged => if s.read = .idle then { s with cache := s.cache.clear } else s
  | .read o ms => readStep s o ms

/-- The read thread gives a codec that was made while SPS and PPS were known, and got
nothing so far, only a frame that starts with an SPS. -/
def Fed (s : State) : Event → Prop
  | .read _ _ =>
      match s.read with
      | .feeding f _ => s.renderer.Bare → f.StartsWithSps
      | _ => True
  | _ => True

instance (s : State) : ∀ e, Decidable (Fed s e)
  | .read _ _ =>
      match h : s.read with
      | .feeding f _ => decidable_of_iff (s.renderer.Bare → f.StartsWithSps) (by simp [Fed, h])
      | .idle | .checkingReady _ | .checkingTaken _ | .checkingRunning _ | .starting _ =>
          .isTrue (by simp [Fed, h])
  | .call _ | .main _ | .frame _ | .unplugged => .isTrue trivial

/-- Every frame that the driver hands over is one of `Event.frame`, and `dispatch` leaves
the cache as `frameStep` does. -/
theorem exists_frame_of_dispatch {d : Driver.Reader} {h : MessageHeader} {buf : List Byte}
    (hlen : h.length ≤ buf.length) {msg : VideoMessage} {payload : List Byte} {sps : Bool}
    (hd : (Driver.dispatch d h (some buf)).2 = some (.onVideoFrame msg payload sps)) :
    ∃ f : Frame, f.msg = msg ∧ f.payload = payload ∧ (sps = true ↔ f.StartsWithSps) ∧
      ∀ s : State, s.cache = d.paramCache →
        (frameStep s f).cache = (Driver.dispatch d h (some buf)).1.paramCache := by
  unfold Driver.dispatch at hd ⊢
  split_ifs at hd ⊢ with hv ha hp hu hc
  · cases hvm : VideoMessage.parse (some buf) h.length with
    | none => simp [hvm] at hd
    | some vm =>
        obtain ⟨-, hend⟩ := VideoMessage.parse_range hvm
        simp only [hvm, Option.getD_some, Option.some.injEq, Driver.Callback.onVideoFrame.injEq]
          at hd ⊢
        obtain ⟨rfl, rfl, rfl⟩ := hd
        refine ⟨⟨vm, buf, by omega⟩, rfl, rfl, ?_, ?_⟩
        · unfold ParameterSetCache.offer Frame.StartsWithSps
          split_ifs with hsps <;> simp_all
        · intro s hs
          simp only [frameStep, hs]
  · cases ham : AudioMessage.parse (some buf) h.length <;> simp [ham] at hd
  all_goals simp at hd

/-! ## The first buffer of every codec -/

variable {s : State}

theorem right_callStep (h : s.renderer.Right) (c : Call) : (callStep s c).renderer.Right := by
  cases c with
  | detachSurface => exact h.stop
  | _ => exact h

theorem right_mainStep (h : s.renderer.Right) (o : Started) : (mainStep s o).renderer.Right := by
  unfold mainStep
  split
  case h_2 => exact h.setSurfaceView _
  case h_3 => exact h.setSurfaceView _
  case h_8 => exact h.start _ _
  case h_10 => exact h.reinjectParameterSets _
  case h_12 => exact h.stop
  all_goals exact h

/-- **One step.**  Only the frame that the read thread hands over can be wrong. -/
theorem right_step_iff (h : s.renderer.Right) (e : Event) :
    (step s e).renderer.Right ↔ Fed s e := by
  cases e with
  | call c =>
      refine iff_of_true ?_ trivial
      simp only [step]
      split_ifs
      · exact right_callStep h c
      · exact h
  | main o => exact iff_of_true (right_mainStep h o) trivial
  | frame f =>
      refine iff_of_true ?_ trivial
      simp only [step]
      split_ifs <;> exact h
  | unplugged =>
      refine iff_of_true ?_ trivial
      simp only [step]
      split_ifs <;> exact h
  | read o ms =>
      simp only [step, readStep, Fed]
      cases hread : s.read with
      | starting f => exact iff_of_true (h.start _ _) trivial
      | feeding f started => exact VideoRenderer.right_onFrame_iff h f ms
      | _ => exact iff_of_true h trivial

/-! ## Where a decoder is bare -/

/-- The main thread is about to reinject, or the read thread called `start` for the
frame that it is about to hand over. -/
def State.InGap (s : State) : Prop :=
  s.main = .reading ∨ (∃ bytes, s.main = .reinjecting (some bytes) ∧ 5 ≤ bytes.length) ∨
    ∃ f, s.read = .feeding f true

/-- What is in the cache can be reinjected, and a bare decoder is in one of the gaps,
with the cache filled. -/
structure State.Kept (s : State) : Prop where
  five_le : ∀ bytes ∈ s.cache.parameterSets, 5 ≤ bytes.length
  bare : s.renderer.Bare → s.cache.hasParameterSets = true ∧ s.InGap

theorem kept_start (fps : ℕ) : (start fps).Kept where
  five_le := by simp [start, ParameterSetCache.empty]
  bare := by simp [start, VideoRenderer.Bare, VideoRenderer.new]

/-- Where the decoder is not bare there is nothing to say about the gaps. -/
theorem State.Kept.of_not_bare {s' : State} (h : s.Kept) (hcache : s'.cache = s.cache)
    (hbare : ¬ s'.renderer.Bare) : s'.Kept :=
  ⟨hcache ▸ h.five_le, fun hb => absurd hb hbare⟩

/-- A step that leaves the decoder alone and leaves no gap. -/
theorem State.Kept.of_same {s' : State} (h : s.Kept) (hcache : s'.cache = s.cache)
    (hbare : s'.renderer.Bare → s.renderer.Bare) (hgap : s.InGap → s'.InGap) : s'.Kept :=
  ⟨hcache ▸ h.five_le, fun hb => by
    obtain ⟨hhas, hin⟩ := h.bare (hbare hb)
    exact ⟨hcache ▸ hhas, hgap hin⟩⟩

/-- Away from its own gap the main thread leaves the read thread's. -/
theorem State.InGap.read (h : s.InGap) (hreading : s.main ≠ .reading)
    (hreinjecting : ∀ params, s.main ≠ .reinjecting params) :
    ∃ f, s.read = .feeding f true := by
  rcases h with hmain | ⟨bytes, hmain, -⟩ | hread
  · exact absurd hmain hreading
  · exact absurd hmain (hreinjecting _)
  · exact hread

theorem State.Kept.callStep (h : s.Kept) (hidle : s.main = .idle) (c : Call) :
    (callStep s c).Kept := by
  have hread : s.InGap → ∃ f, s.read = .feeding f true := fun hin =>
    hin.read (by simp [hidle]) (by simp [hidle])
  cases c with
  | detachSurface => exact h.of_not_bare rfl s.renderer.not_bare_stop
  | _ => exact h.of_same rfl id fun hin => .inr (.inr (hread hin))

/-- A decoder that `start` leaves bare was made with the cache filled. -/
theorem State.Kept.has_of_bare_start (h : s.Kept) {o : Started}
    (hbare : (s.renderer.start s.cache.hasParameterSets o).2.Bare) :
    s.cache.hasParameterSets = true := by
  rcases VideoRenderer.bare_start hbare with hb | ⟨hhas, -⟩
  · exact (h.bare hb).1
  · exact hhas

theorem State.Kept.mainStep (h : s.Kept) (o : Started) : (mainStep s o).Kept := by
  unfold VideoPath.mainStep
  split
  case h_8 hpc =>
    -- `start`: the gap opens behind it
    refine ⟨h.five_le, fun hbare => ⟨h.has_of_bare_start hbare, ?_⟩⟩
    rcases VideoRenderer.bare_start hbare with hb | ⟨-, -, hstarted⟩
    · obtain ⟨f, hf⟩ := (h.bare hb).2.read (by simp [hpc]) (by simp [hpc])
      exact .inr (.inr ⟨f, hf⟩)
    · exact .inl (by simp [hstarted])
  case h_9 hpc =>
    refine ⟨h.five_le, fun hbare => ?_⟩
    obtain ⟨hhas, -⟩ := h.bare hbare
    obtain ⟨bytes, hbytes⟩ := Option.isSome_iff_exists.1 hhas
    exact ⟨hhas, .inr (.inl ⟨bytes, by simp [hbytes], h.five_le bytes hbytes⟩)⟩
  case h_10 params hpc =>
    -- `reinjectParameterSets`: the gap closes
    refine ⟨h.five_le, fun hbare => ?_⟩
    obtain ⟨hhas, hin⟩ := h.bare (VideoRenderer.bare_of_reinjectParameterSets hbare)
    refine ⟨hhas, ?_⟩
    rcases hin with hmain | ⟨bytes, hmain, hlen⟩ | hread
    · simp [hpc] at hmain
    · obtain rfl : params = some bytes := by simpa [hpc] using hmain
      exact absurd hbare (VideoRenderer.not_bare_reinjectParameterSets _ hlen)
    · exact .inr (.inr hread)
  case h_12 hpc => exact h.of_not_bare rfl s.renderer.not_bare_stop
  all_goals
    rename_i hpc
    refine h.of_same rfl id fun hin => ?_
    first
    | exact hin
    | exact .inr (.inr (hin.read (by simp [hpc]) (by simp [hpc])))

/-- A frame fills the cache or leaves it. -/
theorem State.Kept.frameStep (h : s.Kept) (hidle : s.read = .idle) (f : Frame) :
    (frameStep s f).Kept := by
  have hoffer : (∀ bytes ∈ (s.cache.offer f.msg f.payload).2.parameterSets, 5 ≤ bytes.length) ∧
      (s.cache.hasParameterSets = true →
        (s.cache.offer f.msg f.payload).2.hasParameterSets = true) := by
    unfold ParameterSetCache.offer
    split_ifs with hsps
    · exact ⟨h.five_le, id⟩
    · have hlen := Frame.StartsWithSps.five_le (f := f) (not_ne_iff.1 hsps)
      have hinside := f.inside
      refine ⟨?_, fun _ => rfl⟩
      rintro bytes hbytes
      obtain rfl := Option.some.inj hbytes
      rw [List.length_take, List.length_drop]
      omega
  refine ⟨hoffer.1, fun hbare => ?_⟩
  obtain ⟨hhas, hin⟩ := h.bare hbare
  refine ⟨hoffer.2 hhas, ?_⟩
  rcases hin with hmain | hmain | ⟨f', hf'⟩
  · exact .inl hmain
  · exact .inr (.inl hmain)
  · simp [hidle] at hf'

theorem State.Kept.readStep (h : s.Kept) (o : Started) (ms : ℕ) : (readStep s o ms).Kept := by
  unfold VideoPath.readStep
  split
  case h_5 f _ =>
    -- `start`: the second gap opens
    exact ⟨h.five_le, fun hbare => ⟨h.has_of_bare_start hbare, .inr (.inr ⟨f, rfl⟩)⟩⟩
  case h_6 f _ _ => exact h.of_not_bare rfl (s.renderer.not_bare_onFrame f ms)
  all_goals
    rename_i hpc
    refine h.of_same rfl id ?_
    rintro (hmain | hmain | ⟨f', hf'⟩)
    · exact .inl hmain
    · exact .inr (.inl hmain)
    · simp [hpc] at hf'

theorem State.Kept.step (h : s.Kept) {e : Event} (he : e ≠ .unplugged) : (step s e).Kept := by
  cases e with
  | call c =>
      simp only [VideoPath.step]
      split_ifs with hidle
      · exact h.callStep hidle c
      · exact h
  | main o => exact h.mainStep o
  | frame f =>
      simp only [VideoPath.step]
      split_ifs with hidle
      · exact h.frameStep hidle f
      · exact h
  | unplugged => exact absurd rfl he
  | read o ms => exact h.readStep o ms

/-- No frame without an SPS is handed over in a gap. -/
def Steady (s : State) : Event → Prop
  | .read _ _ =>
      match s.read with
      | .feeding f _ => s.InGap → f.StartsWithSps
      | _ => True
  | _ => True

instance (pc : MainPc) :
    Decidable (∃ bytes, pc = .reinjecting (some bytes) ∧ 5 ≤ bytes.length) :=
  match pc with
  | .reinjecting (some bytes) => decidable_of_iff (5 ≤ bytes.length) (by simp)
  | .reinjecting none | .idle | .setting _ | .unsetting | .forgetting | .unreadying | .muting
  | .unmuting | .starting | .reading | .asking | .stopping | .handingBack => .isFalse (by simp)

instance (pc : ReadPc) : Decidable (∃ f, pc = .feeding f true) :=
  match pc with
  | .feeding f true => .isTrue ⟨f, rfl⟩
  | .feeding _ false | .idle | .checkingReady _ | .checkingTaken _ | .checkingRunning _
  | .starting _ => .isFalse (by simp)

instance (s : State) : Decidable s.InGap := inferInstanceAs (Decidable (_ ∨ _ ∨ _))

instance (s : State) : ∀ e, Decidable (Steady s e)
  | .read _ _ =>
      match h : s.read with
      | .feeding f _ => decidable_of_iff (s.InGap → f.StartsWithSps) (by simp [Steady, h])
      | .idle | .checkingReady _ | .checkingTaken _ | .checkingRunning _ | .starting _ =>
          .isTrue (by simp [Steady, h])
  | .call _ | .main _ | .frame _ | .unplugged => .isTrue trivial

/-- Outside the gaps no decoder is bare. -/
theorem State.Kept.fed (h : s.Kept) {e : Event} (hsteady : Steady s e) : Fed s e := by
  cases e with
  | read o ms =>
      simp only [Steady, Fed] at hsteady ⊢
      cases hread : s.read with
      | feeding f started =>
          rw [hread] at hsteady
          exact fun hbare => hsteady (h.bare hbare).2
      | _ => trivial
  | _ => trivial

/-- **When every decoder starts right.**  For every interleaving of the two threads and
every outcome of every `start`: each decoder made while SPS and PPS were known gets
them, or a frame with an SPS, before anything else, exactly when the read thread never
hands another frame to such a decoder that got nothing so far.  Without UNPLUGGED there
is such a decoder only in one of the two gaps, so it is enough that no such frame is
handed over there. -/
theorem right_iff (fps : ℕ) (es : List Event) :
    (Along step (fun s e => (step s e).renderer.Right) (start fps) es ↔
      Along step Fed (start fps) es) ∧
    (.unplugged ∉ es →
      Along step (fun s e => (step s e).renderer.Bare → (step s e).InGap) (start fps) es ∧
        (Along step Steady (start fps) es →
          Along step (fun s e => (step s e).renderer.Right) (start fps) es)) := by
  have hiff : Along step (fun s e => (step s e).renderer.Right) (start fps) es ↔
      Along step Fed (start fps) es :=
    along_step_iff (I := fun s : State => s.renderer.Right)
      (fun _ e h => right_step_iff h e) (VideoRenderer.right_new fps) es
  refine ⟨hiff, fun hplugged => ?_⟩
  have hne : ∀ e ∈ es, e ≠ .unplugged := fun e he h => hplugged (h ▸ he)
  have hes : Along step (fun _ e => e ≠ .unplugged) (start fps) es :=
    along_of_forall_mem hne (start fps)
  constructor
  · exact hes.imp_of_invariant (fun _ _ h he => h.step he)
      (fun _ _ h he hbare => ((h.step he).bare hbare).2) (kept_start fps)
  · intro hsteady
    refine hiff.2 ((hes.and hsteady).imp_of_invariant (I := State.Kept) ?_ ?_ (kept_start fps))
    · exact fun _ _ h he => h.step he.1
    · exact fun _ _ h he => h.fed he.2

/-- A frame that starts with an SPS, or with the unit of the given byte. -/
def sample (unit : Byte) : Frame where
  msg := ⟨800, 480, 0, 20, 6⟩
  payload := List.replicate 20 0 ++ [0, 0, 0, 1, unit, 0x42]
  inside := by simp

/-- A call of `start` on a valid Surface. -/
def onSurface (init : Init) : Started := ⟨true, 800, 480, init⟩

/-- SPS and PPS come before the Surface; `onSurfaceReady` reinjects them, and a slice
follows. -/
theorem right_iff_reinjected :
    let es := [.frame (sample 0x67), .read (onSurface .ok) 1, .call (.attachSurface 0),
      .main (onSurface .ok), .call .onSurfaceReady, .main (onSurface .ok), .main (onSurface .ok),
      .main (onSurface .ok), .main (onSurface .ok), .main (onSurface .ok), .frame (sample 0x65),
      .read (onSurface .ok) 1, .read (onSurface .ok) 1, .read (onSurface .ok) 1,
      .read (onSurface .ok) 1]
    Along step (fun s e => (step s e).renderer.Bare → (step s e).InGap) (start 30) es ∧
      Along step (fun s e => (step s e).renderer.Right) (start 30) es := by
  intro es
  obtain ⟨-, hgaps⟩ := right_iff 30 es
  obtain ⟨hbare, hright⟩ := hgaps (by decide +kernel)
  exact ⟨hbare, hright (by decide +kernel)⟩

/-- **A slice first.**  SPS and PPS are in the cache, the `start` of `onSurfaceReady`
fails, and the next frame starts the decoder: it gets a slice before it ever got them. -/
theorem not_right_retried :
    ¬ Along step (fun s e => (step s e).renderer.Right) (start 30)
      [.frame (sample 0x67), .read (onSurface .ok) 1, .call (.attachSurface 0),
        .main (onSurface .ok), .call .onSurfaceReady, .main (onSurface .ok),
        .main (onSurface .refused), .frame (sample 0x65), .read (onSurface .ok) 1,
        .read (onSurface .ok) 1, .read (onSurface .ok) 1, .read (onSurface .ok) 1,
        .read (onSurface .ok) 1] := by
  decide +kernel

end VideoPath
end App
end Carlinkit
