/-
# Detaching the Surface

`detachSurface` stops the renderer, then takes its view away, and clears `surfaceReady`
last.  Between the first two steps the read thread may be behind its own tests of
`onVideoFrame`, on the way to `video.start()`: it finds the Surface that is about to go,
and nothing stops that decoder any more.

`off_of_yields` says that this is the only way: with no such `start`, the renderer has no
decoder from the return of `detachSurface` to the next `onSurfaceReady` or `attachSurface`,
and with one, both threads can return and leave a decoder running.
-/

import Carlinkit.App.VideoPath

namespace Carlinkit
namespace App
/-! ## The renderer -/

namespace VideoRenderer

variable {r : VideoRenderer}

/-- There is no decoder. -/
structure Stopped (r : VideoRenderer) : Prop where
  running : r.running = false
  codec : r.codec = none

/-- A renderer that does not run has no decoder. -/
def Tidy (r : VideoRenderer) : Prop := r.running = false → r.codec = none

theorem Stopped.tidy (h : r.Stopped) : r.Tidy := fun _ => h.codec

theorem Tidy.stop (h : r.Tidy) : r.stop.Stopped := by
  unfold VideoRenderer.stop
  split_ifs with hrun
  · exact ⟨rfl, rfl⟩
  · have hrunning : r.running = false := by simpa using hrun
    exact ⟨hrunning, h hrunning⟩

theorem Tidy.start (h : r.Tidy) (cached : Bool) (o : Started) :
    (r.start cached o).2.Tidy := by
  unfold VideoRenderer.start
  split
  · exact h
  · split_ifs
    · exact h
    · exact h
    · exact fun hrun => Bool.noConfusion hrun
    · exact fun _ => rfl

/-- Without a view, or without luck, there is no decoder after `start` either. -/
theorem Stopped.start (h : r.Stopped) (cached : Bool) {o : Started}
    (ho : r.surfaceView ≠ none → o.valid = true → o.init ≠ .ok) :
    (r.start cached o).2.Stopped := by
  unfold VideoRenderer.start
  split
  · exact h
  · next view hview =>
    split_ifs with hvalid hrun hinit
    · exact h
    · exact h
    · exact absurd hinit (ho (by simp [hview]) (by simpa using hvalid))
    · exact ⟨h.running, rfl⟩

/-- With a view and with luck there is one. -/
theorem running_start (cached : Bool) {o : Started} (hview : r.surfaceView ≠ none)
    (hvalid : o.valid = true) (hinit : o.init = .ok) :
    (r.start cached o).2.running = true := by
  obtain ⟨view, hview⟩ := Option.ne_none_iff_exists'.1 hview
  unfold VideoRenderer.start
  rw [hview]
  simp only [hvalid, hinit]
  by_cases hrun : r.running = true
  · simp [hrun]
  · simp [hrun]

@[simp] theorem surfaceView_start (cached : Bool) (o : Started) :
    (r.start cached o).2.surfaceView = r.surfaceView := by
  unfold VideoRenderer.start
  split
  · rfl
  · split_ifs <;> rfl

@[simp] theorem surfaceView_stop : r.stop.surfaceView = r.surfaceView := by
  unfold VideoRenderer.stop
  split_ifs <;> rfl

@[simp] theorem running_onFrame (f : Frame) (ms : ℕ) :
    (r.onFrame f ms).running = r.running := by
  unfold onFrame
  split_ifs <;> rfl

@[simp] theorem surfaceView_onFrame (f : Frame) (ms : ℕ) :
    (r.onFrame f ms).surfaceView = r.surfaceView := by
  unfold onFrame
  split_ifs <;> rfl

theorem Tidy.onFrame (h : r.Tidy) (f : Frame) (ms : ℕ) : (r.onFrame f ms).Tidy := by
  intro hrun
  rw [running_onFrame] at hrun
  unfold VideoRenderer.onFrame
  rw [if_neg (by simp [hrun])]
  exact h hrun

theorem Tidy.reinjectParameterSets (h : r.Tidy) (parameterSets : Option (List Framing.Byte)) :
    (r.reinjectParameterSets parameterSets).Tidy := by
  unfold VideoRenderer.reinjectParameterSets
  split
  · exact h
  · split_ifs with hrun
    · exact fun hnot => absurd hrun.1 (by simpa [hand] using hnot)
    · exact h

end VideoRenderer

/-! ## The session -/

namespace VideoPath

open Machine

/-- The steps of `detachSurface` after the first one. -/
def MainPc.InDetach : MainPc → Prop
  | .unsetting | .forgetting | .unreadying | .muting => True
  | _ => False

instance : DecidablePred MainPc.InDetach
  | .unsetting | .forgetting | .unreadying | .muting => .isTrue trivial
  | .idle | .setting _ | .unmuting | .starting | .reading | .reinjecting _ | .asking
  | .stopping | .handingBack => .isFalse id

/-- Of the calls that attach and detach the Surface or say that it is ready, the last one
was `detachSurface`. -/
def detaching (s : State) (detached : Bool) : Event → Bool
  | .call c =>
      if s.main = .idle then
        match c with
        | .detachSurface => true
        | .attachSurface _ | .onSurfaceReady => false
        | .onSurfaceDestroyed | .onScreenTakenByHeadUnit _ => detached
      else detached
  | _ => detached

/-- After `detachSurface` has returned there is no decoder. -/
def Off (x : State × Bool) : Prop :=
  x.2 = true → ¬ x.1.main.InDetach →
    x.1.renderer.running = false ∧ x.1.renderer.codec = none

instance (x : State × Bool) : Decidable (Off x) := inferInstanceAs (Decidable (_ → _ → _ ∧ _))

/-- Both threads are back after `detachSurface`, and a decoder runs. -/
def Stranded (x : State × Bool) : Prop :=
  x.2 = true ∧ x.1.main = .idle ∧ x.1.read = .idle ∧ x.1.renderer.running = true

/-- A `start` of the read thread makes no decoder before `detachSurface` has taken the view
away. -/
def Yields (s : State) : Event → Prop
  | .read o _ =>
      s.main = .unsetting → (∃ f, s.read = .starting f) → s.renderer.surfaceView ≠ none →
        o.valid = true → o.init ≠ .ok
  | _ => True

instance (pc : ReadPc) : Decidable (∃ f, pc = .starting f) :=
  match pc with
  | .starting f => .isTrue ⟨f, rfl⟩
  | .idle | .checkingReady _ | .checkingTaken _ | .checkingRunning _ | .feeding .. =>
      .isFalse (by simp)

instance (s : State) : ∀ e, Decidable (Yields s e)
  | .read _ _ => inferInstanceAs (Decidable (_ → _ → _ → _ → _))
  | .call _ | .main _ | .frame _ | .unplugged => .isTrue trivial

/-! ## One step -/

/-- No call is under way that attaches the Surface or starts the decoder. -/
def MainPc.Quiet : MainPc → Prop
  | .setting _ | .unmuting | .starting | .reading | .reinjecting _ | .asking => False
  | _ => True

/-- The Surface is detached, or about to be. -/
structure State.Detached (s : State) : Prop where
  running : s.renderer.running = false
  view : s.main ≠ .unsetting → s.renderer.surfaceView = none
  quiet : s.main.Quiet

variable {s : State}

theorem tidy_callStep (h : s.renderer.Tidy) (c : Call) : (callStep s c).renderer.Tidy := by
  cases c with
  | detachSurface => exact h.stop.tidy
  | _ => exact h

theorem tidy_mainStep (h : s.renderer.Tidy) (o : Started) : (mainStep s o).renderer.Tidy := by
  unfold mainStep
  split
  case h_8 => exact h.start _ _
  case h_10 => exact h.reinjectParameterSets _
  case h_12 => exact h.stop.tidy
  all_goals exact h

theorem tidy_readStep (h : s.renderer.Tidy) (o : Started) (ms : ℕ) :
    (readStep s o ms).renderer.Tidy := by
  unfold readStep
  split
  case h_5 => exact h.start _ _
  case h_6 f _ _ => exact h.onFrame f ms
  all_goals exact h

theorem tidy_step (h : s.renderer.Tidy) (e : Event) : (step s e).renderer.Tidy := by
  cases e with
  | call c =>
      simp only [step]
      split_ifs
      · exact tidy_callStep h c
      · exact h
  | main o => exact tidy_mainStep h o
  | frame f =>
      simp only [step]
      split_ifs <;> exact h
  | unplugged =>
      simp only [step]
      split_ifs <;> exact h
  | read o ms => exact tidy_readStep h o ms

/-- A call on the idle main thread. -/
theorem State.Detached.callStep (h : s.renderer.Tidy) {detached : Bool}
    (hdetached : detached = true → s.Detached) (hidle : s.main = .idle) (c : Call)
    (hafter : detaching s detached (.call c) = true) : (callStep s c).Detached := by
  simp only [detaching, if_pos hidle] at hafter
  have hview : detached = true → s.renderer.surfaceView = none :=
    fun hd => (hdetached hd).view (by simp [hidle])
  cases c with
  | attachSurface view => exact Bool.noConfusion hafter
  | detachSurface => exact ⟨h.stop.running, fun hne => absurd rfl hne, trivial⟩
  | onSurfaceReady => exact Bool.noConfusion hafter
  | onSurfaceDestroyed => exact ⟨(hdetached hafter).running, fun _ => hview hafter, trivial⟩
  | onScreenTakenByHeadUnit taken =>
      refine ⟨(hdetached hafter).running, fun _ => hview hafter, ?_⟩
      cases taken <;> exact trivial

/-- The main thread goes on. -/
theorem State.Detached.mainStep (hs : s.Detached) (h : s.renderer.Tidy) (o : Started) :
    (mainStep s o).Detached := by
  obtain ⟨hrunning, hview, hquiet⟩ := hs
  unfold VideoPath.mainStep
  split
  case h_3 => exact ⟨hrunning, fun _ => rfl, trivial⟩
  case h_12 hmain =>
    refine ⟨h.stop.running, fun _ => ?_, trivial⟩
    exact (VideoRenderer.surfaceView_stop).trans (hview (by simp [hmain]))
  all_goals
    rename_i hmain
    rw [hmain] at hquiet
    first
    | exact hquiet.elim
    | exact ⟨hrunning, fun _ => hview (by simp [hmain]), trivial⟩
    | exact ⟨hrunning, hview, hmain ▸ hquiet⟩

/-- The read thread goes on; its `start` makes no decoder. -/
theorem State.Detached.readStep (hs : s.Detached) (h : s.renderer.Tidy) {o : Started} {ms : ℕ}
    (hyields : Yields s (.read o ms)) : (readStep s o ms).Detached := by
  obtain ⟨hrunning, hview, hquiet⟩ := hs
  unfold VideoPath.readStep
  split
  case h_5 f hread =>
    have hstopped : s.renderer.Stopped := ⟨hrunning, h hrunning⟩
    have hno : s.renderer.surfaceView ≠ none → o.valid = true → o.init ≠ .ok := by
      intro hne
      by_cases hmain : s.main = .unsetting
      · exact hyields hmain ⟨f, hread⟩ hne
      · exact absurd (hview hmain) hne
    exact ⟨(hstopped.start _ hno).running,
      fun hmain => (VideoRenderer.surfaceView_start _ _).trans (hview hmain), hquiet⟩
  case h_6 f _ _ =>
    exact ⟨(VideoRenderer.running_onFrame f ms).trans hrunning,
      fun hmain => (VideoRenderer.surfaceView_onFrame f ms).trans (hview hmain), hquiet⟩
  all_goals exact ⟨hrunning, hview, hquiet⟩

/-- What every step keeps, as long as the read thread makes no decoder in between. -/
def Settled (x : State × Bool) : Prop := x.1.renderer.Tidy ∧ (x.2 = true → x.1.Detached)

theorem Settled.step {x : State × Bool} (h : Settled x) {e : Event} (he : Yields x.1 e) :
    Settled (watched step detaching x e) := by
  obtain ⟨htidy, hdetached⟩ := h
  refine ⟨tidy_step htidy e, fun hafter => ?_⟩
  cases e with
  | call c =>
      simp only [watched, VideoPath.step] at hafter ⊢
      split_ifs with hidle
      · exact State.Detached.callStep htidy hdetached hidle c hafter
      · simp only [detaching, if_neg hidle] at hafter
        exact hdetached hafter
  | main o => exact (hdetached hafter).mainStep htidy o
  | frame f =>
      obtain ⟨hrunning, hview, hquiet⟩ := hdetached hafter
      simp only [watched, VideoPath.step]
      split_ifs <;> exact ⟨hrunning, hview, hquiet⟩
  | unplugged =>
      obtain ⟨hrunning, hview, hquiet⟩ := hdetached hafter
      simp only [watched, VideoPath.step]
      split_ifs <;> exact ⟨hrunning, hview, hquiet⟩
  | read o ms => exact (hdetached hafter).readStep htidy he

theorem Settled.off {x : State × Bool} (h : Settled x) : Off x := by
  intro hdetached _
  have hrunning := (h.2 hdetached).running
  exact ⟨hrunning, h.1 hrunning⟩

theorem settled_start (fps : ℕ) : Settled (start fps, false) :=
  ⟨fun _ => rfl, fun hdetached => Bool.noConfusion hdetached⟩

/-! ## Runs -/

/-- While the view is taken away, the last call was `detachSurface`. -/
theorem detaching_of_unsetting {x : State × Bool} (h : x.1.main = .unsetting → x.2 = true)
    (e : Event) :
    (watched step detaching x e).1.main = .unsetting → (watched step detaching x e).2 = true := by
  cases e with
  | call c =>
      simp only [watched, step, detaching]
      split_ifs with hidle
      · cases c with
        | detachSurface => exact fun _ => rfl
        | onScreenTakenByHeadUnit taken => cases taken <;> simp [callStep]
        | _ => simp [callStep]
      · exact h
  | main o =>
      simp only [watched, step, detaching]
      unfold mainStep
      split
      case h_8 => dsimp only; split_ifs <;> simp
      case h_1 => exact h
      all_goals simp
  | frame f =>
      simp only [watched, step, detaching]
      split_ifs <;> exact h
  | unplugged =>
      simp only [watched, step, detaching]
      split_ifs <;> exact h
  | read o ms =>
      simp only [watched, step, detaching]
      unfold readStep
      split <;> exact h

/-- A decoder that the read thread makes before the view is gone outlives both calls. -/
theorem running_of_not_yields {x : State × Bool} {e : Event} (he : ¬ Yields x.1 e)
    (hx : x.1.main = .unsetting → x.2 = true) :
    ∃ fs, Stranded (run (watched step detaching) x (e :: fs)) := by
  cases e with
  | read o ms =>
      simp only [Yields, Classical.not_imp, not_not] at he
      obtain ⟨hmain, ⟨f, hread⟩, hview, hvalid, hinit⟩ := he
      have hrunning := VideoRenderer.running_start x.1.cache.hasParameterSets hview hvalid hinit
      refine ⟨[.main o, .main o, .main o, .main o, .read o ms], ?_⟩
      simp [Stranded, watched, step, detaching, readStep, mainStep, hmain, hread, hx hmain,
        hrunning, VideoRenderer.setSurfaceView]
  | _ => exact absurd trivial he

/-- **When the renderer stays off.**  For every interleaving of the two threads and every
outcome of every `start`: from the return of `detachSurface` to the next `onSurfaceReady` or
`attachSurface` the renderer does not run and has no decoder, if no `start` of the read
thread makes one between `stop` and the moment the view is gone; and after any such `start`
both threads can return and leave a decoder running. -/
theorem off_of_yields (fps : ℕ) (es : List Event) :
    (Along step Yields (start fps) es →
        Along (watched step detaching) (fun x e => Off (watched step detaching x e))
          (start fps, false) es) ∧
      ∀ e, ¬ Yields (run step (start fps) es) e →
        ∃ fs, Stranded (run (watched step detaching) (start fps, false) (es ++ e :: fs)) := by
  constructor
  · intro h
    have hyields := (along_watched detaching (start fps, false) es).2 h
    exact hyields.imp_of_invariant (I := Settled) (fun _ _ hx he => hx.step he)
      (fun _ _ hx he => (hx.step he).off) (settled_start fps)
  · intro e he
    have hx : (run (watched step detaching) (start fps, false) es).1.main = .unsetting →
        (run (watched step detaching) (start fps, false) es).2 = true :=
      run_invariant (I := fun x : State × Bool => x.1.main = .unsetting → x.2 = true)
        (fun _ e h => detaching_of_unsetting h e) (by simp [start]) es
    rw [← fst_run_watched detaching (start fps, false) es] at he
    obtain ⟨fs, hfs⟩ := running_of_not_yields he hx
    refine ⟨fs, ?_⟩
    rw [run_append]
    exact hfs

/-- A session whose decoder runs, with a frame on the way to it. -/
def playing : List Event :=
  [.call (.attachSurface 0), .main (onSurface .ok), .call .onSurfaceReady] ++
    List.replicate 5 (Event.main (onSurface .ok)) ++
      [Event.frame (sample 0x65), .read (onSurface .ok) 1, .read (onSurface .ok) 1]

/-- The frame comes to its `start` when the view is gone; and the moment when it is not. -/
theorem off_of_yields_playing :
    Along (watched step detaching) (fun x e => Off (watched step detaching x e)) (start 30, false)
        (playing ++ [Event.call .detachSurface, .main (onSurface .ok), .read (onSurface .ok) 1,
          .read (onSurface .ok) 1]) ∧
      ∃ fs, Stranded (run (watched step detaching) (start 30, false)
        ((playing ++ [Event.call .detachSurface, .read (onSurface .ok) 1]) ++
          Event.read (onSurface .ok) 1 :: fs)) :=
  ⟨(off_of_yields 30 _).1 (by decide +kernel), (off_of_yields 30 _).2 _ (by decide +kernel)⟩

/-- **A decoder on a Surface that goes.**  `detachSurface` stops the renderer while a frame is
on the way; the frame finds it stopped and starts it again before the view is gone. -/
theorem not_off_restarted :
    ¬ Along (watched step detaching) (fun x e => Off (watched step detaching x e))
      (start 30, false)
      (playing ++ [Event.call .detachSurface, .read (onSurface .ok) 1, .read (onSurface .ok) 1] ++
        List.replicate 4 (Event.main (onSurface .ok)) ++ [Event.read (onSurface .ok) 1]) := by
  decide +kernel

end VideoPath
end App
end Carlinkit
