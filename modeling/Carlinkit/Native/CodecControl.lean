/-
# Who waits for whom in the native codec

`Control` says how far the caller and the decoder thread of a codec can be apart: what
exists when, which flag says where who is, and that nobody waits for what has already
happened.  Every event keeps it, used as the renderer uses a codec (`VideoCodec.Uses`).

The invariant is about program counters and flags alone; its fields are routine for `grind`
once it is known where the thread that moves is.  Nothing in it is linear arithmetic.
-/

import Carlinkit.Native.VideoCodec
import Mathlib.Data.Bool.Basic

namespace Carlinkit
namespace Native

open Framing Machine App

/-! ### Where the threads are -/

/-- `omxSource_` is set. -/
@[grind] def DecoderPc.hasSource : DecoderPc → Bool
  | .absent | .makeSource => false
  | _ => true

/-- `omxDecoder_` is set. -/
@[grind] def DecoderPc.hasDecoder : DecoderPc → Bool
  | .absent | .makeSource | .makeDecoder => false
  | _ => true

/-- `omxDecoder_->init()` has returned. -/
@[grind] def DecoderPc.opened : DecoderPc → Bool
  | .absent | .makeSource | .makeDecoder | .initDecoder => false
  | _ => true

/-- `decoderThreadInitialized_` is set. -/
@[grind] def DecoderPc.announced : DecoderPc → Bool
  | .absent | .makeSource | .makeDecoder | .initDecoder | .announce => false
  | _ => true

/-- `notify_one` has run. -/
@[grind] def DecoderPc.notified : DecoderPc → Bool
  | .absent | .makeSource | .makeDecoder | .initDecoder | .announce | .notify => false
  | _ => true

/-- The thread found `decoderThreadQuitFlag_` set. -/
@[grind] def DecoderPc.leaving : DecoderPc → Bool
  | .stop | .ended => true
  | _ => false

/-- The thread has come past its first use of `decoder_`. -/
@[grind] def DecoderPc.inside : DecoderPc → Bool
  | .reading | .pulling | .drained | .ended => true
  | _ => false

/-- The caller is in `init`. -/
@[grind] def CallerPc.inits : CallerPc → Bool
  | .initLock | .initWaiting | .initStatus => true
  | _ => false

/-- The caller is in `queueBuffer` or `shutdown`. -/
@[grind] def CallerPc.uses : CallerPc → Bool
  | .made _ | .quitting | .stopping | .joining | .deleting => true
  | _ => false

/-- The caller is in `shutdown`. -/
@[grind] def CallerPc.shuts : CallerPc → Bool
  | .quitting | .stopping | .joining | .deleting => true
  | _ => false

/-- The caller has set `decoderThreadQuitFlag_`. -/
@[grind] def CallerPc.quit : CallerPc → Bool
  | .stopping | .joining | .deleting => true
  | _ => false

/-- The caller has stopped the source. -/
@[grind] def CallerPc.stopped : CallerPc → Bool
  | .joining | .deleting => true
  | _ => false

/-! The thread comes past these marks in this order. -/

@[grind →] theorem DecoderPc.announced_of_notified {pc : DecoderPc} (h : pc.notified = true) :
    pc.announced = true := by
  cases pc <;> first | rfl | cases h

@[grind →] theorem DecoderPc.opened_of_announced {pc : DecoderPc} (h : pc.announced = true) :
    pc.opened = true := by
  cases pc <;> first | rfl | cases h

@[grind →] theorem DecoderPc.hasDecoder_of_opened {pc : DecoderPc} (h : pc.opened = true) :
    pc.hasDecoder = true := by
  cases pc <;> first | rfl | cases h

@[grind →] theorem DecoderPc.hasSource_of_hasDecoder {pc : DecoderPc}
    (h : pc.hasDecoder = true) : pc.hasSource = true := by
  cases pc <;> first | rfl | cases h

/-- Whoever has stopped the source has set the flag before. -/
@[grind →] theorem CallerPc.quit_of_stopped {pc : CallerPc} (h : pc.stopped = true) :
    pc.quit = true := by
  cases pc <;> first | rfl | cases h

namespace VideoCodec

/-- The caller and the decoder thread know of each other what they rely on. -/
structure Control (s : VideoCodec) : Prop where
  source : s.omxSource.isSome = s.decoder.hasSource
  made : s.omxDecoder.isSome = s.decoder.hasDecoder
  initialized : s.decoderThreadInitialized = s.decoder.announced
  present : s.caller.inits = true ∨ s.result ≠ none ↔ s.decoder ≠ .absent
  waiting : s.caller = .initWaiting → s.decoder.notified = false
  status : s.caller = .initStatus → s.decoder.announced = true
  result : s.result ≠ none → s.decoder.announced = true ∧ s.caller.inits = false
  uses : s.caller.uses = true → s.result = some true
  quit : s.decoderThreadQuitFlag = (s.caller.quit || s.deleted)
  sourceQuit : ∀ x ∈ s.omxSource, x.quitFlag = (s.caller.stopped || s.deleted)
  leaving : s.decoder.leaving = true → s.decoderThreadQuitFlag = true
  drained : s.decoder = .drained → (s.caller.stopped || s.deleted) = true
  joined : s.caller = .deleting ∨ s.deleted = true → s.decoder = .ended
  deleted : s.deleted = true → s.caller = .idle ∧ s.result = some true
  unopened : ∀ d ∈ s.omxDecoder, s.decoder.opened = false → d.decoder = false
  codec : ∀ d ∈ s.omxDecoder, d.decoder = false → s.decoder.inside = false
  ok : ∀ d ∈ s.omxDecoder, ∀ b ∈ s.result, b = decide (d.status = 0)
  opened : s.crashed = false → ∀ d ∈ s.omxDecoder, s.decoder.opened = true → d.status = 0 →
    d.decoder = true

theorem control_new : new.Control := by
  constructor <;> grind -linarith [new]

variable {s : VideoCodec}

theorem Control.crash (h : s.Control) : s.crash.Control :=
  { h with opened := fun hc => by simp [VideoCodec.crash] at hc }

theorem Control.exists_source (h : s.Control) (hpc : s.decoder.hasSource = true) :
    ∃ x, s.omxSource = some x :=
  Option.isSome_iff_exists.1 (h.source.trans hpc)

theorem Control.exists_decoder (h : s.Control) (hpc : s.decoder.hasDecoder = true) :
    ∃ d, s.omxDecoder = some d :=
  Option.isSome_iff_exists.1 (h.made.trans hpc)

/-- Nobody is deleted under a caller. -/
theorem Control.alive (h : s.Control) (hcaller : s.caller ≠ .idle) : s.deleted = false := by
  cases hd : s.deleted with
  | false => rfl
  | true => exact absurd (h.deleted hd).1 hcaller

theorem Control.callerStep (h : s.Control) : s.callerStep.Control := by
  unfold VideoCodec.callerStep
  cases hcaller : s.caller with
  | idle => exact h
  | initWaiting => exact h
  | initLock => cases h; constructor <;> grind -linarith
  | initStatus =>
    cases hd : s.omxDecoder with
    | none => exact h.crash
    | some d => cases h; constructor <;> grind -linarith
  | made buffer =>
    cases hx : s.omxSource with
    | none => exact h.crash
    | some x => cases h; constructor <;> grind -linarith [OMXSource.queueBuffer]
  | quitting => cases h; constructor <;> grind -linarith
  | stopping =>
    cases hx : s.omxSource with
    | none => exact h.crash
    | some x => cases h; constructor <;> grind -linarith [OMXSource.stop]
  | joining =>
    simp only
    split_ifs with hended
    · cases h; constructor <;> grind -linarith
    · exact h
  | deleting =>
    simp only
    split_ifs with hended
    · cases h; constructor <;> grind -linarith
    · exact h.crash

/-- `omxDecoder_->init()` changes the decoder alone. -/
theorem Control.initDecoder (h : s.Control) (hdecoder : s.decoder = .initDecoder)
    {d : OMXDecoder} (hd : s.omxDecoder = some d) (format : Format) (o : Opening) :
    (let s := { s with decoder := .announce, omxDecoder := some (d.init format o).1 }
     if (d.init format o).2 then s.crash else s).Control := by
  have hnull : d.decoder = false := h.unopened d hd (by rw [hdecoder]; rfl)
  have hresult : s.result = none := by
    by_contra hresult
    have := (h.result hresult).1
    rw [hdecoder] at this
    cases this
  have hopened : (d.init format o).2 = false → (d.init format o).1.status = 0 →
      (d.init format o).1.decoder = true := by
    unfold OMXDecoder.init
    split_ifs <;> simp_all
  have hcontrol : ∀ crashed, (crashed = false → (d.init format o).2 = false) →
      ({ s with
        decoder := .announce, omxDecoder := some (d.init format o).1, crashed := crashed }
        : VideoCodec).Control := by
    intro crashed hcrashed
    have hdrained := h.drained
    have hjoined := h.joined
    simp only [hdecoder] at hdrained hjoined
    exact
      { source := by rw [h.source, hdecoder]; rfl
        made := rfl
        initialized := by rw [h.initialized, hdecoder]; rfl
        present := by rw [h.present, hdecoder]; simp
        waiting := fun _ => rfl
        status := fun hc => by have := h.status hc; rw [hdecoder] at this; cases this
        result := fun hc => absurd hresult hc
        uses := h.uses
        quit := h.quit
        sourceQuit := h.sourceQuit
        leaving := by simp [DecoderPc.leaving]
        drained := by simp
        joined := fun hc => absurd (hjoined hc) (by simp)
        deleted := h.deleted
        unopened := by simp [DecoderPc.opened]
        codec := by simp [DecoderPc.inside]
        ok := by simp [hresult]
        opened := fun hc e he _ hstatus => by
          obtain rfl : (d.init format o).1 = e := by simpa using he
          exact hopened (hcrashed hc) hstatus }
  simp only
  split_ifs with hcrash
  · exact hcontrol true (by simp)
  · exact hcontrol s.crashed fun _ => by simpa using hcrash

theorem Control.decoderStep (h : s.Control) (o : Opening) (pulls : Bool) :
    (s.decoderStep o pulls).Control := by
  unfold VideoCodec.decoderStep
  cases hdecoder : s.decoder with
  | absent => exact h
  | ended => exact h
  | makeSource => cases h; constructor <;> grind -linarith [OMXSource.new]
  | makeDecoder => cases h; constructor <;> grind -linarith [OMXDecoder.new]
  | initDecoder =>
    cases hx : s.omxSource with
    | none => exact h.crash
    | some x =>
      cases hd : s.omxDecoder with
      | none => exact h.crash
      | some d => simpa only [hx] using h.initDecoder hdecoder hd x.format o
  | announce => cases h; constructor <;> grind -linarith
  | notify => cases h; constructor <;> grind -linarith
  | test => cases h; constructor <;> grind -linarith
  | read =>
    simp only
    split
    · cases h; constructor <;> grind -linarith
    · exact h.crash
  | reading => cases h; constructor <;> grind -linarith
  | pulling =>
    cases hx : s.omxSource with
    | none => exact h.crash
    | some x => cases h; constructor <;> grind -linarith [OMXSource.nextBuffer]
  | drained => cases h; constructor <;> grind -linarith
  | stop =>
    simp only
    split
    · cases h; constructor <;> grind -linarith
    · exact h.crash

/-- A call of the Java class keeps what its body keeps at an idle caller. -/
theorem Control.enter (h : s.Control) {f : VideoCodec → VideoCodec}
    (hf : s.caller = .idle → s.deleted = false → (f s).Control) : (s.enter f).Control := by
  unfold VideoCodec.enter
  split_ifs with hdeleted hidle
  · exact h.crash
  · exact hf hidle (by simpa using hdeleted)
  · exact h

/-- **Every event keeps it**, used as the renderer uses a codec. -/
theorem Control.step (h : s.Control) {e : Event} (he : s.Uses e) : (s.step e).Control := by
  unfold VideoCodec.step
  by_cases hcrashed : s.crashed = true
  · rwa [if_pos hcrashed]
  rw [if_neg hcrashed]
  cases e with
  | setSurface width height => exact h.enter fun _ _ => { h with }
  | init fps =>
    refine h.enter fun hidle halive => ?_
    obtain ⟨habsent, -⟩ := he
    unfold VideoCodec.init
    cases h
    constructor <;> grind -linarith
  | setSps buf len =>
    refine h.enter fun _ _ => ?_
    unfold VideoCodec.setSps
    cases hx : s.omxSource with
    | none => exact h.crash
    | some x => cases h; constructor <;> grind -linarith [OMXSource.setAvcc]
  | consume buf len t =>
    refine h.enter fun hidle halive => ?_
    obtain ⟨hopen, -⟩ := he
    unfold VideoCodec.queueBuffer
    cases h
    constructor <;> grind -linarith
  | delete =>
    refine h.enter fun hidle halive => ?_
    obtain ⟨hopen, -⟩ := he
    unfold VideoCodec.shutdown
    cases h
    constructor <;> grind -linarith
  | caller => exact h.callerStep
  | decoder o pulls => exact h.decoderStep o pulls
  | spurious =>
    simp only
    split_ifs
    · cases h; constructor <;> grind -linarith
    · exact h

theorem control_run {es : List Event} (hes : Along step Uses new es) : (run step new es).Control :=
  hes.invariant (I := Control) (fun _ _ h he => h.step he) control_new

end VideoCodec
end Native
end Carlinkit
