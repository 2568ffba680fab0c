/-
# What ends the native codec, and that nobody waits for ever

Three results about `OMXVideoCodec` as the renderer uses it.  The process ends in the native
code exactly when `connect` or `Create` failed: the decoder thread reads from a null
`decoder_` (`crashed_iff`).  `init` returns: the notification is never lost (`init_returns`).
`shutdown` returns: the decoder thread leaves `nextBuffer` and its loop (`shutdown_returns`).
-/

import Carlinkit.Machine.Progress
import Carlinkit.Native.CodecControl

namespace Carlinkit
namespace Native

open Framing Machine App

namespace VideoCodec

variable {s : VideoCodec} {e : Event} {d : OMXDecoder}

/-- A process that ended does nothing. -/
theorem step_of_crashed (hcrashed : s.crashed = true) (e : Event) : s.step e = s := by
  unfold step
  rw [if_pos hcrashed]

theorem run_of_crashed (hcrashed : s.crashed = true) (es : List Event) : run step s es = s := by
  induction es with
  | nil => rfl
  | cons e es ih => rw [run_cons, step_of_crashed hcrashed, ih]

/-- An event that is no action of the decoder thread leaves that thread and its decoder where
they are. -/
theorem decoder_step (he : s.Uses e) (hpresent : s.decoder ≠ .absent) (hnot : ¬ e.IsDecoder) :
    (s.step e).decoder = s.decoder ∧ (s.step e).omxDecoder = s.omxDecoder := by
  unfold step
  cases e with
  | decoder o pulls => exact absurd trivial hnot
  | init fps => exact absurd he.1 hpresent
  | caller => grind -linarith [callerStep, crash]
  | _ =>
    grind -linarith [enter, crash, setSurface, nativeSurfaceInit, setNativeWindow, setSps,
      queueBuffer, shutdown]

/-- The decoder thread stays. -/
theorem present_step (he : s.Uses e) (hpresent : s.decoder ≠ .absent) :
    (s.step e).decoder ≠ .absent := by
  by_cases hmove : e.IsDecoder
  · cases e with
    | decoder o pulls =>
      unfold step
      grind -linarith [decoderStep, crash]
    | _ => cases hmove
  · rwa [(decoder_step he hpresent hmove).1]

/-! ### What ends the process -/

/-- Once `omxDecoder_->init()` has returned, what it left stays. -/
theorem opened_step (he : s.Uses e) (hd : s.omxDecoder = some d)
    (hopened : s.decoder.opened = true) :
    (s.step e).omxDecoder = some d ∧ (s.step e).decoder.opened = true := by
  by_cases hmove : e.IsDecoder
  · cases e with
    | decoder o pulls =>
      unfold step
      grind -linarith [decoderStep, crash]
    | _ => cases hmove
  · obtain ⟨hpc, hdec⟩ := decoder_step he (by intro hn; rw [hn] at hopened; cases hopened) hmove
    exact ⟨hdec.trans hd, hpc ▸ hopened⟩

/-- Only a null `decoder_` ends the process, and with `OK` as its status only at `start()`. -/
def Caused (s : VideoCodec) : Prop :=
  s.crashed = true → ∃ d, s.omxDecoder = some d ∧ d.decoder = false ∧ s.decoder.opened = true ∧
    (d.status = 0 → s.decoder = .announce)

/-- The caller does not end it. -/
theorem crashed_callerStep (h : s.Control) (hcrashed : s.crashed = false) :
    s.callerStep.crashed = false := by
  unfold callerStep
  cases hcaller : s.caller with
  | initStatus =>
    have hmade := h.made
    have hstatus := h.status hcaller
    grind -linarith
  | made buffer | stopping =>
    have hsource := h.source
    have hresult := h.uses (by rw [hcaller]; rfl)
    have hannounced := h.result (by simp [hresult])
    grind -linarith
  | deleting => simp [h.joined (.inl hcaller), hcrashed]
  | joining =>
    simp only
    split_ifs <;> exact hcrashed
  | _ => exact hcrashed

/-- The decoder thread ends it at a null `decoder_`. -/
theorem Caused.decoderStep (h : s.Control) (hcrashed : s.crashed = false) (o : Opening)
    (pulls : Bool) : (s.decoderStep o pulls).Caused := by
  unfold Caused VideoCodec.decoderStep
  cases hdecoder : s.decoder with
  | initDecoder =>
    obtain ⟨x, hx⟩ : ∃ x, s.omxSource = some x := h.exists_source (by rw [hdecoder]; rfl)
    obtain ⟨d, hd⟩ : ∃ d, s.omxDecoder = some d := h.exists_decoder (by rw [hdecoder]; rfl)
    have hnull := h.unopened d hd (by rw [hdecoder]; rfl)
    simp only [hx, hd]
    split_ifs with hcrash
    · refine fun _ => ⟨_, rfl, ?_, rfl, fun _ => rfl⟩
      revert hcrash
      unfold OMXDecoder.init
      split_ifs <;> simp [hnull]
    · simp [hcrashed]
  | read | stop =>
    obtain ⟨⟨status, decoder, created⟩, hd⟩ : ∃ d, s.omxDecoder = some d :=
      h.exists_decoder (by rw [hdecoder]; rfl)
    have hopened := h.opened hcrashed _ hd (by rw [hdecoder]; rfl)
    cases decoder <;> simp_all [crash, DecoderPc.opened]
  | pulling =>
    obtain ⟨x, hx⟩ : ∃ x, s.omxSource = some x := h.exists_source (by rw [hdecoder]; rfl)
    simp only [hx]
    split <;> simp [hcrashed]
  | _ => simp [hcrashed]

theorem Caused.step (h : s.Control) (hs : s.Caused) (he : s.Uses e) : (s.step e).Caused := by
  by_cases hcrashed : s.crashed = true
  · rwa [step_of_crashed hcrashed]
  have halive : s.crashed = false := by simpa using hcrashed
  unfold VideoCodec.step
  rw [if_neg hcrashed]
  cases e with
  | decoder o pulls => exact Caused.decoderStep h halive o pulls
  | caller => simp [Caused, crashed_callerStep h halive]
  | setSps buf len =>
    obtain ⟨x, hx⟩ := h.exists_source (by have := h.result (by simp [he.1]); grind)
    simp [Caused, enter, setSps, he.2, hx, apply_ite VideoCodec.crashed, halive]
  | init fps => simp [Caused, enter, init, he.1, he.2, apply_ite VideoCodec.crashed, halive]
  | consume buf len t =>
    simp [Caused, enter, queueBuffer, he.2, apply_ite VideoCodec.crashed, halive]
  | setSurface width height =>
    simp [Caused, enter, setSurface, nativeSurfaceInit, setNativeWindow, he.2,
      apply_ite VideoCodec.crashed, halive]
  | delete => simp [Caused, enter, shutdown, he.2, apply_ite VideoCodec.crashed, halive]
  | spurious => simp [Caused, apply_ite VideoCodec.crashed, halive]

theorem caused_run {es : List Event} (hes : Along step Uses new es) :
    (run step new es).Caused :=
  (hes.invariant (I := fun s => s.Control ∧ s.Caused)
    (fun _ _ h he => ⟨h.1.step he, Caused.step h.1 h.2 he⟩) ⟨control_new, by simp [Caused, new]⟩).2

/-- How many actions the decoder thread is away from its first use of `decoder_`. -/
def untilRead (s : VideoCodec) : ℕ :=
  match s.decoder with
  | .announce => 3
  | .notify => 2
  | .test => 1
  | _ => 0

/-- Every action of the decoder thread leads to a null `decoder_` until it is read. -/
theorem decoderStep_of_null (hd : s.omxDecoder = some d) (hnull : d.decoder = false)
    (hopened : s.decoder.opened = true) (hinside : s.decoder.inside = false) (o : Opening)
    (pulls : Bool) : (s.decoderStep o pulls).crashed = true ∨
      (s.decoderStep o pulls).untilRead < s.untilRead := by
  obtain ⟨status, decoder, created⟩ := d
  cases hnull
  unfold decoderStep
  cases hdecoder : s.decoder with
  | absent | makeSource | makeDecoder | initDecoder => simp [hdecoder, DecoderPc.opened] at hopened
  | reading | pulling | drained | ended => simp [hdecoder, DecoderPc.inside] at hinside
  | announce | notify => simp [untilRead, hdecoder]
  | test => right; simp only [untilRead, hdecoder]; split_ifs <;> simp
  | read | stop => simp [hd, crash]

/-- What `omxDecoder_->init()` leaves. -/
theorem decoder_init (h : s.Control) (halive : s.crashed = false)
    (hdecoder : s.decoder = .initDecoder) (o : Opening) (pulls : Bool) :
    ∃ d, (s.step (.decoder o pulls)).omxDecoder = some d ∧
      (s.step (.decoder o pulls)).decoder = .announce ∧
      (d.decoder = false ↔ o.connect ≠ 0 ∨ o.codec = false) := by
  obtain ⟨x, hx⟩ := h.exists_source (by rw [hdecoder]; rfl)
  obtain ⟨d, hd⟩ := h.exists_decoder (by rw [hdecoder]; rfl)
  have hnull := h.unopened d hd (by rw [hdecoder]; rfl)
  refine ⟨(d.init x.format o).1, ?_, ?_, ?_⟩
  · simp only [step, halive, decoderStep, hdecoder, hx, hd]
    split_ifs <;> simp_all [VideoCodec.crash]
  · simp only [step, halive, decoderStep, hdecoder, hx, hd]
    split_ifs <;> simp_all [VideoCodec.crash]
  · unfold OMXDecoder.init
    split_ifs <;> simp_all

/-- Once `omxDecoder_->init()` has returned, four actions of the decoder thread end a process
with a null `decoder_`. -/
theorem crashed_of_null {fs : List Event} (h : s.Control) (hfs : Along step Uses s fs)
    (hd : s.omxDecoder = some d) (hopened : s.decoder.opened = true) (hnull : d.decoder = false)
    (hcount : 4 ≤ fs.countP Event.IsDecoder) : (run step s fs).crashed = true := by
  refine hfs.done (D := fun s => s.crashed = true) (m := untilRead) (P := Event.IsDecoder)
    (I := fun s => s.Control ∧ s.omxDecoder = some d ∧ s.decoder.opened = true) ?_ ?_ ?_ ?_
    ⟨h, hd, hopened⟩ (.inr ?_)
  · exact fun _ _ h he => ⟨h.1.step he, opened_step he h.2.1 h.2.2⟩
  · exact fun _ e _ _ hcrashed => by rwa [step_of_crashed hcrashed]
  · intro s e h he _ hnot
    right
    have hpresent : s.decoder ≠ .absent := by
      intro hn
      rw [hn] at h
      exact absurd h.2.2 (by simp [DecoderPc.opened])
    simp only [untilRead, (decoder_step he hpresent hnot).1, le_refl]
  · intro s e h he halive hmove
    cases e with
    | decoder o pulls =>
      simp only [VideoCodec.step, if_neg halive]
      exact decoderStep_of_null h.2.1 hnull h.2.2 (h.1.codec d h.2.1 hnull) o pulls
    | _ => cases hmove
  · have : s.untilRead ≤ 3 := by
      unfold untilRead
      split <;> omega
    omega

/-- **The process ends in the native code exactly when `connect` or `Create` failed.**  The
next four actions of the decoder thread after `omxDecoder_->init()` settle it. -/
theorem crashed_iff {es fs : List Event} {o : Opening} {pulls : Bool}
    (hes : Along step Uses new (es ++ .decoder o pulls :: fs))
    (hdecoder : (run step new es).decoder = .initDecoder)
    (hfs : 4 ≤ fs.countP Event.IsDecoder) :
    (run step new (es ++ .decoder o pulls :: fs)).crashed = true ↔
      o.connect ≠ 0 ∨ o.codec = false := by
  obtain ⟨hes', he, hfs'⟩ := (along_append ..).1 hes
  have hcontrol := control_run hes'
  have halive : (run step new es).crashed = false := by
    by_contra hcrashed
    obtain ⟨d, -, -, hopened, -⟩ := caused_run hes' (by simpa using hcrashed)
    rw [hdecoder] at hopened
    cases hopened
  obtain ⟨d, hd, hpc, hnull⟩ := decoder_init hcontrol halive hdecoder o pulls
  have hopened : ((run step new es).step (.decoder o pulls)).decoder.opened = true := by
    rw [hpc]
    rfl
  rw [← hnull]
  constructor
  · intro hcrashed
    obtain ⟨d', hd', hnull', -⟩ := caused_run hes hcrashed
    rw [run_append, run_cons, (hfs'.invariant
      (I := fun s => s.omxDecoder = some d ∧ s.decoder.opened = true)
      (fun _ _ h he => opened_step he h.1 h.2) ⟨hd, hopened⟩).1] at hd'
    cases hd'
    exact hnull'
  · intro hnull
    rw [run_append, run_cons]
    exact crashed_of_null (hcontrol.step he) hfs' hd hopened hnull hfs

theorem Caused.alive (hs : s.Caused) (h : s.Control) (hopen : s.result = some true) :
    s.crashed = false := by
  by_contra hcrashed
  obtain ⟨d, hd, -, -, hannounce⟩ := hs (by simpa using hcrashed)
  have hstatus : d.status = 0 := by simpa using h.ok d hd true (by simp [hopen])
  have hannounced := (h.result (by simp [hopen])).1
  rw [hannounce hstatus] at hannounced
  cases hannounced

/-- A run up to `omxDecoder_->init()`. -/
def starting : List Event :=
  [.setSurface 800 480, .init 30, .decoder ⟨0, true, 0⟩ true, .decoder ⟨0, true, 0⟩ true]

theorem crashed_iff_starting :
    (run step new (starting ++ .decoder ⟨-1, false, 0⟩ true ::
      List.replicate 4 (.decoder ⟨0, true, 0⟩ true))).crashed = true ↔
      (-1 : ℤ) ≠ 0 ∨ false = false :=
  crashed_iff (by decide) (by decide) (by decide)

/-- **Once `init` has returned `true` the native code never ends the process.** -/
theorem alive_of_open {es : List Event} (hes : Along step Uses new es)
    (hopen : (run step new es).result = some true) : (run step new es).crashed = false :=
  (caused_run hes).alive (control_run hes) hopen

/-! ### `init` returns -/

/-- How many actions the decoder thread is away from its last one before the loop. -/
def untilNotify (s : VideoCodec) : ℕ :=
  match s.decoder with
  | .makeSource => 4
  | .makeDecoder => 3
  | .initDecoder => 2
  | .announce => 1
  | _ => 0

/-- How many actions the caller is away from the last one of `init`. -/
def untilStatus (s : VideoCodec) : ℕ :=
  match s.caller with
  | .initLock => 1
  | _ => 0

/-- The decoder thread never comes back to where it has been. -/
theorem notified_step (he : s.Uses e) (hnotified : s.decoder.notified = true) :
    (s.step e).decoder.notified = true := by
  by_cases hmove : e.IsDecoder
  · cases e with
    | decoder o pulls =>
      unfold step
      grind -linarith [decoderStep, crash]
    | _ => cases hmove
  · rwa [(decoder_step he (by intro hn; rw [hn] at hnotified; cases hnotified) hmove).1]

/-- `init` is called once. -/
theorem inits_step (he : s.Uses e) (hnotified : s.decoder.notified = true)
    (hout : s.caller.inits = false) : (s.step e).caller.inits = false := by
  have hpresent : s.decoder ≠ .absent := by
    intro hn
    rw [hn] at hnotified
    cases hnotified
  unfold step
  cases e with
  | init fps => exact absurd he.1 hpresent
  | caller => grind -linarith [callerStep, crash]
  | decoder o pulls => grind -linarith [decoderStep, crash]
  | _ =>
    grind -linarith [enter, crash, setSurface, nativeSurfaceInit, setNativeWindow, setSps,
      queueBuffer, shutdown]

theorem untilNotify_decoderStep (h : s.Control) (hpresent : s.decoder ≠ .absent)
    (hnot : s.decoder.notified = false) (o : Opening) (pulls : Bool) :
    ((s.decoderStep o pulls).crashed = true ∨ (s.decoderStep o pulls).decoder.notified = true) ∨
      (s.decoderStep o pulls).untilNotify < s.untilNotify := by
  unfold decoderStep
  cases hdecoder : s.decoder with
  | absent => exact absurd hdecoder hpresent
  | makeSource | makeDecoder | announce => simp [untilNotify, hdecoder]
  | initDecoder =>
    obtain ⟨x, hx⟩ := h.exists_source (by rw [hdecoder]; rfl)
    obtain ⟨d, hd⟩ := h.exists_decoder (by rw [hdecoder]; rfl)
    simp only [hx, hd]
    split_ifs <;> simp [untilNotify, hdecoder, crash]
  | notify => simp [DecoderPc.notified]
  | _ => simp [hdecoder, DecoderPc.notified] at hnot

/-- The thread has said that it is there after five actions, or the process has ended. -/
theorem notified_run {fs : List Event} (h : s.Control) (hfs : Along step Uses s fs)
    (hpresent : s.decoder ≠ .absent) (hcount : 5 ≤ fs.countP Event.IsDecoder) :
    (run step s fs).crashed = true ∨ (run step s fs).decoder.notified = true := by
  refine hfs.done (D := fun s => s.crashed = true ∨ s.decoder.notified = true)
    (m := untilNotify) (P := Event.IsDecoder)
    (I := fun s => s.Control ∧ s.decoder ≠ .absent) ?_ ?_ ?_ ?_ ⟨h, hpresent⟩ ?_
  · exact fun s e h he => ⟨h.1.step he, present_step he h.2⟩
  · rintro s e - he (hcrashed | hnotified)
    · exact .inl (by rwa [step_of_crashed hcrashed])
    · exact .inr (notified_step he hnotified)
  · intro s e h he _ hnot
    right
    simp only [untilNotify, (decoder_step he h.2 hnot).1, le_refl]
  · intro s e h he hnot hmove
    obtain ⟨halive, hnotified⟩ := not_or.1 hnot
    cases e with
    | decoder o pulls =>
      simp only [VideoCodec.step, if_neg halive]
      exact untilNotify_decoderStep h.1 h.2 (by simpa using hnotified) o pulls
    | _ => cases hmove
  · right
    have : s.untilNotify ≤ 4 := by
      unfold untilNotify
      split <;> omega
    omega

/-- Only the caller leaves the function that it is in. -/
theorem caller_step (h : s.Control) (hwaiting : s.caller ≠ .initWaiting)
    (hbusy : s.caller ≠ .idle) (hnot : ¬ e.IsCaller) : (s.step e).caller = s.caller := by
  have hstays : ∀ f, s.enter f = s := fun f => by simp [enter, h.alive hbusy, hbusy]
  unfold step
  cases e with
  | decoder o pulls => grind -linarith [decoderStep, crash]
  | caller => exact absurd trivial hnot
  | spurious => simp only [if_neg hwaiting, ite_self]
  | _ => simp only [hstays, ite_self]

/-- With the thread there, two actions of the caller are the rest of `init`. -/
theorem inits_run {gs : List Event} (h : s.Control) (hgs : Along step Uses s gs)
    (hnotified : s.decoder.notified = true) (hcount : 2 ≤ gs.countP Event.IsCaller) :
    (run step s gs).crashed = true ∨ (run step s gs).caller.inits = false := by
  refine hgs.done (D := fun s => s.crashed = true ∨ s.caller.inits = false) (m := untilStatus)
    (P := Event.IsCaller) (I := fun s => s.Control ∧ s.decoder.notified = true) ?_ ?_ ?_ ?_
    ⟨h, hnotified⟩ (.inr ?_)
  · exact fun s e h he => ⟨h.1.step he, notified_step he h.2⟩
  · rintro s e h he (hcrashed | hout)
    · exact .inl (by rwa [step_of_crashed hcrashed])
    · exact .inr (inits_step he h.2 hout)
  · intro s e h _ hnot hmove
    have hbusy : s.caller ≠ .idle := by
      intro hidle
      simp [hidle, CallerPc.inits] at hnot
    have hwaiting : s.caller ≠ .initWaiting := fun hw => by simp [h.1.waiting hw] at h
    right
    simp only [untilStatus, caller_step h.1 hwaiting hbusy hmove, le_refl]
  · intro s e h he hnot hmove
    obtain ⟨halive, hinits⟩ := not_or.1 hnot
    cases e with
    | caller =>
      have hinitialized : s.decoderThreadInitialized = true :=
        h.1.initialized.trans (DecoderPc.announced_of_notified h.2)
      have hwaiting : s.caller ≠ .initWaiting := fun hw => by
        simp [h.1.waiting hw] at h
      obtain ⟨d, hd⟩ := h.1.exists_decoder (by have := h.2; grind)
      simp only [VideoCodec.step, if_neg halive]
      unfold callerStep
      cases hcaller : s.caller <;> simp_all [untilStatus, CallerPc.inits]
    | _ => cases hmove
  · have : s.untilStatus ≤ 1 := by
      unfold untilStatus
      split <;> omega
    omega

/-- **`init` returns, and with what the decoder says.**  No notification is lost: five actions
of the decoder thread and then two of the caller are the rest of it, whatever comes between
them, unless the process has ended. -/
theorem init_returns {es fs gs : List Event} (hes : Along step Uses new (es ++ fs ++ gs))
    (hinits : (run step new es).caller.inits = true) (hfs : 5 ≤ fs.countP Event.IsDecoder)
    (hgs : 2 ≤ gs.countP Event.IsCaller) :
    let s := run step new (es ++ fs ++ gs)
    s.crashed = true ∨ s.caller.inits = false ∧
      ∃ d, s.omxDecoder = some d ∧ s.result = some (decide (d.status = 0)) := by
  obtain ⟨hes', hgs'⟩ := (along_append ..).1 hes
  obtain ⟨hes'', hfs'⟩ := (along_append ..).1 hes'
  have hcontrol := control_run hes''
  have hpresent : (run step new es).decoder ≠ .absent := hcontrol.present.1 (.inl hinits)
  intro s
  have hs : s.Control := control_run hes
  have hrun : s = run step (run step (run step new es) fs) gs := by
    simp only [s, run_append]
  rw [run_append] at hgs'
  rcases notified_run hcontrol hfs' hpresent hfs with hcrashed | hnotified
  · left
    rw [hrun, run_of_crashed hcrashed, hcrashed]
  · have hfcontrol : (run step (run step new es) fs).Control := by
      rw [← run_append]
      exact control_run hes'
    rcases inits_run hfcontrol hgs' hnotified hgs with hcrashed | hout
    · exact .inl (hrun ▸ hcrashed)
    · right
      rw [← hrun] at hout
      refine ⟨hout, ?_⟩
      have hthere : s.decoder ≠ .absent := by
        rw [hrun]
        exact hgs'.invariant (I := fun s => s.decoder ≠ .absent)
          (fun _ _ h he => present_step he h)
          (by intro hn; simp [hn, DecoderPc.notified] at hnotified)
      have hresult : s.result ≠ none := (hs.present.2 hthere).resolve_left (by simp [hout])
      obtain ⟨b, hb⟩ := Option.ne_none_iff_exists'.1 hresult
      obtain ⟨d, hd⟩ := hs.exists_decoder (by have := (hs.result hresult).1; grind)
      exact ⟨d, hd, by rw [hb, hs.ok d hd b hb]⟩

/-- Five actions of the decoder thread. -/
def coming : List Event := List.replicate 5 (.decoder ⟨0, true, 0⟩ true)

theorem init_returns_coming :
    let s := run step new ([.setSurface 800 480, .init 30, .caller] ++ coming ++ [.caller, .caller])
    s.crashed = true ∨ s.caller.inits = false ∧
      ∃ d, s.omxDecoder = some d ∧ s.result = some (decide (d.status = 0)) :=
  init_returns (by decide) (by decide) (by decide) (by decide)

/-! ### `shutdown` returns -/

/-- `OMXCodec::read` asks no more once the source has said that it is at its end. -/
def Prompt (s : VideoCodec) : Event → Prop
  | .decoder _ pulls => s.decoder = .drained → pulls = false
  | _ => True

instance (s : VideoCodec) : (e : Event) → Decidable (s.Prompt e)
  | .decoder _ pulls => inferInstanceAs (Decidable (s.decoder = .drained → pulls = false))
  | .setSurface .. | .init _ | .setSps .. | .consume .. | .delete | .caller | .spurious =>
    .isTrue trivial

/-- How many actions the caller is away from `omxDecoderThread_.join()`. -/
def untilStopped (s : VideoCodec) : ℕ :=
  match s.caller with
  | .quitting => 1
  | _ => 0

/-- How many actions the decoder thread is away from its end. -/
def untilEnded (s : VideoCodec) : ℕ :=
  match s.decoder with
  | .read => 5
  | .reading => 4
  | .pulling => 3
  | .notify | .drained => 2
  | .test => 1
  | _ => 0

/-- How many actions the caller is away from the end of `nativeDelete`. -/
def untilDeleted (s : VideoCodec) : ℕ :=
  match s.caller with
  | .joining => 1
  | _ => 0

/-- The caller is in `shutdown`, or has come through it. -/
def Shuts (s : VideoCodec) : Prop := s.caller.shuts = true ∨ s.deleted = true

/-- The caller has stopped the source, or has come through `shutdown`. -/
def Stopped (s : VideoCodec) : Prop := s.caller.stopped = true ∨ s.deleted = true

theorem Control.open_of_shuts (h : s.Control) (hshuts : s.Shuts) : s.result = some true := by
  rcases hshuts with hc | hd
  · refine h.uses ?_
    cases hcaller : s.caller <;> simp_all [CallerPc.shuts, CallerPc.uses]
  · exact (h.deleted hd).2

theorem Stopped.shuts (hs : s.Stopped) : s.Shuts :=
  hs.imp_left fun hc => by cases hcaller : s.caller <;> simp_all [CallerPc.shuts, CallerPc.stopped]

theorem deleted_step (e : Event) (hd : s.deleted = true) : (s.step e).deleted = true := by
  unfold step
  cases e with
  | caller => grind -linarith [callerStep, crash]
  | decoder o pulls => grind -linarith [decoderStep, crash]
  | _ => grind -linarith [enter, crash]

/-- There is no way back in `shutdown`. -/
theorem Shuts.step (h : s.Control) (hs : s.Shuts) (e : Event) : (s.step e).Shuts := by
  rcases hs with hshuts | hd
  · by_cases hcrashed : s.crashed = true
    · rw [step_of_crashed hcrashed]
      exact .inl hshuts
    · by_cases hmove : e.IsCaller
      · cases e with
        | caller =>
          simp only [VideoCodec.step, if_neg hcrashed]
          unfold callerStep
          cases hcaller : s.caller <;> grind -linarith [Shuts, crash]
        | _ => cases hmove
      · left
        rwa [caller_step h (by rintro hw; simp [hw, CallerPc.shuts] at hshuts)
          (by rintro hw; simp [hw, CallerPc.shuts] at hshuts) hmove]
  · exact .inr (deleted_step e hd)

theorem Stopped.step (h : s.Control) (hs : s.Stopped) (e : Event) : (s.step e).Stopped := by
  rcases hs with hstopped | hd
  · by_cases hcrashed : s.crashed = true
    · rw [step_of_crashed hcrashed]
      exact .inl hstopped
    · by_cases hmove : e.IsCaller
      · cases e with
        | caller =>
          simp only [VideoCodec.step, if_neg hcrashed]
          unfold callerStep
          cases hcaller : s.caller <;> grind -linarith [Stopped, crash]
        | _ => cases hmove
      · left
        rwa [caller_step h (by rintro hw; simp [hw, CallerPc.stopped] at hstopped)
          (by rintro hw; simp [hw, CallerPc.stopped] at hstopped) hmove]
  · exact .inr (deleted_step e hd)

/-- Two actions of the caller bring `shutdown` to the join. -/
theorem stopped_run {fs : List Event} (h : s.Control) (hc : s.Caused)
    (hfs : Along step Uses s fs) (hshuts : s.Shuts) (hcount : 2 ≤ fs.countP Event.IsCaller) :
    (run step s fs).Stopped := by
  refine hfs.done (D := Stopped) (m := untilStopped) (P := Event.IsCaller)
    (I := fun s => s.Control ∧ s.Caused ∧ s.Shuts) ?_ ?_ ?_ ?_ ⟨h, hc, hshuts⟩ (.inr ?_)
  · exact fun s e h he => ⟨h.1.step he, h.2.1.step h.1 he, h.2.2.step h.1 e⟩
  · exact fun s e h _ hs => hs.step h.1 e
  · rintro s e ⟨h, -, hs⟩ - hnot hmove
    have hcaller := hs.resolve_right fun hd => hnot (.inr hd)
    right
    rw [untilStopped, caller_step h (by rintro hw; simp [hw, CallerPc.shuts] at hcaller)
      (by rintro hw; simp [hw, CallerPc.shuts] at hcaller) hmove, untilStopped]
  · rintro s e ⟨h, hc, hs⟩ - hnot hmove
    have hopen := h.open_of_shuts hs
    have halive := hc.alive h hopen
    have hshuts := hs.resolve_right fun hd => hnot (.inr hd)
    obtain ⟨x, hx⟩ := h.exists_source (by have := h.result (by simp [hopen]); grind)
    cases e with
    | caller =>
      simp only [VideoCodec.step, halive]
      unfold callerStep
      cases hcaller : s.caller <;>
        simp_all [Stopped, untilStopped, CallerPc.shuts, CallerPc.stopped]
    | _ => cases hmove
  · have : s.untilStopped ≤ 1 := by
      unfold untilStopped
      split <;> omega
    omega

theorem ended_step (he : s.Uses e) (hended : s.decoder = .ended) :
    (s.step e).decoder = .ended := by
  by_cases hmove : e.IsDecoder
  · cases e with
    | decoder o pulls => simp [VideoCodec.step, decoderStep, hended]
    | _ => cases hmove
  · rw [(decoder_step he (by simp [hended]) hmove).1, hended]

/-- With the source stopped the decoder thread is at its end after six actions. -/
theorem ended_run {gs : List Event} (h : s.Control) (hc : s.Caused)
    (hgs : Along step (fun s e => s.Uses e ∧ s.Prompt e) s gs) (hstopped : s.Stopped)
    (hcount : 6 ≤ gs.countP Event.IsDecoder) : (run step s gs).decoder = .ended := by
  refine hgs.done (D := fun s => s.decoder = .ended) (m := untilEnded) (P := Event.IsDecoder)
    (I := fun s => s.Control ∧ s.Caused ∧ s.Stopped) ?_ ?_ ?_ ?_ ⟨h, hc, hstopped⟩ (.inr ?_)
  · exact fun s e h he => ⟨h.1.step he.1, h.2.1.step h.1 he.1, h.2.2.step h.1 e⟩
  · exact fun s e _ he hended => ended_step he.1 hended
  · rintro s e ⟨h, -, hs⟩ ⟨he, -⟩ - hmove
    have hannounced := (h.result (by simp [h.open_of_shuts hs.shuts])).1
    right
    rw [untilEnded, (decoder_step he (by rintro hn; simp [hn, DecoderPc.announced] at hannounced)
      hmove).1, untilEnded]
  · rintro s e ⟨h, hc, hs⟩ ⟨-, hprompt⟩ hnot hmove
    have hopen := h.open_of_shuts hs.shuts
    have halive := hc.alive h hopen
    have hannounced := (h.result (by simp [hopen])).1
    obtain ⟨x, hx⟩ := h.exists_source (by grind)
    obtain ⟨⟨status, decoder, created⟩, hd⟩ := h.exists_decoder (by grind)
    have hstatus : status = 0 := by simpa using h.ok _ hd true (by simp [hopen])
    have hnonnull : decoder = true := h.opened halive _ hd (by grind) hstatus
    have hsource : x.quitFlag = true := by
      rw [h.sourceQuit x hx]
      simpa [Stopped] using hs
    have hquit : s.decoderThreadQuitFlag = true := by
      rw [h.quit]
      rcases hs with hs | hs <;> simp [hs, CallerPc.quit_of_stopped]
    cases e with
    | decoder o pulls =>
      simp only [VideoCodec.step, halive]
      unfold decoderStep
      cases hdecoder : s.decoder with
      | drained =>
        have hpulls : pulls = false := hprompt hdecoder
        simp [untilEnded, hdecoder, hpulls]
      | reading => cases pulls <;> simp [untilEnded, hdecoder]
      | _ =>
        simp_all [untilEnded, DecoderPc.announced, OMXSource.nextBuffer]
    | _ => cases hmove
  · have : s.untilEnded ≤ 5 := by
      unfold untilEnded
      split <;> omega
    omega

/-- With the decoder thread at its end two actions of the caller are the rest of `shutdown`. -/
theorem deleted_run {gs : List Event} (h : s.Control) (hc : s.Caused)
    (hgs : Along step Uses s gs) (hstopped : s.Stopped) (hended : s.decoder = .ended)
    (hcount : 2 ≤ gs.countP Event.IsCaller) : (run step s gs).deleted = true := by
  refine hgs.done (D := fun s => s.deleted = true) (m := untilDeleted) (P := Event.IsCaller)
    (I := fun s => s.Control ∧ s.Caused ∧ s.Stopped ∧ s.decoder = .ended) ?_ ?_ ?_ ?_
    ⟨h, hc, hstopped, hended⟩ (.inr ?_)
  · rintro s e ⟨h, hc, hs, hended⟩ he
    exact ⟨h.step he, hc.step h he, hs.step h e, ended_step he hended⟩
  · exact fun s e _ _ hd => deleted_step e hd
  · rintro s e ⟨h, -, hs, -⟩ - hnot hmove
    have hcaller := hs.resolve_right hnot
    right
    rw [untilDeleted, caller_step h (by rintro hw; simp [hw, CallerPc.stopped] at hcaller)
      (by rintro hw; simp [hw, CallerPc.stopped] at hcaller) hmove, untilDeleted]
  · rintro s e ⟨h, hc, hs, hended⟩ - hnot hmove
    have halive := hc.alive h (h.open_of_shuts hs.shuts)
    have hstopped := hs.resolve_right hnot
    cases e with
    | caller =>
      simp only [VideoCodec.step, halive]
      unfold callerStep
      cases hcaller : s.caller <;> simp_all [untilDeleted, CallerPc.stopped]
    | _ => cases hmove
  · have : s.untilDeleted ≤ 1 := by
      unfold untilDeleted
      split <;> omega
    omega

/-- **`shutdown` returns, with the decoder thread at its end.**  Two actions of the caller, six
of the decoder thread and two of the caller are the rest of it, whatever comes between them, as
long as `OMXCodec::read` returns when the source is at its end. -/
theorem shutdown_returns {es fs gs hs : List Event}
    (hes : Along step (fun s e => s.Uses e ∧ s.Prompt e) new (es ++ fs ++ gs ++ hs))
    (hshuts : (run step new es).caller.shuts = true) (hfs : 2 ≤ fs.countP Event.IsCaller)
    (hgs : 6 ≤ gs.countP Event.IsDecoder) (hhs : 2 ≤ hs.countP Event.IsCaller) :
    let s := run step new (es ++ fs ++ gs ++ hs)
    s.deleted = true ∧ s.decoder = .ended ∧ s.crashed = false := by
  have huses : Along step Uses new (es ++ fs ++ gs ++ hs) := hes.mono fun _ _ h => h.1
  obtain ⟨hes₃, hhs'⟩ := (along_append ..).1 hes
  obtain ⟨hes₂, hgs'⟩ := (along_append ..).1 hes₃
  obtain ⟨hes₁, hfs'⟩ := (along_append ..).1 hes₂
  have hstopped := stopped_run (control_run (hes₁.mono fun _ _ h => h.1))
    (caused_run (hes₁.mono fun _ _ h => h.1)) (hfs'.mono fun _ _ h => h.1) (.inl hshuts) hfs
  rw [← run_append] at hstopped
  have huses₂ : Along step Uses new (es ++ fs) := hes₂.mono fun _ _ h => h.1
  have hended := ended_run (control_run huses₂) (caused_run huses₂) hgs' hstopped hgs
  rw [← run_append] at hended
  have huses₃ : Along step Uses new (es ++ fs ++ gs) := hes₃.mono fun _ _ h => h.1
  have hstopped₃ : (run step new (es ++ fs ++ gs)).Stopped := by
    rw [run_append]
    exact (hgs'.invariant (I := fun s => s.Control ∧ s.Stopped)
      (fun s e h he => ⟨h.1.step he.1, h.2.step h.1 e⟩) ⟨control_run huses₂, hstopped⟩).2
  have hdeleted := deleted_run (control_run huses₃) (caused_run huses₃)
    (hhs'.mono fun _ _ h => h.1) hstopped₃ hended hhs
  rw [← run_append] at hdeleted
  have hcontrol := control_run huses
  exact ⟨hdeleted, hcontrol.joined (.inr hdeleted),
    alive_of_open huses (hcontrol.deleted hdeleted).2⟩

/-- A run that is in `shutdown` with a buffer left in the source. -/
def closing : List Event :=
  [.setSurface 800 480, .init 30] ++ coming ++
    [.caller, .caller, .decoder ⟨0, true, 0⟩ true, .setSps [0, 0, 0, 1, 7] 5,
      .consume [0, 0, 0, 1, 7] 5 0, .caller, .delete]

theorem shutdown_returns_closing :
    let s := run step new (closing ++ [.caller, .caller] ++
      List.replicate 6 (.decoder ⟨0, true, 0⟩ false) ++ [.caller, .caller])
    s.deleted = true ∧ s.decoder = .ended ∧ s.crashed = false :=
  shutdown_returns (by decide) (by decide) (by decide) (by decide) (by decide)

end VideoCodec
end Native
end Carlinkit
