/-
# The label of a chunk

A chunk goes to the dongle with the `decodeType` of the microphone, which the capture
thread reads when it sends.  The samples have the rate of the `AudioRecord` they were
read from.  `setDecodeType` changes the field first and stops the capture afterwards, so
a thread that is in its loop then may label a chunk of the old rate with the new type.

`labelled_of_changesQuietly` says that this is the only way: the labels are right as long
as the format changes only where no capture thread can still come to a sending.
-/

import Carlinkit.App.CaptureThreads

namespace Carlinkit
namespace App
namespace Capture

open Protocol Machine

/-- The rate of the `decodeType` is the rate of the recording. -/
def Chunk.Right (c : Chunk) : Prop := ∃ f ∈ formatOf c.decodeType, f.sampleRate = c.recordedAt

instance (c : Chunk) : Decidable c.Right :=
  inferInstanceAs (Decidable (∃ f ∈ formatOf c.decodeType, _))

/-- Among the formats of a microphone the rate tells the type. -/
theorem chunk_right_iff (f g : CaptureFormat) (length : ℤ) :
    Chunk.Right ⟨f.decodeType, length, g.sampleRate⟩ ↔ f = g := by
  simp only [Chunk.Right, f.known, Option.mem_some_iff, exists_eq_left']
  exact ⟨fun h => CaptureFormat.ext_sampleRate h, fun h => h ▸ rfl⟩

/-- The thread has a chunk or is about to read one, or would go on to, as `running` is. -/
def CapturePc.MaySend (running : Bool) : CapturePc → Prop
  | .load | .reading _ | .sending _ _ => True
  | .begin | .check | .switching | .opening | .making => running = true
  | .finish | .unborn | .ended | .dead => False

theorem CapturePc.MaySend.mono {running running' : Bool} {q : CapturePc} (h : q.MaySend running)
    (hrun : running = true → running' = true) : q.MaySend running' := by
  cases q <;> first | trivial | exact hrun h

theorem CapturePc.maySend_of_source {running : Bool} {q : CapturePc} {r : AudioRecord}
    (h : r ∈ q.source) : q.MaySend running := by
  cases q <;> trivial

namespace State

/-- Capture thread `t` can come to a sending without a new start. -/
def MaySend (s : State) (t : ℕ) : Prop := (s.captures t).MaySend s.running

/-- Every chunk that was sent is labelled with its rate. -/
def Labelled (s : State) : Prop := ∀ c ∈ s.sent, c.Right

instance (s : State) : Decidable s.Labelled := inferInstanceAs (Decidable (∀ c ∈ s.sent, _))

/-- What a capture thread sends was recorded in the format that is set. -/
def AsRecorded (s : State) : Event → Prop
  | .capture t _ => ∀ r length, s.captures t = .sending r length → r.format = s.decodeType
  | _ => True

/-- A `setDecodeType` that changes the format finds no capture thread that may still send. -/
def ChangesQuietly (s : State) : Event → Prop
  | .caller i _ => ∀ type, s.callers i = .setDecodeType type → s.monitor = none →
      (∀ f ∈ CaptureFormat.ofDecodeType type, f = s.decodeType ∧ f = s.sampleRate) ∨
        ∀ t, ¬ s.MaySend t
  | _ => True

variable {s : State}

/-- **One event.**  A chunk that is sent is labelled right when it was recorded in the
format that is set. -/
theorem Labelled.step_iff (h : s.Labelled) (e : Event) : (s.step e).Labelled ↔ s.AsRecorded e := by
  have hsame : ∀ {s' : State}, s'.sent = s.sent → s'.Labelled := by
    intro s' hsent c hc
    exact h c (hsent ▸ hc)
  cases e with
  | call i c =>
      refine iff_of_true (hsame ?_) trivial
      simp only [State.step]
      split_ifs
      · cases c <;> rfl
      · rfl
  | caller i ok => exact iff_of_true (hsame (s.frame_callerStep i ok).1) trivial
  | read t result peak =>
      exact iff_of_true (hsame (s.frame_readStep t result peak).2.2.2.2.2.2) trivial
  | capture t ok =>
      cases hpc : s.captures t with
      | sending r length =>
          have hrecorded : s.AsRecorded (.capture t ok) ↔ r.format = s.decodeType := by
            simp [AsRecorded, hpc]
          rw [hrecorded, eq_comm, ← chunk_right_iff s.decodeType r.format length]
          simp only [Labelled, State.step, captureStep, hpc, List.mem_append, List.mem_singleton]
          exact ⟨fun hall => hall _ (.inr rfl), fun hnew c hc => hc.elim (h c) fun hc => hc ▸ hnew⟩
      | load =>
          refine iff_of_true (hsame ?_) (by simp [AsRecorded, hpc])
          simp only [State.step, captureStep, hpc]
          cases s.record <;> rfl
      | finish | switching | opening | making =>
          refine iff_of_true (hsame ?_) (by simp [AsRecorded, hpc])
          simp only [State.step, captureStep, hpc]
          split_ifs <;> rfl
      | _ =>
          refine iff_of_true (hsame ?_) (by simp [AsRecorded, hpc])
          simp only [State.step, captureStep, hpc, setCapture]

/-! ### Changes of format between captures -/

/-- What holds as long as the format changes quietly: everything that a thread can send
from was made in the format that is set. -/
structure Tuned (s : State) : Prop where
  rate : (∀ i f, s.callers i ≠ .settingRate f) → s.sampleRate = s.decodeType
  quiet : ∀ i f, s.callers i = .settingRate f → f = s.decodeType ∧ ∀ t, ¬ s.MaySend t
  source : ∀ t, ∀ r ∈ (s.captures t).source, r.format = s.decodeType
  record : (∃ t, s.MaySend t) ∨ (∃ i, s.callers i = .launching) →
    ∀ r ∈ s.record, r.format = s.decodeType

theorem tuned_new : new.Tuned where
  rate _ := rfl
  quiet _ _ h := by simp [new] at h
  source _ _ h := by simp [new, CapturePc.source] at h
  record _ := by simp [new]

/-- Such a thread sends what was recorded in the format that is set. -/
theorem Tuned.asRecorded (h : s.Tuned) (e : Event) : s.AsRecorded e := by
  cases e with
  | capture t ok =>
      intro r length hpc
      exact h.source t r (by simp [hpc, CapturePc.source])
  | _ => trivial

/-- A calling thread that neither sets a format nor has a source open. -/
theorem Tuned.caller (h : s.Tuned) {s' : State} {i : ℕ} {q : CallerPc}
    (hcallers : s'.callers = Function.update s.callers i q)
    (hi : ∀ f, s.callers i ≠ .settingRate f) (hset : ∀ f, q ≠ .settingRate f)
    (hlaunching : q ≠ .launching) (hcaptures : s'.captures = s.captures)
    (hrun : s'.running = true → s.running = true)
    (hdecodeType : s'.decodeType = s.decodeType) (hrate : s'.sampleRate = s.sampleRate)
    (hrecord : ∀ r ∈ s'.record, r ∈ s.record) : s'.Tuned := by
  have hsend : ∀ t, s'.MaySend t → s.MaySend t := fun t ht =>
    CapturePc.MaySend.mono (by rwa [MaySend, hcaptures] at ht) hrun
  refine ⟨fun hnone => ?_, fun j f hj => ?_, ?_, fun huse r hr => ?_⟩
  · rw [hrate, hdecodeType]
    refine h.rate fun j f hj => ?_
    have hij : j ≠ i := by
      rintro rfl
      exact hi f hj
    exact hnone j f (by rw [hcallers, Function.update_of_ne hij, hj])
  · rw [hcallers] at hj
    obtain ⟨hf, hquiet⟩ :=
      h.quiet j f (of_region_update (p := (· = CallerPc.settingRate f)) (hset f) hj).2
    exact ⟨hf.trans hdecodeType.symm, fun t ht => hquiet t (hsend t ht)⟩
  · rw [hcaptures, hdecodeType]
    exact h.source
  · rw [hdecodeType]
    rw [hcallers] at huse
    refine h.record (huse.imp (fun ⟨t, ht⟩ => ⟨t, hsend t ht⟩) fun ⟨j, hj⟩ => ⟨j, ?_⟩) r
      (hrecord r hr)
    exact (of_region_update (p := (· = CallerPc.launching)) hlaunching hj).2

/-- In the monitor nobody else sets a format, so the rate is the one that is set. -/
theorem Tuned.rate_of_holding (h : s.Tuned) (hheld : s.Held) {i : ℕ}
    (hi : (s.callers i).Holding) (hset : ∀ f, s.callers i ≠ .settingRate f) :
    s.sampleRate = s.decodeType := by
  refine h.rate fun j f hj => hset f ?_
  have hij : i = j := hheld.unique hi (by rw [hj]; trivial)
  rw [hij, hj]

/-- Where a thread may send nobody sets a format. -/
theorem Tuned.rate_of_maySend (h : s.Tuned) {t : ℕ} (ht : s.MaySend t) :
    s.sampleRate = s.decodeType :=
  h.rate fun j f hj => (h.quiet j f hj).2 t ht

theorem Tuned.nextStart (h : s.Tuned) {i : ℕ} (hi : (s.callers i).Starting) :
    (s.nextStart i).Tuned := by
  have hset : ∀ f, s.callers i ≠ .settingRate f := by
    intro f hf
    rw [hf] at hi
    exact hi
  unfold State.nextStart
  split_ifs
  · exact h.caller (q := .opening) rfl hset (by simp) (by simp) rfl id rfl rfl fun _ => id
  · exact h.caller (q := .idle) rfl hset (by simp) (by simp) rfl id rfl rfl fun _ => id

/-- A source opens in `startLocked`: at the rate that is set. -/
theorem Tuned.made (h : s.Tuned) (hheld : s.Held) {i : ℕ} (hpc : s.callers i = .making) :
    (s.make.setCaller i .launching).Tuned where
  rate _ := h.rate_of_holding hheld (i := i) (by rw [hpc]; trivial) (by simp [hpc])
  quiet j f hj := h.quiet j f (of_region_update (p := (· = CallerPc.settingRate f)) (by simp) hj).2
  source := h.source
  record _ r hr := by
    obtain rfl := Option.some.inj hr
    exact h.rate_of_holding hheld (i := i) (by rw [hpc]; trivial) (by simp [hpc])

theorem Tuned.launch (h : s.Tuned) (hheld : s.Held) {i : ℕ} (hpc : s.callers i = .launching)
    (ok : Bool) : (s.launch i ok).Tuned := by
  have hi : (s.callers i).Holding := by rw [hpc]; trivial
  have hrate := h.rate_of_holding hheld hi (by simp [hpc])
  -- nobody sets a format while `startLocked` has the monitor
  have hset : ∀ j f, Function.update s.callers i .idle j ≠ .settingRate f := fun j f hj =>
    have ⟨hne, hj⟩ := of_region_update (p := (· = CallerPc.settingRate f)) (by simp) hj
    hne (hheld.unique (by rw [hj]; trivial) hi)
  cases ok with
  | false =>
      refine ⟨fun _ => hrate, fun j f hj => absurd hj (hset j f), h.source, ?_⟩
      simp [State.launch]
  | true =>
      refine ⟨fun _ => hrate, fun j f hj => absurd hj (hset j f), fun t r hr => ?_,
        fun _ => h.record (.inr ⟨i, hpc⟩)⟩
      by_cases ht : t = s.threads
      · subst ht
        simp [State.launch, setCapture, leave, CapturePc.source] at hr
      · exact h.source t r (by simpa [State.launch, setCapture, leave, ht] using hr)

/-- A calling thread goes on outside the monitor. -/
theorem Tuned.outside (h : s.Tuned) {s' : State} {i : ℕ} {q : CallerPc}
    (hcallers : s'.callers = Function.update s.callers i q)
    (hi : ∀ f, s.callers i ≠ .settingRate f) (hq : ¬ q.Holding)
    (hcaptures : s'.captures = s.captures) (hrun : s'.running = true → s.running = true)
    (hdecodeType : s'.decodeType = s.decodeType) (hrate : s'.sampleRate = s.sampleRate)
    (hrecord : s'.record = s.record) : s'.Tuned := by
  refine h.caller hcallers hi ?_ ?_ hcaptures hrun hdecodeType hrate fun r hr => hrecord ▸ hr
  · rintro f rfl
    exact hq trivial
  · rintro rfl
    exact hq trivial

theorem Tuned.startStep (h : s.Tuned) {i : ℕ} (hpc : s.callers i = .start) :
    (s.startStep i).Tuned := by
  have hi : ∀ f, s.callers i ≠ .settingRate f := by simp [hpc]
  unfold State.startStep
  split_ifs
  · exact h.outside (q := .idle) rfl hi id rfl id rfl rfl rfl
  · cases s.captureThread with
    | none => exact h.outside (q := .startLocked) rfl hi id rfl id rfl rfl rfl
    | some t =>
        simp only
        split_ifs
        · exact h.outside (q := .join t) rfl hi id rfl id rfl rfl rfl
        · exact h.outside (q := .startLocked) rfl hi id rfl id rfl rfl rfl

/-- The first write of a change of format, with no thread that may send. -/
theorem tuned_of_change (hheld : s.Held) (hfree : s.monitor = none) (i : ℕ) (f : CaptureFormat)
    (hnone : ∀ t, ¬ s.MaySend t) :
    { s.setCaller i (.settingRate f) with decodeType := f, monitor := some i }.Tuned := by
  refine ⟨fun hset => ?_, fun j g hj => ?_, fun t r hr => ?_, fun huse => ?_⟩
  · exact absurd (Function.update_self ..) (hset i f)
  · by_cases hij : j = i
    · subst hij
      have hg : CallerPc.settingRate f = .settingRate g := by simpa [setCaller] using hj
      exact ⟨(CallerPc.settingRate.inj hg).symm, hnone⟩
    · have hj' : s.callers j = .settingRate g := by simpa [setCaller, hij] using hj
      exact absurd (by rw [hj']; trivial) (hheld.free hfree j)
  · exact absurd (CapturePc.maySend_of_source hr) (hnone t)
  · -- there is no thread to use a record
    rcases huse with ⟨t, ht⟩ | ⟨j, hj⟩
    · exact absurd ht (hnone t)
    · have hj' := (of_region_update (p := (· = CallerPc.launching)) (by simp) hj).2
      exact absurd (by rw [hj']; trivial) (hheld.free hfree j)

/-- The second write of a change of format. -/
theorem Tuned.setsRate (h : s.Tuned) {i : ℕ} {f : CaptureFormat}
    (hpc : s.callers i = .settingRate f) :
    { s.setCaller i (.settingChunk f) with sampleRate := f }.Tuned := by
  refine ⟨fun _ => (h.quiet i f hpc).1, fun j g hj => ?_, h.source,
    fun huse => h.record (huse.imp id fun ⟨j, hj⟩ => ⟨j, ?_⟩)⟩
  · exact h.quiet j g (of_region_update (p := (· = CallerPc.settingRate g)) (by simp) hj).2
  · exact (of_region_update (p := (· = CallerPc.launching)) (by simp) hj).2

/-- A calling thread, where the format changes quietly. -/
theorem Tuned.callerStep (h : s.Tuned) (hheld : s.Held) (i : ℕ) (ok : Bool)
    (he : s.ChangesQuietly (.caller i ok)) : (s.callerStep i ok).Tuned := by
  unfold State.callerStep
  cases hpc : s.callers i with
  | idle => exact h
  | start =>
      simp only
      split_ifs
      · exact h.startStep hpc
      · exact h
  | join t =>
      simp only
      split_ifs
      · exact h.outside (q := .idle) rfl (by simp [hpc]) id rfl id rfl rfl rfl
      · exact h.outside (q := .startLocked) rfl (by simp [hpc]) id rfl id rfl rfl rfl
  | startLocked =>
      simp only
      split_ifs
      · exact h.outside (q := .idle) rfl (by simp [hpc]) id rfl id rfl rfl rfl
      · exact h.caller (q := .opening) rfl (by simp [hpc]) (by simp) (by simp) rfl id rfl rfl
          fun _ => id
      · exact h
  | opening =>
      have hi : (s.callers i).Starting := by rw [hpc]; trivial
      cases ok with
      | true =>
          exact h.caller (q := .making) rfl (by simp [hpc]) (by simp) (by simp) rfl id rfl rfl
            (by simp [releaseRecord, setCaller])
      | false => exact h.nextStart hi
  | making =>
      have hi : (s.callers i).Starting := by rw [hpc]; trivial
      cases ok with
      | true => exact h.made hheld hpc
      | false =>
          exact Tuned.nextStart (s := s.releaseRecord)
            { h with record := by simp [releaseRecord] } hi
  | launching => exact h.launch hheld hpc ok
  | stop restart =>
      simp only
      split_ifs
      · exact h.outside (q := .start) rfl (by simp [hpc]) id rfl (by simp [setCaller]) rfl rfl rfl
      · exact h.outside (q := .idle) rfl (by simp [hpc]) id rfl (by simp [leave]) rfl rfl rfl
      · exact h
  | setDecodeType type =>
      simp only
      split_ifs with hfree
      · unfold State.setDecodeTypeStep
        cases hf : CaptureFormat.ofDecodeType type with
        | none => exact h.outside (q := .idle) rfl (by simp [hpc]) id rfl id rfl rfl rfl
        | some f =>
            simp only
            split_ifs with hsame
            · exact h.outside (q := .idle) rfl (by simp [hpc]) id rfl id rfl rfl rfl
            · refine tuned_of_change hheld hfree i f
                ((he type hpc hfree).resolve_left fun hall => hsame ?_)
              obtain ⟨hdecode, hrate⟩ := hall f hf
              refine ⟨?_, by rw [hrate]⟩
              rw [← hdecode]
              exact (CaptureFormat.decodeType_of_ofDecodeType hf).symm
      · exact h
  | settingRate f => exact h.setsRate hpc
  | settingChunk f =>
      have hleaves : ∀ q : CallerPc, ¬ q.Holding →
          { s.setCaller i q with chunkSamples := f, monitor := none }.Tuned := fun q hq =>
        h.caller (q := q) rfl (by simp [hpc]) (by rintro g rfl; exact hq trivial)
          (by rintro rfl; exact hq trivial) rfl id rfl rfl fun _ => id
      simp only
      split_ifs
      · exact hleaves (.stop true) id
      · exact { hleaves .idle id with }

/-- A capture thread that comes no closer to a sending, and makes its sources at the rate
that is set. -/
theorem Tuned.capture (h : s.Tuned) (hheld : s.Held) {s' : State} {t : ℕ} {q : CapturePc}
    (hcaptures : s'.captures = Function.update s.captures t q) (hcallers : s'.callers = s.callers)
    (hdecodeType : s'.decodeType = s.decodeType) (hrate : s'.sampleRate = s.sampleRate)
    (hrun : s'.running = true → s.running = true)
    (hsend : q.MaySend s.running → s.MaySend t) (hsource : ∀ r ∈ q.source, r.format = s.decodeType)
    (hrecord : ∀ r ∈ s'.record, r ∈ s.record ∨ r.format = s.sampleRate) : s'.Tuned := by
  have hback : ∀ t', s'.MaySend t' → s.MaySend t' := fun t' ht' => by
    rw [MaySend, hcaptures] at ht'
    exact of_region_update_of_imp hsend (ht'.mono hrun)
  refine ⟨fun hset => ?_, fun i f hi => ?_,
    fun t' r hr => ?_, fun huse r hr => ?_⟩
  · rw [hrate, hdecodeType]
    exact h.rate (hcallers ▸ hset)
  · obtain ⟨hf, hquiet⟩ := h.quiet i f (hcallers ▸ hi)
    exact ⟨hf.trans hdecodeType.symm, fun t' ht' => hquiet t' (hback t' ht')⟩
  · rw [hdecodeType]
    rw [hcaptures] at hr
    by_cases ht' : t' = t
    · subst ht'
      exact hsource r (by rwa [Function.update_self] at hr)
    · exact h.source t' r (by rwa [Function.update_of_ne ht'] at hr)
  · rw [hdecodeType]
    have huse : (∃ t, s.MaySend t) ∨ ∃ i, s.callers i = .launching :=
      huse.imp (fun ⟨t', ht'⟩ => ⟨t', hback t' ht'⟩) fun ⟨i, hi⟩ => ⟨i, hcallers ▸ hi⟩
    rcases hrecord r hr with hold | hnew
    · exact h.record huse r hold
    · refine hnew.trans ?_
      rcases huse with ⟨t', ht'⟩ | ⟨i, hi⟩
      · exact h.rate_of_maySend ht'
      · exact h.rate_of_holding hheld (i := i) (by rw [hi]; trivial) (by simp [hi])

/-- A capture thread goes on without a new source. -/
theorem Tuned.goesOn (h : s.Tuned) (hheld : s.Held) {s' : State} {t : ℕ} {q : CapturePc}
    (hcaptures : s'.captures = Function.update s.captures t q) (hcallers : s'.callers = s.callers)
    (hdecodeType : s'.decodeType = s.decodeType) (hrate : s'.sampleRate = s.sampleRate)
    (hrun : s'.running = true → s.running = true)
    (hsend : q.MaySend s.running → s.MaySend t) (hsource : q.source = none)
    (hrecord : ∀ r ∈ s'.record, r ∈ s.record) : s'.Tuned :=
  h.capture hheld hcaptures hcallers hdecodeType hrate hrun hsend (by simp [hsource])
    fun r hr => .inl (hrecord r hr)

theorem Tuned.nextSource (h : s.Tuned) (hheld : s.Held) {t : ℕ}
    (ht : s.running = true → s.MaySend t) : (s.nextSource t).Tuned := by
  refine h.goesOn hheld (q := if s.sourceIndex + 1 < sourceCount then .opening else .finish) rfl
    rfl rfl rfl id ?_ ?_ (fun _ => id)
  · split_ifs
    · exact ht
    · exact fun hfinish => hfinish.elim
  · split_ifs <;> rfl

/-- A capture thread. -/
theorem Tuned.captureStep (h : s.Tuned) (hheld : s.Held) (t : ℕ) (ok : Bool) :
    (s.captureStep t ok).Tuned := by
  have hsends : ∀ q, s.captures t = q → q.MaySend s.running → s.MaySend t := by
    rintro q heq hq
    rwa [MaySend, heq]
  unfold State.captureStep
  cases hpc : s.captures t with
  | unborn | reading r | dead => exact h
  | begin =>
      exact h.goesOn hheld (q := .check) rfl rfl rfl rfl id (hsends .begin hpc) rfl (fun _ => id)
  | check =>
      simp only
      split_ifs with hrun
      · exact h.goesOn hheld (q := .load) rfl rfl rfl rfl id (fun _ => hsends .check hpc hrun) rfl
          (fun _ => id)
      · exact h.goesOn hheld (q := .finish) rfl rfl rfl rfl id False.elim rfl (fun _ => id)
  | load =>
      cases hr : s.record with
      | none => exact h.goesOn hheld (q := .finish) rfl rfl rfl rfl id False.elim rfl (fun _ => id)
      | some r =>
          have ht : s.MaySend t := hsends .load hpc trivial
          refine h.capture hheld (q := .reading r) rfl rfl rfl rfl id (fun _ => ht) ?_
            (fun _ => .inl)
          rintro r' ⟨⟩
          exact h.record (.inl ⟨t, ht⟩) r hr
  | switching =>
      simp only
      split_ifs
      · exact h.nextSource hheld (hsends .switching hpc)
      · exact h.goesOn hheld (q := .finish) rfl rfl rfl rfl id False.elim rfl (fun _ => id)
  | opening =>
      cases ok with
      | true =>
          exact h.goesOn hheld (q := .making) rfl rfl rfl rfl id (hsends .opening hpc) rfl
            (by simp [releaseRecord, setCapture])
      | false => exact h.nextSource hheld (hsends .opening hpc)
  | making =>
      cases ok with
      | true =>
          refine h.capture hheld (q := .check) rfl rfl rfl rfl id (hsends .making hpc)
            (by simp [CapturePc.source]) ?_
          rintro r ⟨⟩
          exact .inr rfl
      | false =>
          exact Tuned.nextSource (s := s.releaseRecord)
            { h with record := by simp [releaseRecord] } hheld (hsends .making hpc)
  | sending r length =>
      refine h.goesOn hheld (q := if ok then .check else .finish) rfl rfl rfl rfl id
        (fun _ => hsends (.sending r length) hpc trivial) ?_ (fun _ => id)
      split_ifs <;> rfl
  | finish =>
      simp only
      split_ifs
      · exact h.goesOn hheld (q := .ended) rfl rfl rfl rfl (by simp) False.elim rfl (by simp)
      · exact h.goesOn hheld (q := .ended) rfl rfl rfl rfl id False.elim rfl (fun _ => id)
      · exact h
  | ended => exact h.goesOn hheld (q := .dead) rfl rfl rfl rfl id False.elim rfl (fun _ => id)

theorem Tuned.readStep (h : s.Tuned) (hheld : s.Held) (t : ℕ) (result : Option ℤ) (peak : ℕ) :
    (s.readStep t result peak).Tuned := by
  unfold State.readStep
  cases hpc : s.captures t with
  | reading r =>
      have ht : s.MaySend t := by rw [MaySend, hpc]; trivial
      have hr : r.format = s.decodeType := h.source t r (by rw [hpc]; rfl)
      have hsending : ∀ length, ∀ r' ∈ (CapturePc.sending r length).source,
          r'.format = s.decodeType := by
        rintro length r' ⟨⟩
        exact hr
      cases result with
      | none =>
          exact h.goesOn hheld (q := .finish) rfl rfl rfl rfl id (fun _ => ht) rfl (fun _ => id)
      | some n =>
          simp only
          split_ifs
          · exact h.goesOn hheld (q := .finish) rfl rfl rfl rfl id (fun _ => ht) rfl (fun _ => id)
          · exact h.goesOn hheld (q := .check) rfl rfl rfl rfl id (fun _ => ht) rfl (fun _ => id)
          · unfold State.account
            simp only
            split_ifs
            · exact h.goesOn hheld (q := .switching) rfl rfl rfl rfl id (fun _ => ht) rfl
                (fun _ => id)
            · exact h.capture hheld (q := .sending r n) rfl rfl rfl rfl id (fun _ => ht)
                (hsending n) (fun _ => .inl)
            · exact h.capture hheld (q := .sending r n) rfl rfl rfl rfl id (fun _ => ht)
                (hsending n) (fun _ => .inl)
  | _ => exact h

/-- **Every event keeps the microphone tuned**, if a change of format is a quiet one. -/
theorem Tuned.step (h : s.Tuned) (hheld : s.Held) (e : Event) (he : s.ChangesQuietly e) :
    (s.step e).Tuned := by
  cases e with
  | call i c =>
      simp only [State.step]
      split_ifs with hidle
      · have hi : ∀ f, s.callers i ≠ .settingRate f := by simp [hidle]
        cases c with
        | start => exact h.outside (q := .start) rfl hi id rfl id rfl rfl rfl
        | stop => exact h.outside (q := .stop false) rfl hi id rfl id rfl rfl rfl
        | setDecodeType type =>
            exact h.outside (q := .setDecodeType type) rfl hi id rfl id rfl rfl rfl
      · exact h
  | caller i ok => exact h.callerStep hheld i ok he
  | capture t ok => exact h.captureStep hheld t ok
  | read t result peak => exact h.readStep hheld t result peak

/-- **When the labels are right.**  Over every interleaving of the capture threads with any
number of threads that call `setDecodeType`, `start` and `stop`: if the format changes only
where no capture thread may still send, every chunk carries the type of its rate. -/
theorem labelled_of_changesQuietly (es : List Event) (h : Along step ChangesQuietly new es) :
    Along step (fun s e => (s.step e).Labelled) new es := by
  refine h.imp_of_invariant (I := fun s => s.Held ∧ s.Tuned ∧ s.Labelled) ?_ ?_
    ⟨held_new, tuned_new, by simp [Labelled, new]⟩
  · rintro s e ⟨hheld, htuned, hlabelled⟩ he
    exact ⟨hheld.step e, htuned.step hheld e he, (hlabelled.step_iff e).2 (htuned.asRecorded e)⟩
  · rintro s e ⟨-, htuned, hlabelled⟩ -
    exact (hlabelled.step_iff e).2 (htuned.asRecorded e)

/-- The assistant listens and is stopped; its thread ends, the format of a telephone call is set,
and the call has a capture of its own. -/
def called : List Event :=
  [Event.call 0 .start] ++ List.replicate 5 (Event.caller 0 true) ++
    List.replicate 3 (Event.capture 0 true) ++ [Event.read 0 (some 640) 7, .capture 0 true] ++
    [Event.call 0 .stop, .caller 0 true] ++ List.replicate 3 (Event.capture 0 true) ++
    [Event.call 0 (.setDecodeType 3)] ++ List.replicate 3 (Event.caller 0 true) ++
    [Event.call 0 .start] ++ List.replicate 5 (Event.caller 0 true) ++
    List.replicate 3 (Event.capture 1 true) ++ [Event.read 1 (some 320) 9, .capture 1 true]

theorem labelled_of_changesQuietly_called :
    Along step (fun s e => (s.step e).Labelled) new called ∧
      (run step new called).sent = [⟨5, 640, 16000⟩, ⟨3, 320, 8000⟩] := by
  refine ⟨labelled_of_changesQuietly called ?_, by decide +kernel⟩
  -- the format is set when the first thread is dead and the second is not there yet
  have hquiet : ∀ t, ¬ (run step new (called.take 17)).MaySend t
    | 0 => id
    | _ + 1 => id
  exact ⟨trivial, nofun, nofun, nofun, nofun, nofun, trivial, trivial, trivial, trivial, trivial,
    trivial, nofun, trivial, trivial, trivial, trivial, fun _ _ _ => .inr hquiet, nofun, nofun,
    trivial, nofun, nofun, nofun, nofun, nofun, trivial, trivial, trivial, trivial, trivial,
    trivial⟩

/-- A `setDecodeType` between the reading of a chunk and its sending. -/
theorem not_labelled_changed :
    ¬ Along step (fun s e => (s.step e).Labelled) new
      ([Event.call 0 .start] ++ List.replicate 5 (Event.caller 0 true) ++
        List.replicate 3 (Event.capture 0 true) ++
        [Event.read 0 (some 640) 7, .call 0 (.setDecodeType 3), .caller 0 true,
          .capture 0 true]) := by
  decide

end State
end Capture
end App
end Carlinkit
