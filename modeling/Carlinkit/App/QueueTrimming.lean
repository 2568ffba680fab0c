/-
# How late the PCM in the queue can be

`CarlinkitAudioPlayer.offerPcm` trims the queue before it is full, and makes room when an
offer is refused, while callers of `offerControl` and the worker change the queue between
its steps.  `offerPcm_run` says what holds all the same: there are never more works with
PCM than the watermark, and what is dropped is PCM, and the oldest there is.

A chunk is refused after a second offer only, or when there was nothing to drop: `attempt`
keeps what an offer met.  That the queue is full of controls when a chunk is refused is
more than the code sees to (`refused_with_pcm`): it looks at the queue step by step.
-/

import Carlinkit.App.QueueMoves

namespace Carlinkit
namespace App
namespace Audio

open Framing Protocol Machine

/-- The item is PCM. -/
def Item.isPcm : Item → Bool
  | .pcm _ => true
  | .control _ => false

/-- A place in the queue is taken for the chunk already: it will not be the one too many. -/
def PcmPc.reserves : PcmPc → ℕ
  | .offer | .drop | .scan _ | .dropped _ | .again => 1
  | _ => 0

/-- How many works had been accepted when the iterator was made. -/
def PcmPc.seen : PcmPc → Option ℕ
  | .trimScan _ seen | .scan seen => some seen
  | _ => none

/-- The offer reserves a place for PCM. -/
def Offering.reserves : Option Offering → ℕ
  | some (.pcm _ pc) => pc.reserves
  | _ => 0

/-- The iterator of an offer of PCM. -/
def Offering.seen : Option Offering → Option ℕ
  | some (.pcm _ pc) => pc.seen
  | _ => none

namespace Buffers

/-- How many works with PCM are queued. -/
def pcmCount (b : Buffers) : ℕ := b.queue.countP fun w => w.item.isPcm

/-- The queue is in the order of its works, which were accepted; the works with PCM are few
enough for the offer `o`, and its iterator finds all of them. -/
structure Trimmed (b : Buffers) (o : Option Offering) : Prop where
  ordered : b.queue.Pairwise fun v w => v.id < w.id
  below : ∀ w ∈ b.queue, w.id < b.accepted
  count : b.pcmCount + Offering.reserves o ≤ audioQueueHighWatermark
  finds : ∀ w ∈ b.queue, w.item.isPcm → ∀ seen ∈ Offering.seen o, w.id < seen

/-- No PCM comes into the queue. -/
inductive Yields (b b' : Buffers) : Prop
  | less (queue : b'.queue.Sublist b.queue) (accepted : b'.accepted = b.accepted)
  | more (c : Control) (queue : b'.queue = b.queue ++ [⟨b.accepted, .control c⟩])
      (accepted : b'.accepted = b.accepted + 1)

variable {b b' : Buffers} {o u : Option Offering}

theorem trimmed_new : new.Trimmed none where
  ordered := .nil
  below _ h := absurd h List.not_mem_nil
  count := Nat.zero_le _
  finds _ h := absurd h List.not_mem_nil

theorem SameQueue.yields (h : b.SameQueue b') : b.Yields b' :=
  .less (h.queue ▸ List.Sublist.refl _) h.accepted

theorem yields_poll {item : Item} (h : b.poll = some (item, b')) : b.Yields b' := by
  obtain ⟨w, queue, hq, -, rfl⟩ := poll_eq_some h
  exact .less (hq ▸ List.sublist_cons_self ..) rfl

theorem yields_evict (b : Buffers) (w : Work) : b.Yields (b.evict w) :=
  .less List.erase_sublist rfl

theorem yields_accept (b : Buffers) (c : Control) : b.Yields (b.accept (.control c)) :=
  .more c rfl rfl

/-- No control brings PCM. -/
theorem yields_offerControl (b : Buffers) (c : Control) (missed : Bool) (pc : ControlPc) :
    b.Yields (b.offerControl c missed pc).1 := by
  have hrefl := (SameQueue.refl b).yields
  unfold offerControl
  cases pc with
  | drop n | discard => exact hrefl
  | scan n seen =>
      simp only
      cases b.oldestPcm seen missed with
      | none => exact .less (.refl _) rfl
      | some x => exact yields_evict b x.1
  | dropped n a | clearing n a => exact (sameQueue_recycle b a).yields
  | offer | last =>
      simp only
      split_ifs
      · exact yields_accept b c
      · exact hrefl
  | clear n =>
      simp only
      match hpoll : b.poll with
      | none => exact .less (.refl _) rfl
      | some (.pcm p, b') => exact yields_poll hpoll
      | some (.control d, b') => exact yields_poll hpoll

/-- What brings no PCM keeps the queue trimmed, for an offer that asks for no more. -/
theorem Trimmed.yields (h : b.Trimmed o) (hyields : b.Yields b')
    (hreserves : Offering.reserves u ≤ Offering.reserves o)
    (hseen : ∀ seen ∈ Offering.seen u, seen ∈ Offering.seen o ∨ seen = b.accepted) :
    b'.Trimmed u := by
  have hfinds : ∀ w ∈ b.queue, w.item.isPcm → ∀ seen ∈ Offering.seen u, w.id < seen := by
    intro w hw hpcm seen hmem
    rcases hseen seen hmem with hold | rfl
    · exact h.finds w hw hpcm seen hold
    · exact h.below w hw
  have hcount := h.count
  cases hyields with
  | less hqueue haccepted =>
      refine ⟨h.ordered.sublist hqueue, fun w hw => ?_, ?_, fun w hw => hfinds w (hqueue.subset hw)⟩
      · rw [haccepted]
        exact h.below w (hqueue.subset hw)
      · have hless : b'.pcmCount ≤ b.pcmCount := hqueue.countP_le
        omega
  | more c hqueue haccepted =>
      refine ⟨?_, fun w hw => ?_, ?_, fun w hw hpcm => ?_⟩
      · rw [hqueue, List.pairwise_append]
        refine ⟨h.ordered, List.pairwise_singleton .., fun v hv w hw => ?_⟩
        rw [List.mem_singleton.1 hw]
        exact h.below v hv
      · rw [hqueue, List.mem_append, List.mem_singleton] at hw
        rw [haccepted]
        rcases hw with hold | rfl
        · exact Nat.lt_succ_of_lt (h.below w hold)
        · exact Nat.lt_succ_self _
      · have hsame : b'.pcmCount = b.pcmCount := by
          simp [pcmCount, hqueue, Item.isPcm]
        omega
      · rw [hqueue, List.mem_append, List.mem_singleton] at hw
        rcases hw with hold | rfl
        · exact hfinds w hold hpcm
        · exact absurd hpcm Bool.false_ne_true

/-- A place can be reserved below the watermark. -/
theorem Trimmed.reserve (h : b.Trimmed o) (hcount : b.pcmCount < audioQueueHighWatermark)
    (p : Pcm) : b.Trimmed (some (.pcm p .offer)) :=
  ⟨h.ordered, h.below, hcount, fun _ _ _ _ hmem => by cases hmem⟩

/-- The chunk takes the place that is reserved. -/
theorem Trimmed.accept (h : b.Trimmed o) (hreserves : Offering.reserves o = 1) (p : Pcm) :
    (b.accept (.pcm p)).Trimmed none := by
  refine ⟨?_, fun w hw => ?_, ?_, fun _ _ _ _ hmem => by cases hmem⟩
  · rw [Buffers.accept, List.pairwise_append]
    refine ⟨h.ordered, List.pairwise_singleton .., fun v hv w hw => ?_⟩
    rw [List.mem_singleton.1 hw]
    exact h.below v hv
  · rcases List.mem_append.1 hw with hold | hnew
    · exact Nat.lt_succ_of_lt (h.below w hold)
    · rw [List.mem_singleton.1 hnew]
      exact Nat.lt_succ_self _
  · have hcount := h.count
    have hone : (b.accept (.pcm p)).pcmCount = b.pcmCount + 1 := by
      simp [pcmCount, Buffers.accept, Item.isPcm]
    rw [hone]
    rwa [hreserves] at hcount

theorem pcmCount_le_length (b : Buffers) : b.pcmCount ≤ b.queue.length := List.countP_le_length

/-- What `dropOldestPcm` finds is older than all other PCM. -/
theorem Trimmed.oldest (h : b.Trimmed o) {seen : ℕ} {missed : Bool} {w : Work} {q : Pcm}
    (hw : b.oldestPcm seen missed = some (w, q)) :
    w ∈ b.queue ∧ w.item.isPcm ∧ ∀ v ∈ b.queue, v.item.isPcm → v ≠ w → w.id < v.id := by
  obtain ⟨hmem, hitem⟩ := mem_of_oldestPcm hw
  refine ⟨hmem, by rw [hitem]; rfl, fun v hv hpcm hne => ?_⟩
  obtain ⟨l, u, m, hqueue, hfound, hbefore⟩ := List.findSome?_eq_some_iff.1 hw
  have hu : u = w ∧ (missed = false ∨ u.id < seen) := by
    cases hiu : u.item with
    | control c => simp [hiu] at hfound
    | pcm p =>
        simp only [hiu] at hfound
        split_ifs at hfound with hlate
        refine ⟨(Prod.mk.inj (Option.some.inj hfound)).1, ?_⟩
        cases missed with
        | false => exact .inl rfl
        | true => exact .inr (Nat.lt_of_not_le fun hle => hlate ⟨rfl, hle⟩)
  obtain ⟨rfl, hseen⟩ := hu
  have hordered := h.ordered
  rw [hqueue, List.pairwise_append, List.pairwise_cons] at hordered
  rw [hqueue, List.mem_append, List.mem_cons] at hv
  rcases hv with hv | rfl | hv
  · -- before it there is only PCM that came too late, but it is older still
    have hnone := hbefore v hv
    cases hiv : v.item with
    | control c => rw [hiv] at hpcm; exact absurd hpcm Bool.false_ne_true
    | pcm p =>
        have hlt : v.id < u.id := hordered.2.2 v hv u List.mem_cons_self
        rcases hseen with rfl | hseen
        · simp [hiv] at hnone
        · simp only [hiv, ite_eq_left_iff, reduceCtorEq, imp_false, not_not] at hnone
          omega
  · exact absurd rfl hne
  · exact hordered.2.1.1 v hv

/-- When the iterator of the offer finds nothing, there is no PCM. -/
theorem Trimmed.pcmCount_eq_zero (h : b.Trimmed o) {seen : ℕ} {missed : Bool}
    (hseen : seen ∈ Offering.seen o) (hnone : b.oldestPcm seen missed = none) :
    b.pcmCount = 0 := by
  refine List.countP_eq_zero.2 fun w hw hpcm => ?_
  have hlt := h.finds w hw hpcm seen hseen
  have hw := List.findSome?_eq_none_iff.1 hnone w hw
  cases hitem : w.item with
  | control c => rw [hitem] at hpcm; exact absurd hpcm Bool.false_ne_true
  | pcm p =>
      simp only [hitem, ite_eq_left_iff, reduceCtorEq, imp_false, not_not] at hw
      omega

/-- `offerPcm` keeps the queue trimmed. -/
theorem Trimmed.offerPcm {p : Pcm} {pc : PcmPc} (h : b.Trimmed (some (.pcm p pc)))
    (missed : Bool) : (b.offerPcm p missed pc).1.Trimmed
      ((b.offerPcm p missed pc).2.map (Offering.pcm p)) := by
  have hlength := b.pcmCount_le_length
  have hdrop : ∀ n, b.Yields (b.drop n) := fun n => .less (.refl _) rfl
  have hstay : ∀ {b' : Buffers} {k : PcmPc}, b.Yields b' → k.reserves ≤ pc.reserves →
      k.seen = none → b'.Trimmed (some (.pcm p k)) := fun hyields hreserves hseen =>
    h.yields hyields hreserves fun seen hmem => by
      rw [Offering.seen, hseen] at hmem
      cases hmem
  have hrefl := (SameQueue.refl b).yields
  unfold Buffers.offerPcm
  cases pc with
  | size =>
      simp only
      split_ifs with hhigh
      · exact hstay hrefl le_rfl rfl
      · exact h.reserve (by omega) p
  | trim n =>
      simp only
      split_ifs with htarget
      · exact hstay hrefl le_rfl rfl
      · have hdropped := h.yields (u := none) (hdrop n) (Nat.zero_le _) fun _ hmem => by cases hmem
        refine hdropped.reserve ?_ p
        show b.pcmCount < 12
        have hfew : b.queue.length ≤ 4 := Nat.le_of_not_lt htarget
        omega
  | trimDrop n =>
      exact h.yields hrefl le_rfl fun seen hmem => .inr (Option.mem_some_iff.1 hmem).symm
  | trimScan n seen =>
      simp only
      cases hw : b.oldestPcm seen missed with
      | some x => exact hstay (yields_evict b x.1) le_rfl rfl
      | none =>
          have hdropped := h.yields (u := none) (hdrop n) (Nat.zero_le _) fun _ hmem => by
            cases hmem
          refine hdropped.reserve ?_ p
          have hzero : (b.drop n).pcmCount = 0 := h.pcmCount_eq_zero rfl hw
          rw [hzero]
          decide
  | trimmed n a => exact hstay (sameQueue_recycle b a).yields le_rfl rfl
  | offer =>
      simp only
      split_ifs
      · exact h.accept rfl p
      · exact hstay hrefl le_rfl rfl
  | drop =>
      exact h.yields hrefl le_rfl fun seen hmem => .inr (Option.mem_some_iff.1 hmem).symm
  | scan seen =>
      simp only
      cases b.oldestPcm seen missed with
      | some x => exact hstay (yields_evict b x.1) le_rfl rfl
      | none => exact hstay hrefl (Nat.zero_le _) rfl
  | dropped a => exact hstay (sameQueue_recycle b a).yields le_rfl rfl
  | again =>
      have hdropped : (b.drop 1).Trimmed (some (.pcm p .again)) := hstay (hdrop 1) le_rfl rfl
      simp only
      split_ifs
      · exact hdropped.accept rfl p
      · exact hstay (hdrop 1) (Nat.zero_le _) rfl
  | refuse =>
      have hrecycled := hstay (sameQueue_recycle b p.array).yields (k := .refuse) le_rfl rfl
      exact hrecycled.yields (.less (.refl _) rfl) le_rfl fun seen hmem => by cases hmem

/-- `offerPcm` drops the oldest PCM, if anything. -/
theorem Trimmed.spares (h : b.Trimmed o) (p : Pcm) (missed : Bool) (pc : PcmPc) {w : Work}
    (hw : w ∈ b.queue) (hgone : w ∉ (b.offerPcm p missed pc).1.queue) :
    w.item.isPcm ∧ ∀ v ∈ (b.offerPcm p missed pc).1.queue, v.item.isPcm → w.id < v.id := by
  have hevict : ∀ {seen x}, b.oldestPcm seen missed = some x → w ∉ (b.evict x.1).queue →
      w.item.isPcm ∧ ∀ v ∈ (b.evict x.1).queue, v.item.isPcm → w.id < v.id := by
    intro seen x hx hout
    obtain ⟨hmem, hpcm, holder⟩ := h.oldest hx
    have heq : w = x.1 := by
      by_contra hne
      exact hout ((List.mem_erase_of_ne hne).2 hw)
    have hnodup : b.queue.Nodup := h.ordered.imp fun hlt heq => absurd (heq ▸ hlt) (lt_irrefl _)
    refine ⟨heq ▸ hpcm, fun v hv hvpcm => heq ▸ holder v (List.mem_of_mem_erase hv) hvpcm ?_⟩
    rintro rfl
    exact hnodup.not_mem_erase hv
  unfold Buffers.offerPcm at hgone ⊢
  cases pc with
  | trimScan n seen | scan seen =>
      simp only at hgone ⊢
      cases hx : b.oldestPcm seen missed with
      | none =>
          rw [hx] at hgone
          exact absurd hw hgone
      | some x =>
          rw [hx] at hgone
          exact hevict hx hgone
  | size | trimDrop n | drop => exact absurd hw hgone
  | trim n =>
      simp only at hgone
      split_ifs at hgone <;> exact absurd hw hgone
  | trimmed n a | dropped a | refuse =>
      exact absurd hw ((sameQueue_recycle b _).queue ▸ hgone)
  | offer | again =>
      simp only at hgone
      split_ifs at hgone
      · exact absurd (List.mem_append_left _ hw) hgone
      · exact absurd hw hgone

end Buffers

/-! ### The run -/

/-- What an offer of PCM met so far. -/
inductive Attempt
  /-- `offer` found no room. -/
  | full
  /-- A work was removed to make room. -/
  | dropped
  /-- There was no PCM to remove. -/
  | noPcm
deriving DecidableEq, Repr

namespace State

/-- What the offer of the read thread met, since the test of the watermark and the trimming. -/
def attempt (s : State) (met : List Attempt) : Event → List Attempt
  | .read missed =>
      match s.reader with
      | .pcm _ .size => []
      | .pcm _ .offer | .pcm _ .again =>
          if s.buffers.HasRoom then met else met ++ [.full]
      | .pcm _ (.scan _) =>
          if (s.readStep missed).buffers.queue.length < s.buffers.queue.length then
            met ++ [.dropped]
          else if s.buffers.pcmCount = 0 then met ++ [.noPcm]
          else met
      | _ => met
  | _ => met

/-- What `offerPcm` removes in this step is PCM, and older than all PCM that it leaves. -/
def Spares (s : State) (e : Event) : Prop :=
  ∀ missed p pc, e = .read missed → s.reader = .pcm p pc →
    ∀ w ∈ s.buffers.queue, w ∉ (s.step e).buffers.queue →
      w.item.isPcm ∧ ∀ v ∈ (s.step e).buffers.queue, v.item.isPcm → w.id < v.id

/-- A chunk that is refused was offered to a full queue, and then there was no PCM to drop, or
one work was dropped and the queue was full again. -/
def Refuses (s : State) (met : List Attempt) : Prop :=
  ∀ p, s.reader = .pcm p .refuse → met = [.full, .noPcm] ∨ met = [.full, .dropped, .full]

variable {s : State}

/-- Only the read thread offers PCM. -/
theorem control_of_offering {th : Thread} {o : Offering} (h : s.offering th = some o)
    (hth : th ≠ .reader) : ∃ c pc, o = .control c pc := by
  cases th with
  | reader => exact absurd rfl hth
  | worker t => cases h
  | caller i =>
      simp only [offering] at h
      cases hpc : s.callers i <;> rw [hpc] at h <;> cases h
      exact ⟨_, _, rfl⟩

/-- What holds of the queue and the offer of the read thread is kept by whatever moves. -/
theorem trimmed_step (h : s.buffers.Trimmed (s.offering .reader)) (e : Event) :
    (s.step e).buffers.Trimmed ((s.step e).offering .reader) := by
  cases s.queueMove_step e with
  | keep same hoffering =>
      rw [hoffering]
      exact h.yields same.yields le_rfl fun _ => .inl
  | enter o first serves outside same hoffering =>
      rw [hoffering]
      by_cases hth : e.thread = .reader
      · rw [hth] at outside ⊢
        rw [Function.update_self]
        rw [outside] at h
        cases first with
        | pcm p => exact h.yields same.yields le_rfl fun _ hmem => by cases hmem
        | control c purgePcm => exact h.yields same.yields le_rfl fun _ hmem => by cases hmem
      · rw [Function.update_of_ne (Ne.symm hth)]
        exact h.yields same.yields le_rfl fun _ => .inl
  | serve o missed serves inside hbuffers hoffering =>
      rw [hbuffers, hoffering]
      by_cases hth : e.thread = .reader
      · rw [hth] at inside ⊢
        rw [Function.update_self]
        rw [inside] at h
        cases o with
        | pcm p pc => exact h.offerPcm missed
        | control c pc =>
            refine h.yields (Buffers.yields_offerControl ..) ?_ fun _ hmem => ?_
            · simp only [Buffers.serve]
              cases (s.buffers.offerControl c missed pc).2 <;> exact le_rfl
            · simp only [Buffers.serve] at hmem
              cases hnext : (s.buffers.offerControl c missed pc).2 <;> rw [hnext] at hmem <;>
                cases hmem
      · rw [Function.update_of_ne (Ne.symm hth)]
        obtain ⟨c, pc, rfl⟩ := control_of_offering inside hth
        exact h.yields (Buffers.yields_offerControl ..) le_rfl fun _ => .inl
  | poll t ok item moves polled hoffering =>
      rw [hoffering]
      exact h.yields (Buffers.yields_poll polled) le_rfl fun _ => .inl
  | clear i ok missed item moves clearing polled hoffering =>
      rw [hoffering]
      exact h.yields (Buffers.yields_poll polled) le_rfl fun _ => .inl
  | reset i ok missed moves starts hbuffers hoffering =>
      rw [hoffering, hbuffers]
      exact h.yields (.less (.refl _) rfl) le_rfl fun _ => .inl

/-- A step of the read thread in `offerPcm`. -/
theorem step_read_pcm {p : Pcm} {pc : PcmPc} (hpc : s.reader = .pcm p pc) (missed : Bool) :
    s.step (.read missed) =
      { s with
        buffers := (s.buffers.offerPcm p missed pc).1
        reader := (s.buffers.offerPcm p missed pc).2.elim .idle (.pcm p) } := by
  rw [step, readStep, hpc]

theorem spares_of_trimmed (h : s.buffers.Trimmed (s.offering .reader)) (e : Event) :
    s.Spares e := by
  rintro missed p pc rfl hpc w hw hgone
  rw [step_read_pcm hpc] at hgone ⊢
  exact h.spares p missed pc hw hgone

/-- What an offer has met when it is at a place. -/
def Met (met : List Attempt) : Option Offering → Prop
  | some (.pcm _ pc) =>
      match pc with
      | .size => True
      | .trim _ | .trimDrop _ | .trimScan .. | .trimmed .. | .offer => met = []
      | .drop | .scan _ => met = [.full]
      | .dropped _ | .again => met = [.full, .dropped]
      | .refuse => met = [.full, .noPcm] ∨ met = [.full, .dropped, .full]
  | _ => True

theorem met_of_not_pcm {met : List Attempt} {o : Option Offering}
    (h : ∀ p pc, o ≠ some (.pcm p pc)) : Met met o := by
  match o with
  | none => trivial
  | some (.control c pc) => trivial
  | some (.pcm p pc) => exact absurd rfl (h p pc)

/-- A step outside of `offerPcm` leads to its start at most. -/
theorem met_enter {met : List Attempt} (h : ∀ p pc, s.offering .reader ≠ some (.pcm p pc))
    (e : Event) : Met met ((s.step e).offering .reader) := by
  have hsame : Met met (s.offering .reader) := met_of_not_pcm h
  cases s.queueMove_step e with
  | keep same hoffering => rwa [hoffering]
  | enter o first serves outside same hoffering =>
      rw [hoffering]
      by_cases hth : e.thread = .reader
      · rw [hth, Function.update_self]
        cases first <;> trivial
      · rwa [Function.update_of_ne (Ne.symm hth)]
  | serve o missed serves inside hbuffers hoffering =>
      rw [hoffering]
      by_cases hth : e.thread = .reader
      · rw [hth, Function.update_self]
        rw [hth] at inside
        cases o with
        | pcm p pc => exact absurd inside (h p pc)
        | control c pc =>
            simp only [Buffers.serve]
            cases (s.buffers.offerControl c missed pc).2 <;> trivial
      · rwa [Function.update_of_ne (Ne.symm hth)]
  | poll t ok item moves polled hoffering => rwa [hoffering]
  | clear i ok missed item moves clearing polled hoffering => rwa [hoffering]
  | reset i ok missed moves starts hbuffers hoffering => rwa [hoffering]

/-- `attempt` keeps what the offer met, step by step. -/
theorem met_offerPcm {met : List Attempt} {p : Pcm} {pc : PcmPc} (hpc : s.reader = .pcm p pc)
    (h : s.buffers.Trimmed (some (.pcm p pc))) (hmet : Met met (some (.pcm p pc)))
    (missed : Bool) :
    Met (s.attempt met (.read missed)) ((s.buffers.offerPcm p missed pc).2.map (.pcm p)) := by
  have hstep : (s.readStep missed).buffers = (s.buffers.offerPcm p missed pc).1 :=
    congrArg State.buffers (step_read_pcm hpc missed)
  cases pc with
  | size =>
      simp only [attempt, hpc, Buffers.offerPcm]
      split_ifs <;> rfl
  | trim n =>
      simp only [attempt, hpc, Buffers.offerPcm]
      split_ifs <;> exact hmet
  | trimDrop n | trimmed n a | drop | dropped a =>
      simp only [attempt, hpc, Buffers.offerPcm]
      exact hmet
  | trimScan n seen =>
      simp only [attempt, hpc, Buffers.offerPcm]
      cases s.buffers.oldestPcm seen missed <;> exact hmet
  | offer | again =>
      have hold : met = _ := hmet
      simp only [attempt, hpc, Buffers.offerPcm]
      split_ifs
      · trivial
      · rw [hold]
        first | rfl | exact .inr rfl
  | scan seen =>
      have hold : met = [.full] := hmet
      simp only [attempt, hpc, hstep, Buffers.offerPcm]
      cases hw : s.buffers.oldestPcm seen missed with
      | some x =>
          have hmem := (h.oldest hw).1
          have hless : (s.buffers.evict x.1).queue.length < s.buffers.queue.length := by
            rw [Buffers.evict, List.length_erase_of_mem hmem]
            have hpos := List.length_pos_of_mem hmem
            omega
          simp only [if_pos hless]
          rw [hold]
          rfl
      | none =>
          have hzero : s.buffers.pcmCount = 0 := h.pcmCount_eq_zero rfl hw
          simp only [lt_irrefl, if_false, if_pos hzero]
          rw [hold]
          exact .inl rfl
  | refuse => trivial

theorem met_step {met : List Attempt} (h : s.buffers.Trimmed (s.offering .reader))
    (hmet : Met met (s.offering .reader)) (e : Event) :
    Met (s.attempt met e) ((s.step e).offering .reader) := by
  by_cases hpcm : ∃ p pc, s.reader = .pcm p pc
  · obtain ⟨p, pc, hpc⟩ := hpcm
    have hoffer : s.offering .reader = some (.pcm p pc) := by rw [offering, hpc]; rfl
    rw [hoffer] at h hmet
    cases e with
    | read missed =>
        have hnext : (s.step (.read missed)).offering .reader =
            (s.buffers.offerPcm p missed pc).2.map (.pcm p) := by
          rw [step_read_pcm hpc]
          cases hnext : (s.buffers.offerPcm p missed pc).2 <;> simp [offering] <;> rfl
        rw [hnext]
        exact met_offerPcm hpc h hmet missed
    | receive payload => simpa [step, hpc, hoffer, attempt] using hmet
    | onAudio m => cases m <;> simpa [step, hpc, hoffer, attempt] using hmet
    | call | caller | worker | throw =>
        rw [offering_of_ne .reader (by simp [Event.thread]), hoffer]
        exact hmet
  · refine met_enter (fun p pc hoffer => hpcm ⟨p, pc, ?_⟩) e
    simp only [offering] at hoffer
    cases hr : s.reader <;> rw [hr] at hoffer <;> cases hoffer
    rfl

/-- **What bounds the latency of the audio.**  In every run there are at most twelve works with
PCM in the queue; what `offerPcm` removes is PCM, and older than all that it leaves; and a
chunk is refused only after an offer found the queue full, and then there was no PCM to drop
or, after one work was dropped, the queue was full again. -/
theorem offerPcm_run (es : List Event) :
    (run step new es).buffers.pcmCount ≤ audioQueueHighWatermark ∧ Along step Spares new es ∧
      Along (watched step attempt) (fun x _ => x.1.Refuses x.2) (new, []) es := by
  have hnew : new.buffers.Trimmed (new.offering .reader) := Buffers.trimmed_new
  have hmet : Met [] (new.offering .reader) := trivial
  refine ⟨?_, ?_, ?_⟩
  · have hend := run_invariant (I := fun s : State => s.buffers.Trimmed (s.offering .reader))
      (fun s e h => trimmed_step h e) hnew es
    exact (Nat.le_add_right ..).trans hend.count
  · exact along_of_invariant (I := fun s : State => s.buffers.Trimmed (s.offering .reader))
      (fun s e h => trimmed_step h e) (fun s e h => spares_of_trimmed h e) hnew es
  · refine along_of_invariant
      (I := fun x => x.1.buffers.Trimmed (x.1.offering .reader) ∧ Met x.2 (x.1.offering .reader))
      (fun x e h => ⟨trimmed_step h.1 e, met_step h.1 h.2 e⟩) (fun x e h p hpc => ?_)
      ⟨hnew, hmet⟩ es
    have hplace := h.2
    rw [offering, hpc] at hplace
    exact hplace

/-- Two chunks and nine commands are queued, and a third chunk is below the watermark.  Then five
mute events fill the queue; the offer drops the oldest chunk, and a sixth takes the place. -/
def crowded : List Event :=
  startedBy 0 ++ [Event.receive (some [1, 2, 3, 4])] ++ heard .pcm 6 ++ heard .pcm 6 ++
    (List.replicate 9 (heard .command 2)).flatten ++ heard .pcm 5 ++
    (List.replicate 5 (mutedBy 1 false 3)).flatten ++ List.replicate 4 (Event.read false) ++
    mutedBy 1 false 3 ++ [Event.read false]

/-- A chunk can be refused while the queue has PCM. -/
theorem refused_with_pcm :
    ¬ ∀ es p, (run step new es).reader = .pcm p .refuse →
      ¬ (run step new es).buffers.HasRoom ∧ (run step new es).buffers.pcmCount = 0 := by
  intro h
  have hrefused : (run step new crowded).reader = .pcm ⟨4, 2, 4, [1, 2, 3, 4]⟩ .refuse ∧
      (run step new crowded).buffers.pcmCount = 1 := by decide +kernel
  have hzero := (h crowded _ hrefused.1).2
  rw [hrefused.2] at hzero
  exact Nat.one_ne_zero hzero

end State
end Audio
end App
end Carlinkit
