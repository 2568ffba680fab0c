/-
# The owner of a PCM array

Arrays are recycled by the worker, by `onAudio` when it trims the queue or is refused, by
`setMuted` when it purges the queue, and by everyone who clears it; all of them race over
the same queue.  `owned_run` says that each array has one owner all the same, and that what the
worker writes is the slice of the payload as it was at the call of `onAudio`.

The invariant is `Kept`.  Its second half follows from its first: the only writer is
`onAudio`, in an array that nobody else has.  Each step of a thread is one that hands
arrays on (`Passes`), but for those of `onAudio` itself.
-/

import Carlinkit.App.AudioWorker
import Carlinkit.App.PcmBuffers

namespace Carlinkit
namespace App
namespace Audio

open Framing Protocol Machine

namespace State

/-- The arrays that a thread has. -/
def hands (s : State) : Thread → List ℕ
  | .reader => s.reader.arrays
  | .caller i => (s.callers i).arrays
  | .worker t => (s.workers t).arrays

/-- The work is queued, at a worker, or on its way into the queue. -/
def Carries (s : State) (p : Pcm) : Prop :=
  (∃ w ∈ s.buffers.queue, w.item = .pcm p) ∨ (∃ t, (s.workers t).item = some p) ∨
    ∃ pc, s.reader = .pcm p pc

variable {s s' : State}

theorem hands_reader (s : State) (buffers : Buffers) (q : ReaderPc) :
    { s with buffers := buffers, reader := q }.hands =
      Function.update s.hands .reader q.arrays := by
  funext th
  cases th <;> simp [hands]

theorem hands_worker {t : ℕ} {q : WorkerPc} (hworkers : s'.workers = Function.update s.workers t q)
    (hcallers : s'.callers = s.callers) (hreader : s'.reader = s.reader) :
    s'.hands = Function.update s.hands (.worker t) q.arrays := by
  funext th
  cases th with
  | reader => simp [hands, hreader]
  | caller i => simp [hands, hcallers]
  | worker t' => by_cases ht : t' = t <;> simp [hands, hworkers, ht]

/-- An array that goes with a work is in the queue or in a hand. -/
theorem mem_places_of_carries {p : Pcm} (h : s.Carries p) :
    ∃ k, p.array ∈ Sum.elim s.buffers.shelf s.hands k ∧
      ∀ m said a, s.reader = .copy m said a → k ≠ .inr .reader := by
  rcases h with ⟨w, hw, hitem⟩ | ⟨t, hitem⟩ | ⟨pc, hpc⟩
  · refine ⟨.inl .queue, List.mem_flatMap.2 ⟨w, hw, ?_⟩, fun _ _ _ _ => nofun⟩
    simp [hitem, Item.arrays]
  · refine ⟨.inr (.worker t), ?_, fun _ _ _ _ => by simp⟩
    simp [hands, WorkerPc.arrays, hitem]
  · refine ⟨.inr .reader, ?_, fun m said a ha => ?_⟩
    · simp [hands, hpc, ReaderPc.arrays]
    · simp [hpc] at ha

/-- From `s` to `s'` the arrays were handed on, and their bytes and the payload are as they
were. -/
structure Passes (s s' : State) : Prop where
  spread : s.buffers.Spread s.hands → s'.buffers.Spread s'.hands
  carries : ∀ p, s'.Carries p → s.Carries p
  arrays : s'.buffers.arrays = s.buffers.arrays
  lost : s'.buffers.lost = s.buffers.lost ∨ audioQueueCapacity ≤ s.buffers.pool.length
  reader : s'.reader = s.reader
  payload : s'.payload = s.payload

/-- A calling thread moves. -/
theorem passes_caller {i : ℕ} {q : CallerPc} (hcallers : s'.callers = Function.update s.callers i q)
    (hworkers : ∀ t, (s'.workers t).item = (s.workers t).item) (hreader : s'.reader = s.reader)
    (hpayload : s'.payload = s.payload) (hfollows : s.buffers.Follows s'.buffers none)
    (hspread : s.buffers.Spread s.hands →
      s'.buffers.Spread (Function.update s.hands (.caller i) q.arrays)) : s.Passes s' where
  spread h := by
    have hhands : s'.hands = Function.update s.hands (.caller i) q.arrays := by
      funext th
      cases th with
      | reader => simp [hands, hreader]
      | caller j => by_cases hj : j = i <;> simp [hands, hcallers, hj]
      | worker t => simp [hands, WorkerPc.arrays, hworkers]
    rw [hhands]
    exact hspread h
  carries p hp := by
    rcases hp with ⟨w, hw, hitem⟩ | ⟨t, hitem⟩ | ⟨pc, hpc⟩
    · rcases hfollows.queue w hw with hold | hnew
      · exact .inl ⟨w, hold, hitem⟩
      · exact absurd (hnew p hitem) (by simp)
    · exact .inr (.inl ⟨t, hworkers t ▸ hitem⟩)
    · exact .inr (.inr ⟨pc, hreader ▸ hpc⟩)
  arrays := hfollows.arrays
  lost := hfollows.lost
  reader := hreader
  payload := hpayload

/-- A calling thread moves with what it has. -/
theorem passes_caller_keep {i : ℕ} {q : CallerPc}
    (hcallers : s'.callers = Function.update s.callers i q) (hworkers : s'.workers = s.workers)
    (hreader : s'.reader = s.reader) (hpayload : s'.payload = s.payload)
    (hbuffers : s'.buffers = s.buffers) (hhand : (s.callers i).arrays = q.arrays) :
    s.Passes s' := by
  refine passes_caller hcallers (fun t => by rw [hworkers]) hreader hpayload ?_ fun h => ?_
  · rw [hbuffers]
    exact .refl _ _
  · rw [hbuffers]
    exact h.keep hhand

/-- `clearQueueAndRecycle` of a calling thread. -/
theorem passes_clearStep {i : ℕ} {again : CallerPc} {recycle : ℕ → CallerPc} {done : CallerPc}
    (hpc : (s.callers i).arrays = []) (hagain : again.arrays = [])
    (hrecycle : ∀ a, (recycle a).arrays = [a]) (hdone : done.arrays = []) :
    s.Passes (s.clearStep i again recycle done) := by
  unfold clearStep
  match hpoll : s.buffers.poll with
  | none => exact passes_caller_keep rfl rfl rfl rfl rfl (hpc.trans hdone.symm)
  | some (.pcm p, b') =>
      refine passes_caller rfl (fun _ => rfl) rfl rfl (Buffers.follows_poll hpoll _).1 fun h => ?_
      exact h.poll hpoll (by simp [hands, hpc, hrecycle, Item.arrays])
  | some (.control c, b') =>
      refine passes_caller rfl (fun _ => rfl) rfl rfl (Buffers.follows_poll hpoll _).1 fun h => ?_
      exact h.poll hpoll (by simp [hands, hpc, hagain, Item.arrays])

/-- `recyclePcmBuffer` of a calling thread. -/
theorem passes_recycle {i a : ℕ} {q : CallerPc} (hpc : (s.callers i).arrays = [a])
    (hq : q.arrays = []) :
    s.Passes ({ s with buffers := s.buffers.recycle a }.setCaller i q) :=
  passes_caller rfl (fun _ => rfl) rfl rfl (Buffers.follows_recycle ..) fun h =>
    h.recycle (by simp [hands, hpc, hq])

/-- `start`, `stop` and `setMuted`. -/
theorem passes_callerStep (hsolo : s.Solo) (i : ℕ) (ok missed : Bool) :
    s.Passes (s.callerStep i ok missed) := by
  unfold callerStep
  have hrefl : s.Passes s := ⟨id, fun _ => id, rfl, .inl rfl, rfl, rfl⟩
  have hkeep : ∀ {pc}, s.callers i = pc → ∀ {q : CallerPc}, pc.arrays = q.arrays →
      (s.callers i).arrays = q.arrays := fun hpc _ hq => by rw [hpc, hq]
  cases hpc : s.callers i with
  | idle => exact hrefl
  | start | startWait =>
      simp only
      split_ifs
      · exact passes_caller_keep rfl rfl rfl rfl rfl (hkeep hpc rfl)
      · exact passes_caller_keep rfl rfl rfl rfl rfl (hkeep hpc rfl)
      · exact hrefl
  | startTest =>
      simp only
      split
      · refine passes_caller_keep rfl rfl rfl rfl rfl (hkeep hpc ?_)
        cases ok <;> rfl
      · exact passes_caller_keep rfl rfl rfl rfl rfl (hkeep hpc rfl)
  | startClear | stopClear => exact passes_clearStep (by rw [hpc]; rfl) rfl (fun _ => rfl) rfl
  | startRecycle a | stopRecycle a => exact passes_recycle (by rw [hpc]; rfl) rfl
  | startReset =>
      exact passes_caller rfl (fun _ => rfl) rfl rfl ⟨rfl, fun _ => .inl, .inl rfl⟩ fun h =>
        h.keep (hkeep hpc rfl)
  | startRunning | startThread | join t | mute muted =>
      exact passes_caller_keep rfl rfl rfl rfl rfl (hkeep hpc rfl)
  | startLaunch t =>
      cases ok with
      | false => exact passes_caller_keep rfl rfl rfl rfl rfl (hkeep hpc rfl)
      | true =>
          -- the worker that starts has nothing, as it was not in `run`
          have hout : ¬ (s.workers t).InRun := hsolo.alone i (by rw [hpc]; trivial) t
          have hnone : (s.workers t).item = none := by
            cases hw : s.workers t <;> first | rfl | exact absurd (by rw [hw]; trivial) hout
          refine passes_caller rfl (fun t' => ?_) rfl rfl (.refl _ _) fun h =>
            h.keep (hkeep hpc rfl)
          by_cases ht : t' = t
          · subst ht
            rw [hnone]
            exact congrArg WorkerPc.item (Function.update_self t' WorkerPc.checkRunning s.workers)
          · exact congrArg WorkerPc.item (Function.update_of_ne ht ..)
  | stop | settle t =>
      simp only
      split_ifs
      · exact passes_caller_keep rfl rfl rfl rfl rfl (hkeep hpc rfl)
      · exact passes_caller_keep rfl rfl rfl rfl rfl (hkeep hpc rfl)
      · exact hrefl
  | stopInterrupt =>
      cases s.audioThread with
      | none => exact passes_caller_keep rfl rfl rfl rfl rfl (hkeep hpc rfl)
      | some t => exact passes_caller_keep rfl rfl rfl rfl rfl (hkeep hpc rfl)
  | muteCheck muted =>
      refine passes_caller_keep rfl rfl rfl rfl rfl (hkeep hpc ?_)
      cases s.running <;> cases muted <;> rfl
  | control c pc =>
      refine passes_caller rfl (fun _ => rfl) rfl rfl
        (Buffers.follows_offerControl s.buffers c missed pc) fun h => ?_
      have hhand : s.hands (.caller i) = pc.taken := by simp [hands, hpc, CallerPc.arrays]
      have hnext : ∀ next : Option ControlPc, (next.elim .idle (CallerPc.control c)).arrays =
          next.elim [] ControlPc.taken := by
        intro next
        cases next <;> rfl
      rw [hnext]
      exact h.offerControl c hhand missed

/-- A worker moves. -/
theorem passes_worker {t : ℕ} {q : WorkerPc} (hworkers : s'.workers = Function.update s.workers t q)
    (hcallers : s'.callers = s.callers) (hreader : s'.reader = s.reader)
    (hpayload : s'.payload = s.payload) (hfollows : s.buffers.Follows s'.buffers none)
    (hitem : ∀ p, q.item = some p → s.Carries p)
    (hspread : s.buffers.Spread s.hands →
      s'.buffers.Spread (Function.update s.hands (.worker t) q.arrays)) : s.Passes s' where
  spread h := by
    rw [hands_worker hworkers hcallers hreader]
    exact hspread h
  carries p hp := by
    rcases hp with ⟨w, hw, hwork⟩ | ⟨t', ht'⟩ | ⟨pc, hpc⟩
    · rcases hfollows.queue w hw with hold | hnew
      · exact .inl ⟨w, hold, hwork⟩
      · exact absurd (hnew p hwork) (by simp)
    · rw [hworkers] at ht'
      by_cases heq : t' = t
      · subst heq
        exact hitem p (by rwa [Function.update_self] at ht')
      · exact .inr (.inl ⟨t', by rwa [Function.update_of_ne heq] at ht'⟩)
    · exact .inr (.inr ⟨pc, hreader ▸ hpc⟩)
  arrays := hfollows.arrays
  lost := hfollows.lost
  reader := hreader
  payload := hpayload

/-- A worker moves with what it has. -/
theorem passes_worker_keep {t : ℕ} {q : WorkerPc}
    (hworkers : s'.workers = Function.update s.workers t q) (hcallers : s'.callers = s.callers)
    (hreader : s'.reader = s.reader) (hpayload : s'.payload = s.payload)
    (hbuffers : s'.buffers = s.buffers) (hitem : (s.workers t).item = q.item) : s.Passes s' := by
  refine passes_worker hworkers hcallers hreader hpayload ?_ ?_ fun h => ?_
  · rw [hbuffers]
    exact .refl _ _
  · exact fun p hp => .inr (.inl ⟨t, hitem.trans hp⟩)
  · rw [hbuffers]
    exact h.keep (by simp [hands, WorkerPc.arrays, hitem])

/-- `AudioWriteLoop`. -/
theorem passes_workerStep (s : State) (t : ℕ) (ok : Bool) : s.Passes (s.workerStep t ok) := by
  unfold workerStep
  have hrefl : s.Passes s := ⟨id, fun _ => id, rfl, .inl rfl, rfl, rfl⟩
  have hkeep : ∀ {pc}, s.workers t = pc → ∀ {q : WorkerPc}, pc.item = q.item →
      (s.workers t).item = q.item := fun hpc _ hq => by rw [hpc, hq]
  have hmuted : ∀ muted rest, (Tracks.nextMuted muted rest).item = none := by
    intro muted rest
    cases rest <;> cases muted <;> rfl
  have hrelease : ∀ rest, (s.tracks.nextRelease rest).item = none := by
    intro rest
    cases rest with
    | nil => rfl
    | cons a rest => simp only [Tracks.nextRelease]; split <;> rfl
  cases hpc : s.workers t with
  | unborn | dead => exact hrefl
  | checkRunning | wokenRunning =>
      refine passes_worker_keep rfl rfl rfl rfl rfl (hkeep hpc ?_)
      split <;> rfl
  | checkThread | wokenThread | pcm p =>
      refine passes_worker_keep rfl rfl rfl rfl rfl (hkeep hpc ?_)
      split <;> rfl
  | poll =>
      simp only
      split
      · exact passes_worker_keep rfl rfl rfl rfl rfl (hkeep hpc rfl)
      · match hpoll : s.buffers.poll with
        | none => exact passes_worker_keep rfl rfl rfl rfl rfl (hkeep hpc rfl)
        | some (item, b') =>
            obtain ⟨hfollows, w, hw, hwork⟩ := Buffers.follows_poll hpoll none
            refine passes_worker rfl rfl rfl rfl hfollows (fun p hp => ?_) fun h => ?_
            · have hitem : item = .pcm p := by
                cases item with
                | pcm q => exact congrArg _ (Option.some.inj hp)
                | control c => cases c <;> simp [dispatch, WorkerPc.item] at hp
              exact .inl ⟨w, hw, hwork.trans hitem⟩
            · refine h.poll hpoll ?_
              rcases item with p | (⟨c, d⟩ | m) <;>
                simp [hands, hpc, WorkerPc.arrays, WorkerPc.item, dispatch, Item.arrays]
  | ensure p =>
      simp only [ensureStep]
      cases s.tracks.current p.decodeType with
      | some a =>
          refine passes_worker_keep rfl rfl rfl rfl rfl (hkeep hpc ?_)
          split_ifs <;> rfl
      | none =>
          cases s.tracks.get p.decodeType <;>
            refine passes_worker_keep rfl rfl rfl rfl rfl (hkeep hpc ?_) <;> split_ifs <;> rfl
  | create p =>
      simp only [createStep]
      split_ifs <;> exact passes_worker_keep rfl rfl rfl rfl rfl (hkeep hpc rfl)
  | playFresh p a =>
      simp only
      split_ifs <;> exact passes_worker_keep rfl rfl rfl rfl rfl (hkeep hpc rfl)
  | play p a | write p a => exact passes_worker_keep rfl rfl rfl rfl rfl (hkeep hpc rfl)
  | recycle p threw =>
      have hnone : (if threw then WorkerPc.catching else .checkRunning).item = none := by
        cases threw <;> rfl
      refine passes_worker rfl rfl rfl rfl (Buffers.follows_recycle ..) (fun q hq => ?_) fun h => ?_
      · exact absurd (hnone.symm.trans hq) (by simp)
      · refine h.recycle ?_
        rw [hands, hpc, WorkerPc.arrays_of_none hnone, WorkerPc.arrays_of_some rfl]
  | command c decodeType =>
      simp only [commandStep]
      split
      · refine passes_worker_keep rfl rfl rfl rfl rfl (hkeep hpc ?_)
        split <;> rfl
      · exact passes_worker_keep rfl rfl rfl rfl rfl (hkeep hpc rfl)
  | mute muted => exact passes_worker_keep rfl rfl rfl rfl rfl (hkeep hpc (hmuted ..).symm)
  | pause a rest =>
      simp only
      split_ifs
      · exact passes_worker_keep rfl rfl rfl rfl rfl (hkeep hpc rfl)
      · exact passes_worker_keep rfl rfl rfl rfl rfl (hkeep hpc (hmuted ..).symm)
  | flush a rest | unmute a rest =>
      exact passes_worker_keep rfl rfl rfl rfl rfl (hkeep hpc (hmuted ..).symm)
  | catching =>
      simp only
      split
      · exact passes_worker_keep rfl rfl rfl rfl rfl (hkeep hpc rfl)
      · exact hrefl
  | leaving | release a rest =>
      exact passes_worker_keep rfl rfl rfl rfl rfl (hkeep hpc (hrelease _).symm)
  | stopTrack a rest =>
      simp only
      split_ifs
      · exact passes_worker_keep rfl rfl rfl rfl rfl (hkeep hpc rfl)
      · exact passes_worker_keep rfl rfl rfl rfl rfl (hkeep hpc (hrelease _).symm)
  | forget | ended => exact passes_worker_keep rfl rfl rfl rfl rfl (hkeep hpc rfl)
  | ending =>
      simp only
      split_ifs
      · exact passes_worker_keep rfl rfl rfl rfl rfl (hkeep hpc rfl)
      · exact passes_worker_keep rfl rfl rfl rfl rfl (hkeep hpc rfl)
      · exact hrefl

/-- An exception leaves a work to the `finally`. -/
theorem passes_throwStep {t : ℕ} (hpc : ∀ p threw, s.workers t ≠ .recycle p threw) :
    s.Passes (s.throwStep t) := by
  unfold throwStep
  cases h : s.workers t with
  | unborn | dead => exact ⟨id, fun _ => id, rfl, .inl rfl, rfl, rfl⟩
  | recycle p threw => exact absurd h (hpc p threw)
  | _ => exact passes_worker_keep rfl rfl rfl rfl rfl (by rw [h]; rfl)

/-! ### The run -/

/-- Each array has one owner, the arrays that go with a work have its bytes, and the read
thread still has its slice. -/
structure Kept (s : State) : Prop where
  spread : s.buffers.Spread s.hands
  sound : ∀ p, s.Carries p → s.buffers.Says p
  recalls : s.reader.Recalls s.buffers s.payload

theorem kept_new : new.Kept where
  spread := Buffers.spread_new fun th => by cases th <;> rfl
  sound p hp := by
    rcases hp with ⟨w, hw, -⟩ | ⟨t, ht⟩ | ⟨pc, hpc⟩
    · exact absurd hw List.not_mem_nil
    · exact absurd ht nofun
    · exact absurd hpc nofun
  recalls := trivial

theorem Kept.passes (h : s.Kept) (hpass : s.Passes s') : s'.Kept where
  spread := hpass.spread h.spread
  sound p hp := by
    rw [Buffers.Says, hpass.arrays]
    exact h.sound p (hpass.carries p hp)
  recalls := by
    have hrecalls := h.recalls
    rw [hpass.reader, hpass.payload]
    cases hr : s.reader with
    | copy m said a =>
        rw [hr] at hrecalls
        rw [ReaderPc.Recalls, hpass.arrays]
        exact hrecalls
    | _ =>
        rw [hr] at hrecalls
        exact hrecalls

/-- The read thread moves to `q`. -/
theorem Kept.reads (h : s.Kept) {buffers : Buffers} {q : ReaderPc}
    (harrays : buffers.arrays = s.buffers.arrays)
    (hqueue : ∀ w ∈ buffers.queue, w ∈ s.buffers.queue ∨ ∀ p, w.item = .pcm p → s.Carries p)
    (hspread : buffers.Spread (Function.update s.hands .reader q.arrays))
    (hq : ∀ p pc, q = .pcm p pc → s.Carries p) (hrecalls : q.Recalls buffers s.payload) :
    { s with buffers := buffers, reader := q }.Kept where
  spread := by
    rw [hands_reader s buffers q]
    exact hspread
  sound p hp := by
    have hcarries : s.Carries p := by
      rcases hp with ⟨w, hw, hwork⟩ | hworker | ⟨pc, hpc⟩
      · rcases hqueue w hw with hold | hnew
        · exact .inl ⟨w, hold, hwork⟩
        · exact hnew p hwork
      · exact .inr (.inl hworker)
      · exact hq p pc hpc
    rw [Buffers.Says, harrays]
    exact h.sound p hcarries
  recalls := hrecalls

/-- The read thread moves, and has what it had. -/
theorem Kept.reads_keep (h : s.Kept) {q : ReaderPc} (hhand : s.reader.arrays = q.arrays)
    (hq : ∀ p pc, q ≠ .pcm p pc) (hrecalls : q.Recalls s.buffers s.payload) :
    { s with reader := q }.Kept :=
  h.reads rfl (fun _ => .inl) (h.spread.keep hhand) (fun p pc hpc => absurd hpc (hq p pc)) hrecalls

/-- `acquirePcmBuffer`. -/
theorem Kept.acquire (h : s.Kept) {m : AudioMessage} {said : Option (List Byte)}
    (hpc : s.reader = .acquire m said) (missed : Bool) : (s.readStep missed).Kept := by
  have hsaid : said = slice s.payload m := by
    have hrecalls := h.recalls
    rwa [hpc] at hrecalls
  obtain ⟨hqueue, -, harrays⟩ := s.buffers.frame_acquire m.pcmLength
  simp only [readStep, hpc]
  refine ⟨?_, fun p hp => ?_, hsaid, s.buffers.length_acquire m.pcmLength⟩
  · rw [hands_reader]
    exact h.spread.acquire _ (by simp [hands, hpc, ReaderPc.arrays])
  · have hcarries : s.Carries p := by
      rcases hp with ⟨w, hw, hwork⟩ | hworker | ⟨pc, hp⟩
      · exact .inl ⟨w, hqueue ▸ hw, hwork⟩
      · exact .inr (.inl hworker)
      · exact absurd hp nofun
    -- the work's array was made before
    obtain ⟨k, hk, -⟩ := mem_places_of_carries hcarries
    rw [Buffers.Says, harrays _ (h.spread.lt hk)]
    exact h.sound p hcarries

/-- The slice has the length that the message says. -/
theorem length_slice {payload : Option (List Byte)} {m : AudioMessage} {bytes : List Byte}
    (h : slice payload m = some bytes) : bytes.length = m.pcmLength := by
  cases payload with
  | none => exact absurd h nofun
  | some all =>
      simp only [slice] at h
      split_ifs at h with hfits
      rw [← Option.some.inj h, List.length_take, List.length_drop]
      omega

/-- `System.arraycopy`: nobody else has the array that the read thread writes to. -/
theorem Kept.copy (h : s.Kept) {m : AudioMessage} {said : Option (List Byte)} {a : ℕ}
    (hpc : s.reader = .copy m said a) (missed : Bool) : (s.readStep missed).Kept := by
  have hsaid : said = slice s.payload m := by
    have hrecalls := h.recalls
    rw [hpc] at hrecalls
    exact hrecalls.1
  have ha : a ∈ Sum.elim s.buffers.shelf s.hands (.inr .reader) := by
    simp [hands, hpc, ReaderPc.arrays]
  simp only [readStep, hpc]
  cases hslice : slice s.payload m with
  | none =>
      refine h.reads rfl (fun _ => .inl) (h.spread.lose ?_) nofun trivial
      simp [hands, hpc, ReaderPc.arrays]
  | some bytes =>
      have hgetD : said.getD [] = bytes := by rw [hsaid, hslice]; rfl
      refine ⟨?_, fun p hp => ?_, trivial⟩
      · rw [hands_reader]
        refine Buffers.Spread.keep (b := s.buffers) h.spread ?_
        simp [hands, hpc, ReaderPc.arrays, PcmPc.taken]
      · have hcases : s.Carries p ∨ p = ⟨m.decodeType, a, m.pcmLength, said.getD []⟩ := by
          rcases hp with hqueued | hworker | ⟨pc, hp⟩
          · exact .inl (.inl hqueued)
          · exact .inl (.inr (.inl hworker))
          · exact .inr (ReaderPc.pcm.inj hp).1.symm
        rcases hcases with hcarries | rfl
        · obtain ⟨k, hk, hne⟩ := mem_places_of_carries hcarries
          have hpa : p.array ≠ a := fun heq => hne m said a hpc (h.spread.apart (heq ▸ hk) ha)
          rw [Buffers.Says, Buffers.arrays_copy_of_ne hpa]
          exact h.sound p hcarries
        · rw [hgetD]
          refine ⟨length_slice hslice, ?_⟩
          show ((s.buffers.copy a bytes).arrays a).take m.pcmLength = bytes
          rw [← length_slice hslice, Buffers.take_copy]

/-- `onAudio`. -/
theorem Kept.readStep (h : s.Kept) (missed : Bool) : (s.readStep missed).Kept := by
  have hrecalls : ∀ {pc}, s.reader = pc → pc.Recalls s.buffers s.payload := fun hpc =>
    hpc ▸ h.recalls
  have hhand : ∀ {pc}, s.reader = pc → ∀ {q : ReaderPc}, pc.arrays = q.arrays →
      s.reader.arrays = q.arrays := fun hpc _ hq => by rw [hpc, hq]
  cases hpc : s.reader with
  | acquire m said => exact h.acquire hpc missed
  | copy m said a => exact h.copy hpc missed
  | idle =>
      simp only [State.readStep, hpc]
      exact h
  | check m said =>
      simp only [State.readStep, hpc]
      have hsaid : said = slice s.payload m := hrecalls hpc
      have hidle : { s with reader := .idle }.Kept := h.reads_keep (hhand hpc rfl) nofun trivial
      split
      · cases m.kind with
        | command => exact h.reads_keep (hhand hpc rfl) nofun trivial
        | volumeDuration => exact hidle
        | pcm =>
            simp only
            split
            · exact hidle
            · exact h.reads_keep (hhand hpc rfl) nofun hsaid
      · exact hidle
  | muteTest m said =>
      have hsaid : said = slice s.payload m := hrecalls hpc
      simp only [State.readStep, hpc]
      split_ifs
      · exact h.reads_keep (hhand hpc rfl) nofun trivial
      · exact h.reads_keep (hhand hpc rfl) nofun hsaid
  | pcm p pc =>
      have hfollows := s.buffers.follows_offerPcm p missed pc
      have hp : s.Carries p := .inr (.inr ⟨pc, hpc⟩)
      have hhands : s.hands .reader = p.array :: pc.taken := by simp [hands, hpc, ReaderPc.arrays]
      simp only [State.readStep, hpc]
      refine h.reads hfollows.arrays (fun w hw => ?_) ?_ (fun q pc' hq => ?_) ?_
      · rcases hfollows.queue w hw with hold | hnew
        · exact .inl hold
        · exact .inr fun q hq => Option.some.inj (hnew q hq) ▸ hp
      · have hnext : ∀ next : Option PcmPc, (next.elim .idle (ReaderPc.pcm p)).arrays =
            next.elim [] fun pc => p.array :: pc.taken := by
          intro next
          cases next <;> rfl
        rw [hnext]
        exact h.spread.offerPcm hhands missed
      · cases hnext : (s.buffers.offerPcm p missed pc).2 with
        | none => simp [hnext] at hq
        | some next =>
            simp only [hnext, Option.elim_some, ReaderPc.pcm.injEq] at hq
            exact hq.1 ▸ hp
      · cases (s.buffers.offerPcm p missed pc).2 <;> trivial
  | control c pc =>
      have hfollows := s.buffers.follows_offerControl c missed pc
      have hhands : s.hands .reader = pc.taken := by simp [hands, hpc, ReaderPc.arrays]
      simp only [State.readStep, hpc]
      refine h.reads hfollows.arrays (fun w hw => ?_) ?_ (fun q pc' hq => ?_) ?_
      · rcases hfollows.queue w hw with hold | hnew
        · exact .inl hold
        · exact .inr fun q hq => absurd (hnew q hq) nofun
      · have hnext : ∀ next : Option ControlPc, (next.elim .idle (ReaderPc.control c)).arrays =
            next.elim [] ControlPc.taken := by
          intro next
          cases next <;> rfl
        rw [hnext]
        exact h.spread.offerControl c hhands missed
      · cases hnext : (s.buffers.offerControl c missed pc).2 <;> simp [hnext] at hq
      · cases (s.buffers.offerControl c missed pc).2 <;> trivial

/-- An exception. -/
theorem Kept.throwStep (h : s.Kept) (t : ℕ) : (s.throwStep t).Kept := by
  by_cases hpc : ∃ p threw, s.workers t = .recycle p threw
  · obtain ⟨p, threw, hpc⟩ := hpc
    simp only [State.throwStep, hpc]
    have hhands : ({ s with buffers := s.buffers.lose p.array }.setWorker t .catching).hands =
        Function.update s.hands (.worker t) [] :=
      hands_worker (q := .catching) rfl rfl rfl
    refine ⟨?_, fun q hq => ?_, h.recalls⟩
    · rw [hhands]
      refine h.spread.lose ?_
      rw [hands, hpc, WorkerPc.arrays_of_some rfl]
    · refine h.sound q ?_
      rcases hq with hqueued | ⟨t', ht'⟩ | hreader
      · exact .inl hqueued
      · by_cases heq : t' = t
        · subst heq
          simp [setWorker, WorkerPc.item] at ht'
        · exact .inr (.inl ⟨t', by simpa [setWorker, heq] using ht'⟩)
      · exact .inr (.inr hreader)
  · exact h.passes (passes_throwStep fun p threw heq => hpc ⟨p, threw, heq⟩)

/-- **Every event keeps the owners.** -/
theorem Kept.step (h : s.Kept) (hsolo : s.Solo) (e : Event) : (s.step e).Kept := by
  cases e with
  | receive payload =>
      simp only [State.step]
      split_ifs with hidle
      · exact ⟨h.spread, h.sound, by rw [hidle]; trivial⟩
      · exact h
  | onAudio m =>
      cases m with
      | none => exact h
      | some m =>
          simp only [State.step]
          split_ifs with hidle
          · exact h.reads_keep (by rw [hidle]; rfl) (by simp) rfl
          · exact h
  | read missed => exact h.readStep missed
  | call i c =>
      simp only [State.step]
      split_ifs with hidle
      · have hhand : ∀ q : CallerPc, [] = q.arrays → (s.callers i).arrays = q.arrays := by
          intro q hq
          rw [hidle, ← hq]
          rfl
        cases c <;> exact h.passes (passes_caller_keep rfl rfl rfl rfl rfl (hhand _ rfl))
      · exact h
  | caller i ok missed => exact h.passes (passes_callerStep hsolo i ok missed)
  | worker t ok => exact h.passes (passes_workerStep s t ok)
  | throw t => exact h.throwStep t

theorem kept_run (es : List Event) : (run step new es).Kept := by
  have hinv : ((run step new es).Held ∧ (run step new es).Solo) ∧ (run step new es).Kept :=
    run_invariant (I := fun s => (Held s ∧ Solo s) ∧ Kept s)
      (fun _ e hs => ⟨⟨hs.1.1.step e, hs.1.2.step hs.1.1 e⟩, hs.2.step hs.1.2 e⟩)
      ⟨⟨held_new, solo_new⟩, kept_new⟩ es
  exact hinv.2

/-! ### The owners -/

/-- Where the arrays are. -/
def places (s : State) : Shelf ⊕ Thread → List ℕ := Sum.elim s.buffers.shelf s.hands

/-- With this event an array may be lost: the pool is full, `arraycopy` throws, or an exception
comes out of the `recyclePcmBuffer` of a worker. -/
def Loses (s : State) (e : Event) : Prop :=
  audioQueueCapacity ≤ s.buffers.pool.length ∨
    (∃ missed m said a, e = .read missed ∧ s.reader = .copy m said a ∧ slice s.payload m = none) ∨
    ∃ t p threw, e = .throw t ∧ s.workers t = .recycle p threw

theorem lost_readStep (s : State) (missed : Bool) :
    (s.readStep missed).buffers.lost = s.buffers.lost ∨ s.Loses (.read missed) := by
  unfold readStep
  cases hpc : s.reader with
  | idle | muteTest m said => exact .inl rfl
  | check m said =>
      simp only
      split
      · cases m.kind with
        | pcm =>
            simp only
            split <;> exact .inl rfl
        | _ => exact .inl rfl
      · exact .inl rfl
  | acquire m said => exact .inl (s.buffers.frame_acquire m.pcmLength).2.1
  | copy m said a =>
      simp only
      cases hslice : slice s.payload m with
      | some bytes => exact .inl rfl
      | none => exact .inr (.inr (.inl ⟨missed, m, said, a, rfl, hpc, hslice⟩))
  | pcm p pc => exact (s.buffers.follows_offerPcm p missed pc).lost.imp id .inl
  | control c pc => exact (s.buffers.follows_offerControl c missed pc).lost.imp id .inl

theorem lost_step (hsolo : s.Solo) (e : Event) :
    (s.step e).buffers.lost = s.buffers.lost ∨ s.Loses e := by
  cases e with
  | receive payload =>
      simp only [step]
      split_ifs <;> exact .inl rfl
  | onAudio m =>
      cases m with
      | none => exact .inl rfl
      | some m =>
          simp only [step]
          split_ifs <;> exact .inl rfl
  | read missed => exact s.lost_readStep missed
  | call i c =>
      simp only [step]
      split_ifs
      · cases c <;> exact .inl rfl
      · exact .inl rfl
  | caller i ok missed => exact (passes_callerStep hsolo i ok missed).lost.imp id .inl
  | worker t ok => exact (passes_workerStep s t ok).lost.imp id .inl
  | throw t =>
      by_cases hpc : ∃ p threw, s.workers t = .recycle p threw
      · obtain ⟨p, threw, hpc⟩ := hpc
        exact .inr (.inr (.inr ⟨t, p, threw, rfl, hpc⟩))
      · exact (passes_throwStep fun p threw heq => hpc ⟨p, threw, heq⟩).lost.imp id .inl

/-- Each array that was made is at one place, and there once; it is lost only as in `Loses`; and
what a worker writes to a track is the slice of the message. -/
structure Owned (s : State) : Prop where
  place : ∀ a < s.buffers.made, ∃! k, a ∈ s.places k
  once : ∀ k, (s.places k).Nodup
  lost : ∀ e, (s.step e).buffers.lost = s.buffers.lost ∨ s.Loses e
  writes : ∀ t p a, s.workers t = .write p a → s.buffers.Says p

/-- **Every array has one owner, and the worker writes what was sent.**  Over every
interleaving of the read thread, the threads that call `start`, `stop` and `setMuted`, and the
workers, whatever comes into the payload buffer in between. -/
theorem owned_run (es : List Event) : (run step new es).Owned := by
  have hkept : (run step new es).Kept := kept_run es
  exact
    { place a ha := hkept.spread.existsUnique ha
      once := hkept.spread.nodup
      lost := lost_step (solo_run es)
      writes t p a ht := hkept.sound p (.inr (.inl ⟨t, by rw [ht]; rfl⟩)) }

/-- The driver's buffer with a header and two samples, and the message in it. -/
private def chunk : List Event :=
  [.receive (some [0, 0, 0, 0, 0, 0, 0, 0, 0, 0, 0, 0, 1, 2, 3, 4]),
    .onAudio (some ⟨2, 0, 1, .pcm, 0, 0, 12, 4⟩)]

/-- A chunk is queued, and `setMuted` takes it out of the queue. -/
private def purge : List Event :=
  Event.call 0 .start :: List.replicate 7 (Event.caller 0 true false) ++ chunk ++
    List.replicate 6 (Event.read false) ++ Event.call 1 (.setMuted true) ::
      List.replicate 4 (Event.caller 1 true false)

/-- Between `remove` and `recyclePcmBuffer` an array is in none of the pool, the queue,
`onAudio` and the worker. -/
theorem not_owned_purged :
    ¬ ∀ es : List Event, ∀ a < (run step new es).buffers.made,
      a ∈ (run step new es).buffers.pool ∨
        (∃ w ∈ (run step new es).buffers.queue, a ∈ w.item.arrays) ∨
        a ∈ (run step new es).reader.arrays ∨
        ∃ t, a ∈ ((run step new es).workers t).arrays := by
  intro h
  have hspread := (kept_run purge).spread
  have hpurged : 0 ∈ (run step new purge).places (.inr (.caller 1)) := by decide
  have hnone : ∀ k, k ≠ .inr (.caller 1) → 0 ∉ (run step new purge).places k := fun k hk h0 =>
    hk (hspread.apart h0 hpurged)
  rcases h purge 0 (hspread.lt hpurged) with hpool | ⟨w, hw, hwa⟩ | hreader | ⟨t, ht⟩
  · exact hnone (.inl .pool) nofun hpool
  · exact hnone (.inl .queue) nofun (List.mem_flatMap.2 ⟨w, hw, hwa⟩)
  · exact hnone (.inr .reader) (by simp) hreader
  · exact hnone (.inr (.worker t)) (by simp) ht

end State
end Audio
end App
end Carlinkit
