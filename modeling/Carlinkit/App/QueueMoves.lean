/-
# What the threads do to the audio queue

The read thread and the callers of `setMuted` offer works to the queue, the worker polls
it, and `start` and `stop` clear it.  To the queue, to the number of works it accepted and
to `audioQueueDropped` an event of the player does one of a few things (`QueueMove`): it
leaves them as they are, makes one step of an offer, or polls the oldest work.  What holds
of the queue along runs follows from these moves, and not from the code of each thread.
-/

import Carlinkit.App.PcmBuffers

namespace Carlinkit
namespace App
namespace Audio

open Framing Protocol Machine

/-- Where a thread is in `offerPcm` or `offerControl`, with its work. -/
inductive Offering
  | pcm (p : Pcm) (pc : PcmPc)
  | control (c : Control) (pc : ControlPc)
deriving DecidableEq, Repr

/-- The thread has just entered. -/
inductive Offering.First : Offering → Prop
  | pcm (p : Pcm) : First (.pcm p .size)
  | control (c : Control) (purgePcm : Bool) : First (.control c (.enter purgePcm))

namespace Buffers

/-- One step of an offer; no place left is its return. -/
def serve (b : Buffers) (missed : Bool) : Offering → Buffers × Option Offering
  | .pcm p pc => ((b.offerPcm p missed pc).1, (b.offerPcm p missed pc).2.map (.pcm p))
  | .control c pc =>
      ((b.offerControl c missed pc).1, (b.offerControl c missed pc).2.map (.control c))

/-- The queue and its numbers are in `b'` as in `b`. -/
structure SameQueue (b b' : Buffers) : Prop where
  queue : b'.queue = b.queue
  accepted : b'.accepted = b.accepted
  dropped : b'.audioQueueDropped = b.audioQueueDropped

theorem SameQueue.refl (b : Buffers) : b.SameQueue b := ⟨rfl, rfl, rfl⟩

theorem sameQueue_recycle (b : Buffers) (a : ℕ) : b.SameQueue (b.recycle a) := by
  unfold recycle
  split_ifs <;> exact ⟨rfl, rfl, rfl⟩

theorem sameQueue_acquire (b : Buffers) (length : ℕ) : b.SameQueue (b.acquire length).2 := by
  unfold acquire
  cases b.pool.find? fun a => length ≤ (b.arrays a).length <;> exact ⟨rfl, rfl, rfl⟩

end Buffers

/-- The offer that the read thread is in. -/
def ReaderPc.offering : ReaderPc → Option Offering
  | .pcm p pc => some (.pcm p pc)
  | .control c pc => some (.control c pc)
  | _ => none

/-- The offer that a calling thread is in. -/
def CallerPc.offering : CallerPc → Option Offering
  | .control c pc => some (.control c pc)
  | _ => none

/-- The thread is in `clearQueueAndRecycle` of `start` or `stop`. -/
def CallerPc.Clearing : CallerPc → Prop
  | .startClear | .stopClear => True
  | _ => False

instance : ∀ pc : CallerPc, Decidable pc.Clearing
  | .startClear | .stopClear => .isTrue trivial
  | .idle | .start | .startTest | .startWait | .startRecycle _ | .startReset | .startRunning
  | .startThread | .startLaunch _ | .stop | .stopRecycle _ | .stopInterrupt | .join _ | .settle _
  | .mute _ | .muteCheck _ | .control .. => .isFalse id

/-- The thread that moves in an event; a message comes to the read thread. -/
def Event.thread : Event → Thread
  | .receive _ | .onAudio _ | .read _ => .reader
  | .call i _ | .caller i _ _ => .caller i
  | .worker t _ | .throw t => .worker t

/-- The read thread or a calling thread goes on. -/
inductive Event.Serves : Event → Prop
  | read (missed : Bool) : Serves (.read missed)
  | caller (i : ℕ) (ok missed : Bool) : Serves (.caller i ok missed)

namespace State

/-- The offer that a thread is in. -/
def offering (s : State) : Thread → Option Offering
  | .reader => s.reader.offering
  | .caller i => (s.callers i).offering
  | .worker _ => none

/-- What an event does to the queue, and to the offers. -/
inductive QueueMove (s : State) (e : Event) (s' : State) : Prop
  | keep (same : s.buffers.SameQueue s'.buffers) (offering : s'.offering = s.offering)
  | enter (o : Offering) (first : o.First) (serves : e.Serves)
      (outside : s.offering e.thread = none)
      (same : s.buffers.SameQueue s'.buffers)
      (offering : s'.offering = Function.update s.offering e.thread (some o))
  | serve (o : Offering) (missed : Bool) (serves : e.Serves)
      (inside : s.offering e.thread = some o)
      (buffers : s'.buffers = (s.buffers.serve missed o).1)
      (offering : s'.offering = Function.update s.offering e.thread (s.buffers.serve missed o).2)
  /-- The worker polls. -/
  | poll (t : ℕ) (ok : Bool) (item : Item) (moves : e = .worker t ok)
      (polled : s.buffers.poll = some (item, s'.buffers)) (offering : s'.offering = s.offering)
  /-- `start` or `stop` clears the queue. -/
  | clear (i : ℕ) (ok missed : Bool) (item : Item) (moves : e = .caller i ok missed)
      (clearing : (s.callers i).Clearing)
      (polled : s.buffers.poll = some (item, s'.buffers)) (offering : s'.offering = s.offering)
  /-- `start` resets the number. -/
  | reset (i : ℕ) (ok missed : Bool) (moves : e = .caller i ok missed)
      (starts : s.callers i = .startReset)
      (buffers : s'.buffers = { s.buffers with audioQueueDropped := 0 })
      (offering : s'.offering = s.offering)

variable {s s' : State}

theorem offering_reader {o : Option Offering} (hreader : s'.reader.offering = o)
    (hcallers : s'.callers = s.callers) :
    s'.offering = Function.update s.offering .reader o := by
  funext th
  cases th <;> simp [offering, hreader, hcallers]

theorem offering_caller {i : ℕ} {q : CallerPc} {o : Option Offering} (hq : q.offering = o)
    (hreader : s'.reader = s.reader) (hcallers : s'.callers = Function.update s.callers i q) :
    s'.offering = Function.update s.offering (.caller i) o := by
  funext th
  cases th with
  | reader => simp [offering, hreader]
  | caller j => by_cases hj : j = i <;> simp [offering, hcallers, hj, hq]
  | worker t => rfl

theorem offering_worker (hreader : s'.reader = s.reader) (hcallers : s'.callers = s.callers) :
    s'.offering = s.offering := by
  funext th
  cases th <;> simp [offering, hreader, hcallers]

/-- The read thread moves outside of an offer. -/
theorem offering_reader_none {q : ReaderPc} (hout : s.reader.offering = none)
    (hq : q.offering = none) (hreader : s'.reader = q) (hcallers : s'.callers = s.callers) :
    s'.offering = s.offering := by
  have hsame : s.offering .reader = none := hout
  rw [offering_reader (hreader ▸ hq) hcallers, ← hsame, Function.update_eq_self]

/-- A calling thread moves outside of an offer. -/
theorem offering_caller_none {i : ℕ} {q : CallerPc} (hout : (s.callers i).offering = none)
    (hq : q.offering = none) (hreader : s'.reader = s.reader)
    (hcallers : s'.callers = Function.update s.callers i q) : s'.offering = s.offering := by
  have hsame : s.offering (.caller i) = none := hout
  rw [offering_caller hq hreader hcallers, ← hsame, Function.update_eq_self]

/-- `onAudio`. -/
theorem queueMove_readStep (s : State) (missed : Bool) :
    s.QueueMove (.read missed) (s.readStep missed) := by
  have hkeep : ∀ {buffers : Buffers} {q : ReaderPc}, s.reader.offering = none →
      q.offering = none → s.buffers.SameQueue buffers →
      s.QueueMove (.read missed) { s with buffers := buffers, reader := q } := by
    intro buffers q hout hq hsame
    exact .keep hsame (offering_reader_none hout hq rfl rfl)
  have hrefl := Buffers.SameQueue.refl s.buffers
  unfold readStep
  cases hpc : s.reader with
  | idle => exact .keep hrefl rfl
  | check m said =>
      have hout : s.reader.offering = none := by rw [hpc]; rfl
      simp only
      split
      · cases m.kind with
        | command =>
            exact .enter _ (.control (.command m.audioCommand m.decodeType) false) (.read missed)
              hout hrefl (offering_reader rfl rfl)
        | pcm =>
            simp only
            split_ifs <;> exact hkeep hout rfl hrefl
        | volumeDuration => exact hkeep hout rfl hrefl
      · exact hkeep hout rfl hrefl
  | muteTest m said =>
      have hout : s.reader.offering = none := by rw [hpc]; rfl
      refine hkeep hout ?_ hrefl
      split <;> rfl
  | acquire m said =>
      have hout : s.reader.offering = none := by rw [hpc]; rfl
      exact hkeep hout rfl (Buffers.sameQueue_acquire ..)
  | copy m said array =>
      have hout : s.reader.offering = none := by rw [hpc]; rfl
      simp only
      cases slice s.payload m with
      | none => exact hkeep hout rfl ⟨rfl, rfl, rfl⟩
      | some bytes =>
          exact .enter _ (.pcm ⟨m.decodeType, array, m.pcmLength, said.getD []⟩) (.read missed) hout
            ⟨rfl, rfl, rfl⟩ (offering_reader rfl rfl)
  | pcm p pc =>
      have hin : s.offering .reader = some (.pcm p pc) := by rw [offering, hpc]; rfl
      have hnext : ∀ next : Option PcmPc, (next.elim .idle (ReaderPc.pcm p)).offering =
          next.map (.pcm p) := fun next => by cases next <;> rfl
      exact .serve _ missed (.read missed) hin rfl (offering_reader (hnext _) rfl)
  | control c pc =>
      have hin : s.offering .reader = some (.control c pc) := by rw [offering, hpc]; rfl
      have hnext : ∀ next : Option ControlPc, (next.elim .idle (ReaderPc.control c)).offering =
          next.map (.control c) := fun next => by cases next <;> rfl
      exact .serve _ missed (.read missed) hin rfl (offering_reader (hnext _) rfl)

/-- `clearQueueAndRecycle` of a calling thread. -/
theorem queueMove_clearStep {i : ℕ} {ok missed : Bool} {again : CallerPc} {recycle : ℕ → CallerPc}
    {done : CallerPc} (hclear : (s.callers i).Clearing) (hagain : again.offering = none)
    (hrecycle : ∀ a, (recycle a).offering = none) (hdone : done.offering = none) :
    s.QueueMove (.caller i ok missed) (s.clearStep i again recycle done) := by
  have hout : (s.callers i).offering = none := by
    cases hpc : s.callers i <;> first | rfl | (rw [hpc] at hclear; exact hclear.elim)
  unfold clearStep
  match hpoll : s.buffers.poll with
  | none => exact .keep (.refl _) (offering_caller_none hout hdone rfl rfl)
  | some (.pcm p, b') =>
      exact .clear i ok missed _ rfl hclear hpoll (offering_caller_none hout (hrecycle _) rfl rfl)
  | some (.control c, b') =>
      exact .clear i ok missed _ rfl hclear hpoll (offering_caller_none hout hagain rfl rfl)

/-- `start`, `stop` and `setMuted`. -/
theorem queueMove_callerStep (s : State) (i : ℕ) (ok missed : Bool) :
    s.QueueMove (.caller i ok missed) (s.callerStep i ok missed) := by
  have hkeep : ∀ {pc q : CallerPc} {s' : State}, s.callers i = pc → pc.offering = none →
      q.offering = none → s'.reader = s.reader → s'.callers = Function.update s.callers i q →
      s.buffers.SameQueue s'.buffers → s.QueueMove (.caller i ok missed) s' :=
    fun hpc hout hq hreader hcallers hsame =>
      .keep hsame (offering_caller_none (by rw [hpc, hout]) hq hreader hcallers)
  have hrefl := Buffers.SameQueue.refl s.buffers
  unfold callerStep
  cases hpc : s.callers i with
  | idle => exact .keep hrefl rfl
  | start | startWait | stop | settle t =>
      simp only
      split_ifs
      · exact hkeep hpc rfl rfl rfl rfl hrefl
      · exact hkeep hpc rfl rfl rfl rfl hrefl
      · exact .keep hrefl rfl
  | startTest =>
      simp only
      split
      · cases ok <;> exact hkeep hpc rfl rfl rfl rfl hrefl
      · exact hkeep hpc rfl rfl rfl rfl hrefl
  | startClear | stopClear =>
      exact queueMove_clearStep (by rw [hpc]; trivial) rfl (fun _ => rfl) rfl
  | startRecycle a | stopRecycle a =>
      exact hkeep hpc rfl rfl rfl rfl (Buffers.sameQueue_recycle ..)
  | startReset =>
      exact .reset i ok missed rfl hpc rfl (offering_caller_none (by rw [hpc]; rfl) rfl rfl rfl)
  | startRunning | startThread | join t | mute muted =>
      exact hkeep hpc rfl rfl rfl rfl hrefl
  | startLaunch t => cases ok <;> exact hkeep hpc rfl rfl rfl rfl hrefl
  | stopInterrupt => cases s.audioThread <;> exact hkeep hpc rfl rfl rfl rfl hrefl
  | muteCheck muted =>
      cases s.running with
      | false => exact hkeep hpc rfl (q := .idle) rfl rfl rfl hrefl
      | true =>
          exact .enter _ (.control (.mute muted) muted) (.caller i ok missed)
            (by rw [Event.thread, offering, hpc]; rfl) hrefl (offering_caller rfl rfl rfl)
  | control c pc =>
      have hin : s.offering (.caller i) = some (.control c pc) := by rw [offering, hpc]; rfl
      have hnext : ∀ next : Option ControlPc, (next.elim .idle (CallerPc.control c)).offering =
          next.map (.control c) := fun next => by cases next <;> rfl
      exact .serve _ missed (.caller i ok missed) hin rfl (offering_caller (hnext _) rfl rfl)

/-- `AudioWriteLoop`. -/
theorem queueMove_workerStep (s : State) (t : ℕ) (ok : Bool) :
    s.QueueMove (.worker t ok) (s.workerStep t ok) := by
  have hkeep : ∀ {s' : State}, s'.reader = s.reader → s'.callers = s.callers →
      s.buffers.SameQueue s'.buffers → s.QueueMove (.worker t ok) s' :=
    fun hreader hcallers hsame => .keep hsame (offering_worker hreader hcallers)
  have hrefl := Buffers.SameQueue.refl s.buffers
  unfold workerStep
  cases hpc : s.workers t with
  | unborn | dead => exact .keep hrefl rfl
  | poll =>
      simp only
      split
      · exact hkeep rfl rfl hrefl
      · match hpoll : s.buffers.poll with
        | none => exact hkeep rfl rfl hrefl
        | some (item, b') =>
            exact .poll t ok item rfl hpoll (offering_worker rfl rfl)
  | ensure p =>
      simp only [ensureStep]
      cases s.tracks.current p.decodeType with
      | some a => exact hkeep rfl rfl hrefl
      | none => cases s.tracks.get p.decodeType <;> exact hkeep rfl rfl hrefl
  | create p =>
      simp only [createStep]
      split_ifs <;> exact hkeep rfl rfl hrefl
  | recycle p threw => exact hkeep rfl rfl (Buffers.sameQueue_recycle ..)
  | command c decodeType =>
      simp only [commandStep]
      split <;> exact hkeep rfl rfl hrefl
  | playFresh p a | pause a rest | stopTrack a rest =>
      simp only
      split_ifs <;> exact hkeep rfl rfl hrefl
  | catching | ending =>
      simp only
      split_ifs <;> exact .keep hrefl rfl
  | _ => exact hkeep rfl rfl hrefl

/-- An exception leaves the queue. -/
theorem queueMove_throwStep (s : State) (t : ℕ) : s.QueueMove (.throw t) (s.throwStep t) := by
  have hrefl := Buffers.SameQueue.refl s.buffers
  unfold throwStep
  cases s.workers t with
  | unborn | dead => exact .keep hrefl rfl
  | recycle p threw => exact .keep ⟨rfl, rfl, rfl⟩ (offering_worker rfl rfl)
  | _ => exact .keep hrefl (offering_worker rfl rfl)

/-- **What an event does to the queue.** -/
theorem queueMove_step (s : State) (e : Event) : s.QueueMove e (s.step e) := by
  have hrefl := Buffers.SameQueue.refl s.buffers
  cases e with
  | receive payload =>
      simp only [step]
      split_ifs
      · exact .keep hrefl rfl
      · exact .keep hrefl rfl
  | onAudio m =>
      cases m with
      | none => exact .keep hrefl rfl
      | some m =>
          simp only [step]
          split_ifs with hidle
          · have hout : s.reader.offering = none := by rw [hidle]; rfl
            exact .keep hrefl (offering_reader_none hout rfl rfl rfl)
          · exact .keep hrefl rfl
  | read missed => exact s.queueMove_readStep missed
  | call i c =>
      simp only [step]
      split_ifs with hidle
      · have hout : (s.callers i).offering = none := by rw [hidle]; rfl
        cases c <;> exact .keep hrefl (offering_caller_none hout rfl rfl rfl)
      · exact .keep hrefl rfl
  | caller i ok missed => exact s.queueMove_callerStep i ok missed
  | worker t ok => exact s.queueMove_workerStep t ok
  | throw t => exact s.queueMove_throwStep t

/-- A thread leaves the offers of the others. -/
theorem offering_of_ne {e : Event} (th : Thread) (hth : e.thread ≠ th) :
    (s.step e).offering th = s.offering th := by
  cases s.queueMove_step e with
  | enter o first serves outside same hoffering =>
      rw [hoffering, Function.update_of_ne (Ne.symm hth)]
  | serve o missed serves inside hbuffers hoffering =>
      rw [hoffering, Function.update_of_ne (Ne.symm hth)]
  | keep same hoffering => rw [hoffering]
  | poll t ok item moves polled hoffering => rw [hoffering]
  | clear i ok missed item moves clearing polled hoffering => rw [hoffering]
  | reset i ok missed moves starts hbuffers hoffering => rw [hoffering]

/-- Nobody is in an offer when those who moved are not. -/
theorem idle_run (es : List Event) (h : ∀ e ∈ es, (run step new es).offering e.thread = none)
    (th : Thread) : (run step new es).offering th = none := by
  by_cases hmem : ∃ e ∈ es, e.thread = th
  · obtain ⟨e, he, rfl⟩ := hmem
    exact h e he
  · have hrun : ∀ s : State, (∀ e ∈ es, e.thread ≠ th) →
        (run step s es).offering th = s.offering th := by
      clear h hmem
      induction es with
      | nil => exact fun s _ => rfl
      | cons e es ih =>
          intro s hne
          rw [run_cons, ih _ fun e' he' => hne e' (List.mem_cons_of_mem _ he')]
          exact offering_of_ne th (hne e List.mem_cons_self)
    rw [hrun new fun e he heq => hmem ⟨e, he, heq⟩]
    cases th <;> rfl

/-! ### Pieces of runs -/

/-- Thread `i` calls `start`, and the worker is there. -/
def startedBy (i : ℕ) : List Event :=
  Event.call i .start :: List.replicate 7 (Event.caller i true false)

/-- A message comes, and `onAudio` makes `n` steps. -/
def heard (kind : AudioKind) (n : ℕ) : List Event :=
  Event.onAudio (some ⟨4, 0, 0, kind, 1, 0, 0, 4⟩) :: List.replicate n (Event.read false)

/-- Thread `i` calls `setMuted`, and makes `n` steps. -/
def mutedBy (i : ℕ) (muted : Bool) (n : ℕ) : List Event :=
  Event.call i (.setMuted muted) :: List.replicate n (Event.caller i true false)

end State
end Audio
end App
end Carlinkit
