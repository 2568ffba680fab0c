/-
# The end of a session

`CarlinkitDriver.stop` against the threads that write past the queue and through
it.  `Safe` is what the closing order asks of a step: no byte after CLOSE_DONGLE,
no `bulkTransfer` once the interface is released.

`stop` clears `running` and waits a bounded time for each thread, but a loop tests
`running` before it waits for `writeLock`, so a loop that was let in before can
still be on its way when the wait is over.  `ClosesAlone` says that this is not
so at the moment when `stop` takes the lock for the closing messages.
`safe_of_closesAlone` shows that this is enough, and that nothing less is: every
run that gets to that moment with a loop on its way can be continued to a write
after CLOSE_DONGLE.  Transfers may have any outcome here.
-/

import Carlinkit.Driver.WriteSide

namespace Carlinkit
namespace Driver

open Framing Protocol Machine

/-- The write thread has not passed its test of `running`, or has finished the
message that it passed it for. -/
def WritePc.outside : WritePc → Bool
  | .check | .ended => true
  | _ => false

/-- The same for the heartbeat thread. -/
def BeatPc.outside : BeatPc → Bool
  | .check | .sleep | .ended => true
  | _ => false

/-- `stop` has taken `writeLock` for the closing messages. -/
def StopPc.closing : StopPc → Bool
  | .idle | .joinWrite | .lock => false
  | _ => true

/-- `stop` is through with the closing messages. -/
def StopPc.closed : StopPc → Bool
  | .joinRead | .joinBeat | .joinConnect | .lockInterface | .interface | .done => true
  | _ => false

namespace State

/-- Both loops are outside. -/
def Quiet (s : State) : Prop := s.writer.outside = true ∧ s.beat.outside = true

/-- The event is a `bulkTransfer` on `epOut`. -/
def Transfers (s : State) : Event → Prop
  | .write _ => ∃ x, s.writer = .header x ∨ ∃ h, s.writer = .payload x h
  | .beat _ => s.todo = [] ∧ s.beat = .header
  | .stop _ => s.todo = [] ∧
      (s.stopper = .release ∨ s.stopper = .releasePayload ∨ s.stopper = .close)
  | _ => False

/-- After CLOSE_DONGLE no byte is written, and after the release of the interface
no transfer is started. -/
def Safe (s : State) (e : Event) : Prop :=
  (s.closeWritten = true → (s.step e).wire = s.wire) ∧ (s.released = true → ¬ s.Transfers e)

/-- If this event is `stop` taking `writeLock` for the closing messages, no loop is
on its way to the lock. -/
def ClosesAlone (s : State) : Event → Prop
  | .stop _ => s.todo = [] → s.stopper = .lock → s.lock = none → s.Quiet
  | _ => True

instance (s : State) : Decidable s.Quiet := inferInstanceAs (Decidable (_ ∧ _))

instance (s : State) : ∀ e, Decidable (s.ClosesAlone e)
  | .stop _ => inferInstanceAs
      (Decidable (s.todo = [] → s.stopper = .lock → s.lock = none → s.Quiet))
  | .init | .call _ _ | .send _ _ | .write _ | .beat _ => .isTrue trivial

/-! ### Enough -/

/-- What holds when every closing was alone. -/
structure Closing (s : State) : Prop where
  running : s.stopper ≠ .idle → s.running = false
  quiet : s.stopper.closing = true → s.Quiet
  close : s.closeWritten = true → s.stopper.closed = true
  interface : s.released = true → s.stopper = .done

theorem closing_start (todo : List Message) : Closing (start todo) where
  running h := by simp [start] at h
  quiet h := by simp [start, StopPc.closing] at h
  close h := by simp [start] at h
  interface h := by simp [start] at h

/-- It depends on six fields only. -/
theorem Closing.congr {s s' : State} (h : Closing s) (hwriter : s'.writer = s.writer)
    (hbeat : s'.beat = s.beat) (hstopper : s'.stopper = s.stopper)
    (hrunning : s'.running = s.running) (hreleased : s'.released = s.released)
    (hclose : s'.closeWritten = s.closeWritten) : Closing s' where
  running := by rw [hstopper, hrunning]; exact h.running
  quiet := by rw [hstopper, Quiet, hwriter, hbeat]; exact h.quiet
  close := by rw [hstopper, hclose]; exact h.close
  interface := by rw [hstopper, hreleased]; exact h.interface

/-- When the closing has begun, `running` is false. -/
theorem Closing.not_running {s : State} (h : Closing s) (hc : s.stopper.closing = true) :
    s.running = false := by
  refine h.running fun hidle => ?_
  rw [hidle] at hc
  simp [StopPc.closing] at hc

/-- A write thread that is outside stays there, and does not write. -/
theorem writeStep_outside {s : State} (hrun : s.running = false) (hout : s.writer.outside = true)
    (o : Outcome) :
    (s.writeStep o).writer.outside = true ∧ (s.writeStep o).wire = s.wire ∧
      ¬ s.Transfers (.write o) := by
  cases hpc : s.writer with
  | check => simp [writeStep, hpc, hrun, WritePc.outside, Transfers]
  | ended => simp [writeStep, hpc, WritePc.outside, Transfers]
  | poll | hand x | header x | payload x hne =>
      rw [hpc] at hout
      simp [WritePc.outside] at hout

theorem beatStep_outside {s : State} (hrun : s.running = false) (hout : s.beat.outside = true)
    (o : Outcome) :
    (s.beatStep o).beat.outside = true ∧ (s.beatStep o).wire = s.wire ∧
      ¬ s.Transfers (.beat o) := by
  cases hpc : s.beat with
  | check => simp [beatStep, hpc, hrun, BeatPc.outside, Transfers]
  | sleep | ended => simp [beatStep, hpc, BeatPc.outside, Transfers]
  | lock | header =>
      rw [hpc] at hout
      simp [BeatPc.outside] at hout

theorem closing_writeStep {s : State} (h : Closing s) (o : Outcome) : Closing (s.writeStep o) := by
  obtain ⟨hbeat, hstopper, hrunning, hreleased, hclose, -⟩ := writeStep_frame s o
  refine
    { running := by rw [hstopper, hrunning]; exact h.running
      quiet := fun hc => ?_
      close := by rw [hstopper, hclose]; exact h.close
      interface := by rw [hstopper, hreleased]; exact h.interface }
  rw [hstopper] at hc
  obtain ⟨hw, hb⟩ := h.quiet hc
  exact ⟨(writeStep_outside (h.not_running hc) hw o).1, by rw [hbeat]; exact hb⟩

theorem closing_beatStep {s : State} (h : Closing s) (o : Outcome) : Closing (s.beatStep o) := by
  obtain ⟨hwriter, hstopper, hrunning, hreleased, hclose, -⟩ := beatStep_frame s o
  refine
    { running := by rw [hstopper, hrunning]; exact h.running
      quiet := fun hc => ?_
      close := by rw [hstopper, hclose]; exact h.close
      interface := by rw [hstopper, hreleased]; exact h.interface }
  rw [hstopper] at hc
  obtain ⟨hw, hb⟩ := h.quiet hc
  exact ⟨by rw [hwriter]; exact hw, (beatStep_outside (h.not_running hc) hb o).1⟩

/-- What a step of `stop` does to the loops, and where it leads. -/
theorem stopStep_spec (s : State) (o : Outcome) :
    (s.stopStep o).writer = s.writer ∧ (s.stopStep o).beat = s.beat ∧
      ((s.stopStep o).running = false ∨
        s.stopper ≠ .idle ∧ (s.stopStep o).running = s.running) ∧
      ((s.stopStep o).stopper.closing = true →
        s.stopper.closing = true ∨ s.stopper = .lock ∧ s.lock = none) ∧
      ((s.stopStep o).closeWritten = true →
        (s.stopStep o).stopper.closed = true ∨
          s.closeWritten = true ∧ s.stopper.closed = false) ∧
      ((s.stopStep o).released = true →
        (s.stopStep o).stopper = .done ∨ s.released = true ∧ s.stopper ≠ .done) ∧
      (s.stopStep o).clients = s.clients := by
  cases hpc : s.stopper with
  | idle | joinWrite | joinRead | joinBeat | joinConnect | interface | done =>
      simp [stopStep, hpc, StopPc.closing, StopPc.closed]
  | lock | lockInterface =>
      by_cases hfree : s.lock = none <;>
        simp [stopStep, hpc, hfree, StopPc.closing, StopPc.closed]
  | release | releasePayload | close =>
      by_cases hfull : o = .full <;> by_cases hthrow : o.complete = none <;>
        simp [stopStep, hpc, hfull, hthrow, transfer, record, StopPc.closing, StopPc.closed]

/-- `stop` itself: the condition is used where it takes the lock. -/
theorem closing_stopStep {s : State} (h : Closing s) (o : Outcome)
    (halone : s.stopper = .lock → s.lock = none → s.Quiet) : Closing (s.stopStep o) := by
  obtain ⟨hwriter, hbeat, hrun, hclosing, hclose, hinterface, -⟩ := stopStep_spec s o
  constructor
  · intro _
    rcases hrun with hfalse | ⟨hne, hsame⟩
    · exact hfalse
    · rw [hsame]
      exact h.running hne
  · intro hc
    rw [Quiet, hwriter, hbeat]
    rcases hclosing hc with hbegun | ⟨hlock, hfree⟩
    · exact h.quiet hbegun
    · exact halone hlock hfree
  · intro hcl
    rcases hclose hcl with hclosed | ⟨hbefore, hopen⟩
    · exact hclosed
    · rw [h.close hbefore] at hopen
      simp at hopen
  · intro hrel
    rcases hinterface hrel with hdone | ⟨hbefore, hne⟩
    · exact hdone
    · exact absurd (h.interface hbefore) hne

/-- **Every event keeps the invariant**, if `stop` takes the lock alone. -/
theorem closing_step {s : State} (h : Closing s) {e : Event} (he : s.ClosesAlone e) :
    Closing (s.step e) := by
  cases e with
  | init =>
      obtain ⟨h₁, h₂, h₃, h₄, h₅, -, h₆, -⟩ := initStep_frame s
      exact h.congr h₁ h₂ h₃ h₄ h₅ h₆
  | call i m =>
      simp only [step]
      split_ifs
      · exact { h with }
      · exact h
  | send i missed =>
      simp only [step]
      split_ifs
      · obtain ⟨h₁, h₂, h₃, h₄, h₅, -, h₆⟩ := sendStep_frame s i missed
        exact h.congr h₁ h₂ h₃ h₄ h₅ h₆
      · exact h
  | write o => exact closing_writeStep h o
  | beat o =>
      simp only [step]
      split_ifs
      · exact closing_beatStep h o
      · exact h
  | stop o =>
      simp only [step]
      split_ifs with htodo
      · exact closing_stopStep h o (he htodo)
      · exact h

/-- Under the invariant every event is safe. -/
theorem Closing.safe {s : State} (h : Closing s) (e : Event) : s.Safe e := by
  have hpast : s.closeWritten = true ∨ s.released = true → s.stopper.closed = true := by
    rintro (hcl | hrel)
    · exact h.close hcl
    · rw [h.interface hrel]
      rfl
  have hclosing : s.stopper.closed = true → s.stopper.closing = true := by
    cases s.stopper <;> simp [StopPc.closed, StopPc.closing]
  have hquiet : s.closeWritten = true ∨ s.released = true → s.running = false ∧ s.Quiet :=
    fun hpos => ⟨h.not_running (hclosing (hpast hpos)), h.quiet (hclosing (hpast hpos))⟩
  -- it is enough that an event after the closing neither writes nor transfers
  suffices hsilent : s.closeWritten = true ∨ s.released = true →
      (s.step e).wire = s.wire ∧ ¬ s.Transfers e from
    ⟨fun hcl => (hsilent (.inl hcl)).1, fun hrel => (hsilent (.inr hrel)).2⟩
  intro hpos
  obtain ⟨hrun, hw, hb⟩ := hquiet hpos
  cases e with
  | init => exact ⟨(initStep_frame s).2.2.2.2.2.1, id⟩
  | call i m =>
      simp only [step]
      split_ifs <;> exact ⟨rfl, id⟩
  | send i missed =>
      simp only [step]
      split_ifs
      · exact ⟨(sendStep_frame s i missed).2.2.2.2.2.1, id⟩
      · exact ⟨rfl, id⟩
  | write o => exact (writeStep_outside hrun hw o).2
  | beat o =>
      simp only [step]
      split_ifs with htodo
      · exact (beatStep_outside hrun hb o).2
      · exact ⟨rfl, fun ht => htodo ht.1⟩
  | stop o =>
      have hclosed := hpast hpos
      simp only [step]
      split_ifs with htodo
      · cases hpc : s.stopper with
        | joinRead | joinBeat | joinConnect | interface | done =>
            simp [stopStep, hpc, Transfers]
        | lockInterface =>
            by_cases hfree : s.lock = none <;> simp [stopStep, hpc, hfree, Transfers]
        | _ =>
            rw [hpc] at hclosed
            simp [StopPc.closed] at hclosed
      · exact ⟨rfl, fun ht => htodo ht.1⟩

/-! ### And nothing less -/

/-- Some continuation is not safe. -/
def Doomed (s : State) : Prop := ∃ es, ¬ Along step Safe s es

theorem doomed_of_step {s : State} (e : Event) (h : Doomed (s.step e)) : Doomed s := by
  obtain ⟨es, hes⟩ := h
  exact ⟨e :: es, fun hall => hes hall.2⟩

theorem doomed_of_run {s : State} (es : List Event) (h : Doomed (run step s es)) : Doomed s := by
  obtain ⟨fs, hfs⟩ := h
  exact ⟨es ++ fs, fun hall => hfs ((along_append s es fs).1 hall).2⟩

/-- A write after CLOSE_DONGLE. -/
theorem doomed_of_wire {s : State} (hclose : s.closeWritten = true) (e : Event)
    (hwire : (s.step e).wire ≠ s.wire) : Doomed s :=
  ⟨[e], fun hall => hwire (hall.1.1 hclose)⟩

theorem append_headerBytes_ne (bs : List Byte) (m : Message) : bs ++ m.headerBytes ≠ bs := by
  intro h
  have := congrArg List.length h
  rw [List.length_append, m.headerBytes_length] at this
  omega

/-- After CLOSE_DONGLE, a write thread with a message in its hand. -/
theorem doomed_of_hand {s : State} (hclose : s.closeWritten = true) (hfree : s.lock = none)
    {x : Outgoing} (hpc : s.writer = .hand x) : Doomed s := by
  refine doomed_of_step (.write .full) (doomed_of_wire ?_ (.write .full) ?_)
  · simpa [step, writeStep, hpc, hfree] using hclose
  · have hstep : s.step (.write .full) = { s with writer := .header x, lock := some .writer } := by
      simp [step, writeStep, hpc, hfree]
    rw [hstep]
    simp only [step, writeStep, if_true]
    split_ifs <;>
      simpa only [record, transfer, Outcome.sent] using append_headerBytes_ne s.wire x.message

/-- After CLOSE_DONGLE, a write thread that waits for a message: one can come. -/
theorem doomed_of_poll {s : State} (hclose : s.closeWritten = true) (hfree : s.lock = none)
    (htodo : s.todo = []) (hidle : ∃ i, s.clients i = .idle) (hpc : s.writer = .poll) :
    Doomed s := by
  have hsome : ∀ t : State, t.closeWritten = true → t.lock = none → t.writer = .poll →
      t.queue ≠ [] → Doomed t := by
    intro t hcl hfr hw hq
    obtain ⟨x, queue, hcons⟩ := List.exists_cons_of_ne_nil hq
    refine doomed_of_step (.write .full) (doomed_of_hand (x := x) ?_ ?_ ?_) <;>
      simp [step, writeStep, hw, hcons, hcl, hfr]
  cases hq : s.queue with
  | cons x queue => exact hsome s hclose hfree hpc (by simp [hq])
  | nil =>
      obtain ⟨i, hi⟩ := hidle
      refine doomed_of_step (.call i heartbeat) (doomed_of_step (.send i false) ?_)
      refine hsome _ ?_ ?_ ?_ ?_
      all_goals
        simp [step, htodo, hi, setClient, sendStep, hq, sendQueueCapacity, accept, leaveSend,
          hclose, hfree, hpc]

/-- After CLOSE_DONGLE, a heartbeat thread before the lock. -/
theorem doomed_of_beat {s : State} (hclose : s.closeWritten = true) (hfree : s.lock = none)
    (htodo : s.todo = []) (hpc : s.beat = .lock) : Doomed s := by
  have hstep : s.step (.beat .full) = { s with beat := .header, lock := some .beat } := by
    simp [step, htodo, beatStep, hpc, hfree]
  refine doomed_of_step (.beat .full) (doomed_of_wire ?_ (.beat .full) ?_)
  · rw [hstep]
    exact hclose
  · rw [hstep]
    simp only [step, htodo, beatStep, if_true]
    simpa only [record, transfer, Outcome.sent] using append_headerBytes_ne s.wire heartbeat

/-- The closing messages go out, and the loops stand where they stood. -/
theorem run_closing {s : State} (htodo : s.todo = []) (hpc : s.stopper = .lock)
    (hfree : s.lock = none) :
    (run step s (List.replicate 4 (.stop .full))).closeWritten = true ∧
      (run step s (List.replicate 4 (.stop .full))).lock = none ∧
      (run step s (List.replicate 4 (.stop .full))).writer = s.writer ∧
      (run step s (List.replicate 4 (.stop .full))).beat = s.beat ∧
      (run step s (List.replicate 4 (.stop .full))).todo = [] ∧
      (run step s (List.replicate 4 (.stop .full))).clients = s.clients := by
  simp [List.replicate, step, htodo, stopStep, hpc, hfree, transfer, record]

/-- An event moves at most one of the threads in `send`. -/
theorem step_clients (s : State) (e : Event) :
    ∃ i, ∀ j, j ≠ i → (s.step e).clients j = s.clients j := by
  have hset : ∀ (t : State) i pc j, j ≠ i → (t.setClient i pc).clients j = t.clients j :=
    fun t i pc j hj => Function.update_of_ne hj _ _
  cases e with
  | init => exact ⟨0, fun j _ => by rw [step, (initStep_frame s).2.2.2.2.2.2.2]⟩
  | call i m =>
      refine ⟨i, fun j hj => ?_⟩
      simp only [step]
      split_ifs
      · exact hset s i _ j hj
      · rfl
  | send i missed =>
      refine ⟨i, fun j hj => ?_⟩
      simp only [step]
      split_ifs
      · cases hpc : s.clients i with
        | idle => simp only [sendStep, hpc]
        | offer m | again m =>
            simp only [sendStep, hpc]
            split_ifs <;> exact hset _ i _ j hj
        | refused m =>
            simp only [sendStep, hpc]
            exact hset _ i _ j hj
        | scanning m seen =>
            simp only [sendStep, hpc]
            cases s.oldestAudio seen missed <;> exact hset _ i _ j hj
      · rfl
  | write o => exact ⟨0, fun j _ => by rw [step, (writeStep_frame s o).2.2.2.2.2]⟩
  | beat o =>
      refine ⟨0, fun j _ => ?_⟩
      simp only [step]
      split_ifs
      · rw [(beatStep_frame s o).2.2.2.2.2]
      · rfl
  | stop o =>
      refine ⟨0, fun j _ => ?_⟩
      simp only [step]
      split_ifs
      · rw [(stopStep_spec s o).2.2.2.2.2.2]
      · rfl

/-- Only finitely many threads are inside `send`. -/
theorem exists_idle (todo : List Message) (es : List Event) :
    ∃ i, (run step (start todo) es).clients i = .idle := by
  have hfinite : ∃ n, ∀ i, n ≤ i → (run step (start todo) es).clients i = .idle := by
    refine run_invariant (I := fun s : State => ∃ n, ∀ i, n ≤ i → s.clients i = .idle) ?_
      ⟨0, fun _ _ => rfl⟩ es
    rintro s e ⟨n, hn⟩
    obtain ⟨i, hi⟩ := step_clients s e
    refine ⟨max n (i + 1), fun j hj => ?_⟩
    rw [hi j (by omega)]
    exact hn j (by omega)
  obtain ⟨n, hn⟩ := hfinite
  exact ⟨n, hn n (Nat.le_refl n)⟩

/-- Where `stop` takes the lock beside a loop that is on its way, a write after
CLOSE_DONGLE is possible. -/
theorem doomed_of_not_quiet {s : State} (htodo : s.todo = []) (hpc : s.stopper = .lock)
    (hfree : s.lock = none) (hidle : ∃ i, s.clients i = .idle) (hquiet : ¬ s.Quiet) :
    Doomed s := by
  obtain ⟨hcl, hfr, hw, hb, htd, hcs⟩ := run_closing htodo hpc hfree
  refine doomed_of_run (List.replicate 4 (.stop .full)) ?_
  generalize run step s (List.replicate 4 (.stop .full)) = t at hcl hfr hw hb htd hcs
  cases hwriter : s.writer with
  | poll => exact doomed_of_poll hcl hfr htd (by rwa [hcs]) (hw.trans hwriter)
  | hand x => exact doomed_of_hand hcl hfr (hw.trans hwriter)
  | header x =>
      refine doomed_of_wire hcl (.write .full) ?_
      simp only [step, writeStep, hw, hwriter, if_true]
      split_ifs <;>
        simpa only [record, transfer, Outcome.sent] using append_headerBytes_ne t.wire x.message
  | payload x hne =>
      refine doomed_of_wire hcl (.write .full) ?_
      simp only [step, writeStep, hw, hwriter, if_true, record, transfer, Outcome.sent]
      simpa using hne
  | check | ended =>
      have hbeat : s.beat.outside = false := by
        by_contra hout
        exact hquiet ⟨by rw [hwriter]; rfl, by simpa using hout⟩
      cases hbpc : s.beat with
      | lock => exact doomed_of_beat hcl hfr htd (hb.trans hbpc)
      | header =>
          refine doomed_of_wire hcl (.beat .full) ?_
          simp only [step, htd, beatStep, hb, hbpc, if_true]
          simpa only [record, transfer, Outcome.sent] using append_headerBytes_ne t.wire heartbeat
      | check | sleep | ended =>
          rw [hbpc] at hbeat
          simp [BeatPc.outside] at hbeat

/-- **When nothing is written after the end.**  In every run in which `stop` takes
`writeLock` for the closing messages while no loop is on its way to it, no byte
follows CLOSE_DONGLE and no transfer is started after the release of the
interface; and a run that gets to an event that breaks the condition can be
continued so that one of them happens. -/
theorem safe_of_closesAlone (todo : List Message) :
    (∀ es, Along step ClosesAlone (start todo) es → Along step Safe (start todo) es) ∧
      ∀ es e, ¬ (run step (start todo) es).ClosesAlone e →
        ∃ fs, ¬ Along step Safe (run step (start todo) es) fs := by
  constructor
  · intro es hes
    exact hes.imp_of_invariant (I := Closing) (fun _ _ h he => closing_step h he)
      (fun _ e h _ => h.safe e) (closing_start todo)
  · intro es e he
    cases e with
    | stop o =>
        simp only [ClosesAlone, Classical.not_imp] at he
        obtain ⟨htodo, hpc, hfree, hquiet⟩ := he
        exact doomed_of_not_quiet htodo hpc hfree (exists_idle todo es) hquiet
    | _ => exact absurd trivial he

/-- A session with one heartbeat that closes alone. -/
theorem safe_of_closesAlone_heartbeat :
    Along step Safe (start (initSequence {} 0))
      (List.replicate 12 .init ++ List.replicate 5 (.write .full) ++
        List.replicate 3 (.beat .full) ++ List.replicate 13 (.stop .full) ++
        List.replicate 5 (.write .full)) :=
  (safe_of_closesAlone _).1 _ (by decide)

/-- A session in which the heartbeat thread passes its test of `running`, all of
`stop` runs, and the heartbeat thread then gets the lock. -/
def lateHeartbeat : List Event :=
  List.replicate 12 .init ++ (.beat .full :: (List.replicate 11 (.stop .full) ++ [.beat .full]))

/-- **A heartbeat after CLOSE_DONGLE, and after the release of the interface.** -/
theorem not_safe_lateHeartbeat :
    ¬ Along step Safe (start (initSequence {} 0)) (lateHeartbeat ++ [.beat .full]) ∧
      (run step (start (initSequence {} 0)) lateHeartbeat).released = true ∧
      (run step (start (initSequence {} 0)) lateHeartbeat).Transfers (.beat .full) := by
  refine ⟨fun hall => ?_, by decide +kernel, by decide +kernel, by decide +kernel⟩
  have hlast := ((along_append _ _ _).1 hall).2.1
  have hwire := hlast.1 (by decide +kernel)
  have hlen := congrArg List.length hwire
  revert hlen
  decide +kernel

end State

end Driver
end Carlinkit
