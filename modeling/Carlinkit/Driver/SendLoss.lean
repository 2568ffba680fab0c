/-
# What the counter of dropped messages counts

`send` offers its message, evicts a chunk of audio when the queue is full, and offers it
again; another thread can take the place in between.  `sendDropped` is raised once in
every call that lost something.  Three accounts are kept over every run of the threads of
`Carlinkit.Driver.WriteSide`: where the accepted messages are (`located_step`), how the
calls came back (`answered_step`), and what was counted (`charged_step`).

`counted_iff` puts them together.  A call that evicts a chunk and is refused again loses
two messages and counts one; every other call counts what it loses.
-/

import Carlinkit.Driver.WriteSide
import Carlinkit.Machine.Threads

namespace Carlinkit
namespace Driver

open Framing Protocol Machine

/-- The thread evicted a message and did not count it yet. -/
def SendPc.Retrying : SendPc → Prop
  | .again _ => True
  | _ => False

instance : ∀ pc : SendPc, Decidable pc.Retrying
  | .again _ => .isTrue trivial
  | .idle | .offer _ | .refused _ | .scanning _ _ => .isFalse id

/-- The event is one of a thread that writes. -/
def Event.Transfers : Event → Prop
  | .write _ | .beat _ | .stop _ => True
  | .init | .call _ _ | .send _ _ => False

namespace State

/-- `WriteLoop` takes a message from the queue. -/
def polls (s : State) : Event → ℕ
  | .write _ => if s.writer = .poll ∧ s.queue ≠ [] then 1 else 0
  | _ => 0

/-- A second `offer` finds room in the queue. -/
def RetryFindsRoom (s : State) : Event → Prop
  | .send i _ => s.todo = [] → (s.clients i).Retrying → s.queue.length < sendQueueCapacity
  | _ => True

instance (s : State) : ∀ e, Decidable (s.RetryFindsRoom e)
  | .send .. => inferInstanceAs (Decidable (_ = _ → _ → _ < _))
  | .init | .call _ _ | .write _ | .beat _ | .stop _ => .isTrue trivial

/-- The second offers that are refused. -/
def refusals (s : State) (e : Event) : ℕ := if s.RetryFindsRoom e then 0 else 1

/-- The calls of `send` that have come back: those of `sendInitSequence`, which has the
messages `first`, and those of the threads. -/
def completed (first : List Message) (s : State) : ℕ :=
  (first.length - s.todo.length) + s.returned.length

/-- The calls of `send` that returned false. -/
def rejected (s : State) : ℕ := s.returned.countP fun r => !r.2

/-- Every call that came back is accounted for by a message that the write thread took, one
in the queue, or one that was counted as dropped; and what was counted are the evicted
messages and the rejected ones, each once. -/
def Counted (first : List Message) (polled : ℕ) (s : State) : Prop :=
  s.completed first = polled + s.queue.length + s.sendDropped ∧
    s.sendDropped = s.evicted.length + s.rejected

instance (first : List Message) (polled : ℕ) (s : State) : Decidable (s.Counted first polled) :=
  inferInstanceAs (Decidable (_ ∧ _))

/-! ### The three accounts -/

/-- Where the accepted messages are. -/
def Located (s : State) (polled : ℕ) : Prop :=
  s.accepted.length = polled + s.queue.length + s.evicted.length

/-- How the calls came back. -/
def Answered (first : List Message) (s : State) : Prop :=
  s.todo.length ≤ first.length ∧ s.completed first = s.accepted.length + s.rejected

/-- What was counted: every loss but those of a thread that is still at it, and those of
the refused second offers. -/
def Charged (s : State) (refused : ℕ) : Prop :=
  ∃ l, Roster l SendPc.Retrying s.clients ∧
    s.sendDropped + l.card + refused = s.evicted.length + s.rejected

variable {s : State} {first : List Message} {n : ℕ}

theorem length_evict {o : Outgoing} (ho : o ∈ s.queue) :
    (s.evict o).queue.length + 1 = s.queue.length :=
  List.length_erase_add_one ho

theorem rejected_leaveSend (i : ℕ) (m : Message) (result : Bool) :
    (s.leaveSend i m result).rejected = s.rejected + if result then 0 else 1 := by
  cases result <;> simp [rejected, leaveSend, setClient]

/-- A step that leaves the queue and its records alone. -/
theorem Located.same (h : s.Located n) {s' : State} (haccepted : s'.accepted = s.accepted)
    (hqueue : s'.queue = s.queue) (hevicted : s'.evicted = s.evicted) : s'.Located n := by
  rw [Located, haccepted, hqueue, hevicted]
  exact h

theorem Located.accept (h : s.Located n) (m : Message) : (s.accept m).Located n := by
  simp only [Located, State.accept, List.length_append, List.length_singleton] at h ⊢
  omega

theorem Located.evict (h : s.Located n) {o : Outgoing} (ho : o ∈ s.queue) :
    (s.evict o).Located n := by
  have hlen := length_evict ho
  simp only [Located, State.evict, List.length_append, List.length_singleton] at h hlen ⊢
  omega

/-- The threads that write leave the calls of `send` and their records alone. -/
theorem frame_sends (s : State) {e : Event} (he : e.Transfers) :
    (s.step e).clients = s.clients ∧ (s.step e).sendDropped = s.sendDropped ∧
      (s.step e).evicted = s.evicted ∧ (s.step e).returned = s.returned ∧
      (s.step e).accepted = s.accepted ∧ (s.step e).todo = s.todo := by
  cases e with
  | init | call i m | send i missed => exact he.elim
  | write o =>
      simp only [step, writeStep]
      split <;> try split
      all_goals try split_ifs
      all_goals exact ⟨rfl, rfl, rfl, rfl, rfl, rfl⟩
  | beat o =>
      simp only [step, beatStep]
      split_ifs <;> try split
      all_goals exact ⟨rfl, rfl, rfl, rfl, rfl, rfl⟩
  | stop o =>
      simp only [step, stopStep]
      split_ifs <;> try split
      all_goals exact ⟨rfl, rfl, rfl, rfl, rfl, rfl⟩

/-- A thread in `send` leaves the others where they are. -/
theorem clients_sendStep_of_ne {i j : ℕ} (hij : j ≠ i) (missed : Bool) :
    (s.sendStep i missed).clients j = s.clients j := by
  unfold sendStep
  cases s.clients i with
  | idle => rfl
  | refused m => exact Function.update_of_ne hij ..
  | offer m | again m =>
      simp only
      split_ifs <;> exact Function.update_of_ne hij ..
  | scanning m seen =>
      simp only
      cases s.oldestAudio seen missed <;> exact Function.update_of_ne hij ..

/-- The heartbeat and `stop` leave the queue alone. -/
theorem frame_queue (s : State) (o : Outcome) :
    (s.step (.beat o)).queue = s.queue ∧ (s.step (.stop o)).queue = s.queue := by
  constructor
  · simp only [step, beatStep]
    split_ifs <;> try split
    all_goals rfl
  · simp only [step, stopStep]
    split_ifs <;> try split
    all_goals rfl

/-- What a scan found is in the queue. -/
theorem mem_queue_of_oldestAudio {seen : ℕ} {missed : Bool} {o : Outgoing}
    (ho : s.oldestAudio seen missed = some o) : o ∈ s.queue :=
  List.mem_of_find?_eq_some ho

theorem located_sendStep (h : s.Located n) (i : ℕ) (missed : Bool) :
    (s.sendStep i missed).Located n := by
  unfold sendStep
  cases s.clients i with
  | idle => exact h
  | offer m =>
      simp only
      split_ifs
      · exact (h.accept m).same rfl rfl rfl
      · exact h.same rfl rfl rfl
  | refused m => exact h.same rfl rfl rfl
  | scanning m seen =>
      simp only
      cases ho : s.oldestAudio seen missed with
      | some o => exact (h.evict (mem_queue_of_oldestAudio ho)).same rfl rfl rfl
      | none => exact h.same rfl rfl rfl
  | again m =>
      simp only
      split_ifs
      · exact (h.accept m).same rfl rfl rfl
      · exact h.same rfl rfl rfl

theorem located_writeStep (h : s.Located n) (o : Outcome) :
    (s.writeStep o).Located (n + s.polls (.write o)) := by
  unfold polls writeStep
  cases hpc : s.writer with
  | poll =>
      cases hqueue : s.queue with
      | nil => simpa [Located, hqueue] using h
      | cons x queue =>
          simp only [Located, hqueue, List.length_cons] at h
          simp only [Located, ne_eq, reduceCtorEq, not_false_eq_true, and_self, if_true]
          omega
  | check | ended => exact h.same rfl rfl rfl
  | hand x | header x | payload x hne =>
      simp only [reduceCtorEq, false_and, if_false]
      split_ifs <;> exact h.same rfl rfl rfl

theorem located_step (e : Event) (h : s.Located n) : (s.step e).Located (n + s.polls e) := by
  cases e with
  | init =>
      simp only [step, initStep]
      cases s.todo with
      | nil => exact h
      | cons m todo =>
          simp only
          split_ifs
          · exact (h.accept m).same rfl rfl rfl
          · exact h
  | call i m =>
      simp only [step]
      split_ifs
      · exact h.same rfl rfl rfl
      · exact h
  | send i missed =>
      simp only [step]
      split_ifs
      · exact located_sendStep h i missed
      · exact h
  | write o => exact located_writeStep h o
  | beat o =>
      obtain ⟨-, -, hevicted, -, haccepted, -⟩ := frame_sends s (e := .beat o) trivial
      exact h.same haccepted (frame_queue s o).1 hevicted
  | stop o =>
      obtain ⟨-, -, hevicted, -, haccepted, -⟩ := frame_sends s (e := .stop o) trivial
      exact h.same haccepted (frame_queue s o).2 hevicted

/-- A step after which as many calls have come back. -/
theorem Answered.same (h : s.Answered first) {s' : State} (htodo : s'.todo = s.todo)
    (haccepted : s'.accepted = s.accepted) (hreturned : s'.returned = s.returned) :
    s'.Answered first := by
  rw [Answered, completed, rejected, htodo, haccepted, hreturned]
  exact h

/-- A call comes back, with true for an accepted message. -/
theorem Answered.leaveSend (h : s.Answered first) {s' : State} (i : ℕ) (m : Message)
    {result : Bool} (htodo : s'.todo = s.todo) (hreturned : s'.returned = s.returned)
    (haccepted : s'.accepted.length = s.accepted.length + if result then 1 else 0) :
    (s'.leaveSend i m result).Answered first := by
  have hrejected := rejected_leaveSend (s := s') i m result
  have hsame : s'.rejected = s.rejected := by rw [rejected, hreturned, rejected]
  obtain ⟨hle, hcount⟩ := h
  refine ⟨htodo ▸ hle, ?_⟩
  show (first.length - s'.todo.length) + (s'.returned ++ [(m, result)]).length =
    s'.accepted.length + _
  rw [completed] at hcount
  rw [hrejected, hsame, htodo, hreturned, haccepted, List.length_append, List.length_singleton]
  cases result <;> simp only [Bool.false_eq_true, if_true, if_false] <;> omega

theorem answered_sendStep (h : s.Answered first) (i : ℕ) (missed : Bool) :
    (s.sendStep i missed).Answered first := by
  unfold sendStep
  cases s.clients i with
  | idle => exact h
  | offer m =>
      simp only
      split_ifs
      · exact h.leaveSend i m rfl rfl (by simp [State.accept])
      · exact h.same rfl rfl rfl
  | refused m => exact h.same rfl rfl rfl
  | scanning m seen =>
      simp only
      cases s.oldestAudio seen missed with
      | some o => exact h.same rfl rfl rfl
      | none => exact h.leaveSend i m rfl rfl rfl
  | again m =>
      simp only
      split_ifs
      · exact h.leaveSend i m rfl rfl (by simp [State.accept])
      · exact h.leaveSend i m rfl rfl rfl

theorem answered_step (e : Event) (h : s.Answered first) : (s.step e).Answered first := by
  by_cases he : e.Transfers
  · obtain ⟨-, -, -, hreturned, haccepted, htodo⟩ := frame_sends s he
    exact h.same htodo haccepted hreturned
  cases e with
  | init =>
      simp only [step, initStep]
      cases htodo : s.todo with
      | nil => exact h
      | cons m todo =>
          obtain ⟨hle, hcount⟩ := id h
          simp only [completed, htodo, List.length_cons] at hle hcount
          simp only
          split_ifs
          · refine ⟨by simp only; omega, ?_⟩
            show (first.length - todo.length) + s.returned.length =
              (s.accepted ++ [m]).length + s.rejected
            rw [List.length_append, List.length_singleton]
            omega
          · exact h
  | call i m =>
      simp only [step]
      split_ifs <;> exact h.same rfl rfl rfl
  | send i missed =>
      simp only [step]
      split_ifs
      · exact answered_sendStep h i missed
      · exact h
  | write o | beat o | stop o => exact absurd trivial he

/-- A step after which the same threads are at it, and as much was counted and lost. -/
theorem Charged.same (h : s.Charged n) {s' : State} (hclients : s'.clients = s.clients)
    (hdropped : s'.sendDropped = s.sendDropped) (hevicted : s'.evicted = s.evicted)
    (hreturned : s'.returned = s.returned) : s'.Charged n := by
  rw [Charged, hclients, hdropped, hevicted, rejected, hreturned]
  exact h

/-- A thread goes on in `send`, with nothing to count. -/
theorem Charged.setClient (h : s.Charged n) {i : ℕ} {pc : SendPc}
    (hpc : pc.Retrying ↔ (s.clients i).Retrying) : (s.setClient i pc).Charged n := by
  obtain ⟨l, hl, hcount⟩ := h
  exact ⟨l, hl.stays hpc, hcount⟩

theorem charged_sendStep (h : s.Charged n) (i : ℕ) (missed : Bool) :
    (s.sendStep i missed).Charged
      (n + if (s.clients i).Retrying → s.queue.length < sendQueueCapacity then 0 else 1) := by
  obtain ⟨l, hl, hcount⟩ := id h
  unfold sendStep
  cases hpc : s.clients i with
  | idle =>
      simp only [SendPc.Retrying, false_implies, if_true]
      exact h
  | offer m =>
      simp only [SendPc.Retrying, false_implies, if_true]
      split_ifs
      · refine ⟨l, hl.stays (by simp [hpc, SendPc.Retrying]), ?_⟩
        rw [rejected_leaveSend]
        exact hcount
      · exact h.setClient (by simp [hpc, SendPc.Retrying])
  | refused m =>
      simp only [SendPc.Retrying, false_implies, if_true]
      exact h.setClient (by simp [hpc, SendPc.Retrying])
  | scanning m seen =>
      simp only [SendPc.Retrying, false_implies, if_true]
      cases ho : s.oldestAudio seen missed with
      | some o =>
          obtain ⟨l', hl', hcard⟩ := hl.enters (i := i) (a := SendPc.again m) trivial
            (by simp [hpc, SendPc.Retrying])
          refine ⟨l', hl', ?_⟩
          show s.sendDropped + l'.card + _ = (s.evicted ++ [o]).length + s.rejected
          rw [List.length_append, List.length_singleton]
          omega
      | none =>
          refine ⟨l, hl.stays (by simp [hpc, SendPc.Retrying]), ?_⟩
          rw [rejected_leaveSend]
          show s.sendDropped + 1 + l.card + _ = s.evicted.length + (s.rejected + _)
          simp only [Bool.false_eq_true, if_false]
          omega
  | again m =>
      simp only [SendPc.Retrying, true_implies]
      obtain ⟨l', hl', hcard⟩ := hl.leaves (i := i) (a := SendPc.idle) id
        (by simp [hpc, SendPc.Retrying])
      split_ifs
      · refine ⟨l', hl', ?_⟩
        rw [rejected_leaveSend]
        show s.sendDropped + 1 + l'.card + _ = s.evicted.length + (s.rejected + _)
        simp only [if_true]
        omega
      · refine ⟨l', hl', ?_⟩
        rw [rejected_leaveSend]
        show s.sendDropped + 1 + l'.card + _ = s.evicted.length + (s.rejected + _)
        simp only [Bool.false_eq_true, if_false]
        omega

theorem charged_step (e : Event) (h : s.Charged n) : (s.step e).Charged (n + s.refusals e) := by
  by_cases he : e.Transfers
  · obtain ⟨hclients, hdropped, hevicted, hreturned, -⟩ := frame_sends s he
    have hnone : s.refusals e = 0 := by cases e <;> first | exact if_pos trivial | exact he.elim
    rw [hnone]
    exact h.same hclients hdropped hevicted hreturned
  cases e with
  | init =>
      rw [show s.refusals .init = 0 from if_pos trivial]
      simp only [step, initStep]
      cases s.todo with
      | nil => exact h
      | cons m todo =>
          simp only
          split_ifs <;> exact h
  | call i m =>
      rw [show s.refusals (.call i m) = 0 from if_pos trivial]
      simp only [step]
      split_ifs with hcall
      · exact h.setClient (by simp [hcall.2, SendPc.Retrying])
      · exact h
  | send i missed =>
      simp only [step, refusals, RetryFindsRoom]
      by_cases htodo : s.todo = []
      · simp only [htodo, true_implies, if_true]
        exact charged_sendStep h i missed
      · simp only [htodo, false_implies, if_true, if_false]
        exact h
  | write o | beat o | stop o => exact absurd trivial he

end State

open State

/-- **What the counter says.**  In every run of any number of threads in `send` with the
write thread, the heartbeat and `stop`, whenever no thread is between its eviction and
its second `offer`: everything is counted, once, exactly when every second `offer` so far
found room. -/
theorem counted_iff (first : List Message) (es : List Event)
    (hsettled : ∀ i, ¬ ((run step (start first) es).clients i).Retrying) :
    (run step (start first) es).Counted first (tally step polls (start first) es) ↔
      Along step RetryFindsRoom (start first) es := by
  have hstart : (start first).Located 0 := rfl
  have hlocated : (run step (start first) es).Located (0 + tally step polls (start first) es) :=
    tally_invariant (fun _ e _ h => located_step e h) hstart es
  have hanswered : (run step (start first) es).Answered first :=
    run_invariant (fun _ e h => answered_step e h) ⟨le_rfl, by simp [completed, start, rejected]⟩ es
  obtain ⟨l, hl, hcharged⟩ :
      (run step (start first) es).Charged (0 + tally step refusals (start first) es) :=
    tally_invariant (fun _ e _ h => charged_step e h)
      ⟨∅, fun i => by simp [start, SendPc.Retrying], by simp [start, rejected]⟩ es
  have hnone : tally step refusals (start first) es = 0 ↔
      Along step RetryFindsRoom (start first) es := by
    simp only [tally_eq_zero_iff, refusals, ite_eq_left_iff, one_ne_zero, imp_false, not_not]
  rw [← hnone]
  rw [hl.eq_empty hsettled, Finset.card_empty] at hcharged
  obtain ⟨-, hanswered⟩ := hanswered
  rw [Located] at hlocated
  rw [Counted]
  omega

/-- A touch. -/
def aTouch : Message := ⟨MessageType.touch, List.replicate 16 0, by decide⟩

/-- A chunk of audio. -/
def aChunk : Message := ⟨MessageType.audioData, List.replicate 12 0, by decide⟩

/-- The init sequence and audio fill the queue. -/
def filling : List Event :=
  List.replicate 12 Event.init ++
    (List.replicate 116 [Event.call 0 aChunk, Event.send 0 false]).flatten

/-- A thread calls `send`, and goes on in it. -/
def sending (i : ℕ) (m : Message) (steps : ℕ) : List Event :=
  .call i m :: List.replicate steps (.send i false)

/-- The init sequence, touches and one chunk fill the queue.  A touch takes the place of the
chunk, and the next one is rejected, beside no audio. -/
def crowding : List Event :=
  List.replicate 12 Event.init ++ (List.replicate 115 (sending 0 aTouch 1)).flatten ++
    sending 0 aChunk 1 ++ sending 1 aTouch 4 ++ sending 2 aTouch 3

/-- The event is not one of a thread in `send` from number `n` on. -/
def Event.Below (n : ℕ) : Event → Prop
  | .call i _ | .send i _ => i < n
  | _ => True

instance (n : ℕ) : ∀ e : Event, Decidable (e.Below n)
  | .call i _ | .send i _ => inferInstanceAs (Decidable (i < n))
  | .init | .write _ | .beat _ | .stop _ => .isTrue trivial

/-- Who does not call `send` stays outside. -/
theorem idle_step {s : State} {n : ℕ} {e : Event} (h : ∀ i, n ≤ i → s.clients i = .idle)
    (he : e.Below n) : ∀ i, n ≤ i → (s.step e).clients i = .idle := by
  intro i hi
  by_cases htransfers : e.Transfers
  · rw [(frame_sends s htransfers).1]
    exact h i hi
  cases e with
  | init => exact (congrFun (initStep_frame s).2.2.2.2.2.2.2 i).trans (h i hi)
  | call j m =>
      have hij : i ≠ j := (Nat.lt_of_lt_of_le he hi).ne'
      simp only [step]
      split_ifs
      · exact (Function.update_of_ne hij ..).trans (h i hi)
      · exact h i hi
  | send j missed =>
      have hij : i ≠ j := (Nat.lt_of_lt_of_le he hi).ne'
      simp only [step]
      split_ifs
      · exact (clients_sendStep_of_ne hij missed).trans (h i hi)
      · exact h i hi
  | write o | beat o | stop o => exact absurd trivial htransfers

theorem idle_run {n : ℕ} {first : List Message} {es : List Event} (hes : ∀ e ∈ es, e.Below n) :
    ∀ i, n ≤ i → (run step (start first) es).clients i = .idle :=
  (along_of_forall_mem hes _).invariant (I := fun s : State => ∀ i, n ≤ i → s.clients i = .idle)
    (fun _ _ h he => idle_step h he) fun _ _ => rfl

/-- The queue is crowded, and then the write thread takes a message. -/
theorem counted_iff_crowding :
    let es := crowding ++ List.replicate 5 (Event.write .full)
    (run step (start (initSequence {} 0)) es).Counted (initSequence {} 0)
      (tally step polls (start (initSequence {} 0)) es) := by
  intro es
  refine (counted_iff (initSequence {} 0) es fun i => ?_).2 (by decide +kernel)
  rcases Nat.lt_or_ge i 3 with hi | hi
  · have hidle : ∀ i < 3, (run step (start (initSequence {} 0)) es).clients i = .idle := by
      decide +kernel
    rw [hidle i hi]
    exact id
  · rw [idle_run (n := 3) (by decide +kernel) i hi]
    exact id

/-- **Two lost, one counted.**  A touch evicts a chunk of audio, another thread's chunk
takes the place, and the touch is refused again. -/
theorem not_counted_overtaken :
    let es := filling ++ Event.call 1 aTouch :: List.replicate 3 (Event.send 1 false) ++
      [Event.call 2 aChunk, Event.send 2 false, Event.send 1 false]
    ¬ (run step (start (initSequence {} 0)) es).Counted (initSequence {} 0)
      (tally step polls (start (initSequence {} 0)) es) := by
  decide +kernel

end Driver
end Carlinkit
