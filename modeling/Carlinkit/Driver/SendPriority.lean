/-
# A command before old audio

`send` evicts the oldest chunk of audio when the queue is full, so that a command or a
touch finds room.  The look through the queue and the second `offer` are steps of their
own, and the other threads go on: a chunk that was there when the first `offer` was
refused may be gone when the iterator comes by, and the place that an eviction made may
be taken, by audio too.

`heldAudio` keeps for each thread whether the queue held audio when its last `offer` was
refused.  `justified_of_spares` says that a message is rejected beside audio in these two
ways and in no other.
-/

import Carlinkit.Driver.SendLoss

namespace Carlinkit
namespace Driver

open Framing Protocol Machine

/-- The thread is before an `offer`. -/
def SendPc.Offering : SendPc → Prop
  | .offer _ | .again _ => True
  | _ => False

instance : ∀ pc : SendPc, Decidable pc.Offering
  | .offer _ | .again _ => .isTrue trivial
  | .idle | .refused _ | .scanning _ _ => .isFalse id

/-- A thread that was refused, with a message that is not audio, finds audio in this queue,
whatever its iterator misses. -/
def SendPc.Finds (pc : SendPc) (queue : List Outgoing) : Prop :=
  match pc with
  | .refused m => m.type ≠ MessageType.audioData → ∃ o ∈ queue, o.isAudio = true
  | .scanning m seen =>
      m.type ≠ MessageType.audioData → ∃ o ∈ queue, o.isAudio = true ∧ o.id < seen
  | _ => True

/-- The thread that an event moves in `send`. -/
def Event.client : Event → Option ℕ
  | .send i _ => some i
  | _ => none

namespace State

/-- For each thread, whether the queue held audio when its last `offer` was refused. -/
def heldAudio (s : State) (held : ℕ → Bool) : Event → ℕ → Bool
  | .send i _ =>
      if s.todo = [] ∧ (s.clients i).Offering ∧ ¬ s.queue.length < sendQueueCapacity then
        Function.update held i (s.queue.any Outgoing.isAudio)
      else held
  | _ => held

/-- What an event takes out of the queue. -/
def taken (s : State) : Event → Option Outgoing
  | .write _ => if s.writer = .poll then s.queue.head? else none
  | .send i missed =>
      match s.clients i with
      | .scanning _ seen => if s.todo = [] then s.oldestAudio seen missed else none
      | _ => none
  | _ => none

/-- The queue without what an event takes out of it. -/
def left (s : State) (e : Event) : List Outgoing :=
  match s.taken e with
  | some o => s.queue.erase o
  | none => s.queue

end State

/-- The sending threads, and what their refused offers saw. -/
abbrev Held := State × (ℕ → Bool)

/-- The driver in `start`, after the write thread was started. -/
def Held.start (first : List Message) : Held := (State.start first, fun _ => false)

/-- One event. -/
abbrev attend : Held → Event → Held := watched State.step State.heldAudio

/-- A call of `send` that returns false, with a message that is not audio, found the queue
without audio when it was refused last. -/
def Justified (x : Held) : Event → Prop
  | .send i missed => ∀ m : Message, m.type ≠ MessageType.audioData →
      (x.1.step (.send i missed)).returned = x.1.returned ++ [(m, false)] →
        (attend x (.send i missed)).2 i = false
  | _ => True

/-- Nobody takes the last audio from under a thread that was refused beside it, and no
second `offer` of a message that is not audio finds the queue full with audio in it. -/
def Spares (x : Held) (e : Event) : Prop :=
  (∀ o ∈ x.1.taken e, ∀ i, x.2 i = true → e.client ≠ some i →
      (x.1.clients i).Finds (x.1.queue.erase o)) ∧
    ∀ i m, e.client = some i → x.1.clients i = .again m → m.type ≠ MessageType.audioData →
      x.1.queue.length < sendQueueCapacity ∨ ∀ o ∈ x.1.queue, o.isAudio = false

/-- What keeps a refused thread sure of its audio. -/
structure Sure (x : Held) : Prop where
  numbered : ∀ o ∈ x.1.queue, o.id < x.1.accepted.length
  begun : ∀ i, x.1.clients i ≠ .idle → x.1.todo = []
  finds : ∀ i, x.2 i = true → (x.1.clients i).Finds x.1.queue

theorem sure_start (first : List Message) : Sure (.start first) where
  numbered o ho := absurd ho List.not_mem_nil
  begun i hi := absurd rfl hi
  finds i hi := by simp [Held.start] at hi

variable {x : Held}

/-- More in the queue is as good. -/
theorem SendPc.Finds.mono {pc : SendPc} {queue queue' : List Outgoing} (h : pc.Finds queue)
    (hsub : ∀ o ∈ queue, o ∈ queue') : pc.Finds queue' := by
  cases pc with
  | refused m =>
      intro hm
      obtain ⟨o, ho, haudio⟩ := h hm
      exact ⟨o, hsub o ho, haudio⟩
  | scanning m seen =>
      intro hm
      obtain ⟨o, ho, haudio⟩ := h hm
      exact ⟨o, hsub o ho, haudio⟩
  | _ => trivial

/-- Audio that was there before the iterator is found. -/
theorem State.oldestAudio_isSome {s : State} {seen : ℕ} (missed : Bool)
    (h : ∃ o ∈ s.queue, o.isAudio = true ∧ o.id < seen) : (s.oldestAudio seen missed).isSome := by
  obtain ⟨o, ho, haudio, hseen⟩ := h
  rw [State.oldestAudio, List.find?_isSome]
  exact ⟨o, ho, by simp [haudio, hseen]⟩

/-- **When `send` returns false.**  The look through the queue found nothing, or the second
`offer` was refused. -/
theorem State.returned_sendStep_false {s : State} {i : ℕ} {missed : Bool} {m : Message}
    (h : (s.sendStep i missed).returned = s.returned ++ [(m, false)]) :
    (∃ seen, s.clients i = .scanning m seen ∧ s.oldestAudio seen missed = none) ∨
      s.clients i = .again m ∧ ¬ s.queue.length < sendQueueCapacity := by
  have hstay : s.returned ≠ s.returned ++ [(m, false)] := by simp
  have htrue : ∀ m', s.returned ++ [(m', true)] ≠ s.returned ++ [(m, false)] := by simp
  unfold State.sendStep at h
  cases hpc : s.clients i with
  | idle =>
      simp only [hpc] at h
      exact absurd h hstay
  | offer m' =>
      simp only [hpc] at h
      split_ifs at h
      · exact absurd h (htrue m')
      · exact absurd h hstay
  | refused m' =>
      simp only [hpc] at h
      exact absurd h hstay
  | scanning m' seen =>
      simp only [hpc] at h
      cases ho : s.oldestAudio seen missed with
      | some o =>
          simp only [ho] at h
          exact absurd h hstay
      | none =>
          simp only [ho, State.leaveSend, State.setClient] at h
          obtain rfl : m' = m := by simpa using h
          exact .inl ⟨seen, rfl, ho⟩
  | again m' =>
      simp only [hpc] at h
      split_ifs at h with hroom
      · exact absurd h (htrue m')
      · simp only [State.leaveSend, State.setClient] at h
        obtain rfl : m' = m := by simpa using h
        exact .inr ⟨rfl, hroom⟩

/-! ### What a step does to the queue and to the other threads -/

namespace State

variable {s : State}

/-- **One step and the queue.**  It loses what is taken, or gets at most one message more, at
its end. -/
theorem queue_step (s : State) (e : Event) :
    ((s.step e).queue = s.left e ∧ (s.step e).accepted = s.accepted) ∨
      ∃ m, s.taken e = none ∧ (s.step e).queue = s.left e ++ [⟨s.accepted.length, m⟩] ∧
        (s.step e).accepted = s.accepted ++ [m] := by
  unfold left
  cases e with
  | init =>
      simp only [step, initStep, taken]
      cases s.todo with
      | nil => exact .inl ⟨rfl, rfl⟩
      | cons m todo =>
          simp only
          split_ifs
          · exact .inr ⟨m, trivial, rfl, rfl⟩
          · exact .inl ⟨rfl, rfl⟩
  | call i m =>
      simp only [step, taken]
      split_ifs <;> exact .inl ⟨rfl, rfl⟩
  | send i missed =>
      simp only [step, taken]
      split_ifs with htodo
      · unfold sendStep
        cases s.clients i with
        | idle | refused m => exact .inl ⟨rfl, rfl⟩
        | offer m | again m =>
            simp only
            split_ifs
            · exact .inr ⟨m, trivial, rfl, rfl⟩
            · exact .inl ⟨rfl, rfl⟩
        | scanning m seen =>
            simp only
            cases s.oldestAudio seen missed <;> exact .inl ⟨rfl, rfl⟩
      · cases s.clients i <;> exact .inl ⟨rfl, rfl⟩
  | write o =>
      refine .inl ⟨?_, (frame_sends s (e := .write o) trivial).2.2.2.2.1⟩
      simp only [step, writeStep, taken]
      cases hpc : s.writer with
      | poll => cases s.queue <;> simp
      | check | ended => simp
      | hand x | header x | payload x hne =>
          simp only [reduceCtorEq, if_false]
          split_ifs <;> rfl
  | beat o =>
      exact .inl ⟨(frame_queue s o).1, (frame_sends s (e := .beat o) trivial).2.2.2.2.1⟩
  | stop o =>
      exact .inl ⟨(frame_queue s o).2, (frame_sends s (e := .stop o) trivial).2.2.2.2.1⟩

/-- What is not taken stays. -/
theorem mem_queue_step {e : Event} {o : Outgoing} (ho : o ∈ s.left e) : o ∈ (s.step e).queue := by
  rcases queue_step s e with ⟨hqueue, -⟩ | ⟨m, -, hqueue, -⟩
  · rwa [hqueue]
  · rw [hqueue]
    exact List.mem_append_left _ ho

theorem mem_of_mem_left {e : Event} {o : Outgoing} (ho : o ∈ s.left e) : o ∈ s.queue := by
  unfold left at ho
  cases htaken : s.taken e with
  | none => rwa [htaken] at ho
  | some o' =>
      rw [htaken] at ho
      exact List.mem_of_mem_erase ho

/-- A thread that does not move stands where it stood, or begins a call. -/
theorem clients_step (s : State) {e : Event} {i : ℕ} (he : e.client ≠ some i) :
    (s.step e).clients i = s.clients i ∨
      s.todo = [] ∧ s.clients i = .idle ∧ ∃ m, (s.step e).clients i = .offer m := by
  by_cases htransfers : e.Transfers
  · rw [(frame_sends s htransfers).1]
    exact .inl rfl
  cases e with
  | init => exact .inl (congrFun (initStep_frame s).2.2.2.2.2.2.2 i)
  | call j m =>
      simp only [step]
      split_ifs with hcall
      · by_cases hij : i = j
        · subst hij
          exact .inr ⟨hcall.1, hcall.2, m, Function.update_self ..⟩
        · exact .inl (Function.update_of_ne hij ..)
      · exact .inl rfl
  | send j missed =>
      have hij : i ≠ j := fun h => he (congrArg some h.symm)
      refine .inl ?_
      simp only [step]
      split_ifs
      · exact clients_sendStep_of_ne hij missed
      · rfl
  | write o | beat o | stop o => exact absurd trivial htransfers

theorem todo_step (s : State) (e : Event) (h : s.todo = []) : (s.step e).todo = [] := by
  by_cases htransfers : e.Transfers
  · rw [(frame_sends s htransfers).2.2.2.2.2, h]
  cases e with
  | init => simp [step, initStep, h]
  | call j m =>
      simp only [step]
      split_ifs <;> exact h
  | send j missed =>
      simp only [step, if_pos h]
      unfold sendStep
      cases s.clients j with
      | idle | refused m => exact h
      | offer m | again m =>
          simp only
          split_ifs <;> exact h
      | scanning m seen =>
          simp only
          cases s.oldestAudio seen missed <;> exact h
  | write o | beat o | stop o => exact absurd trivial htransfers

theorem heldAudio_of_ne (s : State) (held : ℕ → Bool) {e : Event} {i : ℕ}
    (he : e.client ≠ some i) : s.heldAudio held e i = held i := by
  cases e with
  | send j missed =>
      have hij : i ≠ j := fun h => he (congrArg some h.symm)
      simp only [heldAudio]
      split_ifs
      · exact Function.update_of_ne hij ..
      · rfl
  | _ => rfl

end State

/-! ### Sure of its audio -/

/-- A thread that goes on by itself. -/
theorem Sure.finds_sendStep (h : Sure x) {i : ℕ} {missed : Bool} (htodo : x.1.todo = [])
    (hheld : x.1.heldAudio x.2 (.send i missed) i = true) :
    ((x.1.sendStep i missed).clients i).Finds (x.1.sendStep i missed).queue := by
  have hself : ∀ (s : State) (pc : SendPc), (s.setClient i pc).clients i = pc := fun _ _ =>
    Function.update_self ..
  unfold State.heldAudio at hheld
  unfold State.sendStep
  cases hpc : x.1.clients i with
  | idle =>
      simp only [hpc]
      trivial
  | offer m =>
      simp only [hpc, htodo, SendPc.Offering, true_and] at hheld
      simp only
      split_ifs with hroom
      · simp only [State.leaveSend, hself]
        trivial
      · rw [if_pos hroom, Function.update_self, List.any_eq_true] at hheld
        simp only [hself]
        exact fun _ => hheld
  | refused m =>
      simp only [hpc, SendPc.Offering, false_and, and_false, if_false] at hheld
      have hfinds := h.finds i hheld
      rw [hpc] at hfinds
      simp only [hself]
      intro hm
      obtain ⟨o, ho, haudio⟩ := hfinds hm
      exact ⟨o, ho, haudio, h.numbered o ho⟩
  | scanning m seen =>
      simp only
      cases x.1.oldestAudio seen missed with
      | some o =>
          simp only [hself]
          trivial
      | none =>
          simp only [State.leaveSend, hself]
          trivial
  | again m =>
      simp only
      split_ifs
      · simp only [State.leaveSend, hself]
        trivial
      · simp only [State.leaveSend, hself]
        trivial

theorem Sure.next (h : Sure x) {e : Event} (he : Spares x e) : Sure (attend x e) where
  numbered o ho := by
    rcases State.queue_step x.1 e with ⟨hqueue, haccepted⟩ | ⟨m, -, hqueue, haccepted⟩
    · simp only [watched, hqueue] at ho
      simp only [watched, haccepted]
      exact h.numbered o (State.mem_of_mem_left ho)
    · simp only [watched, hqueue, List.mem_append, List.mem_singleton] at ho
      simp only [watched, haccepted, List.length_append, List.length_singleton]
      rcases ho with ho | rfl
      · exact Nat.lt_succ_of_lt (h.numbered o (State.mem_of_mem_left ho))
      · exact Nat.lt_succ_self _
  begun i hi := by
    by_cases htodo : x.1.todo = []
    · exact State.todo_step x.1 e htodo
    · -- before `start` is over nobody is in `send`
      have hidle : x.1.clients i = .idle := by
        by_contra hne
        exact htodo (h.begun i hne)
      by_cases hclient : e.client = some i
      · cases e with
        | send j missed =>
            simp only [watched, State.step, if_neg htodo] at hi
            exact absurd hidle hi
        | _ => simp [Event.client] at hclient
      · rcases State.clients_step x.1 hclient with hsame | ⟨hnil, -⟩
        · simp only [watched, hsame] at hi
          exact absurd hidle hi
        · exact absurd hnil htodo
  finds i hi := by
    by_cases hclient : e.client = some i
    · cases e with
      | send j missed =>
          obtain rfl : j = i := by simpa [Event.client] using hclient
          by_cases htodo : x.1.todo = []
          · simp only [watched, State.step, if_pos htodo]
            exact h.finds_sendStep htodo hi
          · simp only [watched, State.step, if_neg htodo]
            refine h.finds j ?_
            simpa [watched, State.heldAudio, htodo] using hi
      | _ => simp [Event.client] at hclient
    · have hheld : x.2 i = true := (State.heldAudio_of_ne x.1 x.2 hclient) ▸ hi
      rcases State.clients_step x.1 hclient with hsame | ⟨-, -, m, hoffer⟩
      · have hleft : (x.1.clients i).Finds (x.1.left e) := by
          unfold State.left
          cases htaken : x.1.taken e with
          | none => exact h.finds i hheld
          | some o => exact he.1 o htaken i hheld hclient
        simp only [watched, hsame]
        exact hleft.mono fun o ho => State.mem_queue_step ho
      · simp only [watched, hoffer]
        trivial

theorem Sure.justified (h : Sure x) {e : Event} (he : Spares x e) : Justified x e := by
  cases e with
  | send i missed =>
      intro m hm hreturned
      by_cases htodo : x.1.todo = []
      · simp only [State.step, if_pos htodo] at hreturned
        rcases State.returned_sendStep_false hreturned with ⟨seen, hpc, hnone⟩ | ⟨hpc, hfull⟩
        · have hsame : (attend x (.send i missed)).2 i = x.2 i := by
            simp [watched, State.heldAudio, hpc, SendPc.Offering]
          rw [hsame]
          by_contra hheld
          have hfinds := h.finds i (by simpa using hheld)
          rw [hpc] at hfinds
          have hsome := State.oldestAudio_isSome missed (hfinds hm)
          simp [hnone] at hsome
        · have hnone := (he.2 i m rfl hpc hm).resolve_left hfull
          simp only [watched, State.heldAudio, htodo, hpc, SendPc.Offering, hfull,
            not_false_eq_true, and_self, if_true, Function.update_self, List.any_eq_false]
          exact fun o ho => by simp [hnone o ho]
      · simp [State.step, htodo] at hreturned
  | _ => trivial

/-! ### Where a message is rejected beside audio -/

/-- The look through the queue comes when the audio is gone. -/
theorem not_justified_scanning {i : ℕ} {m : Message} (seen : ℕ) (htodo : x.1.todo = [])
    (hpc : x.1.clients i = .scanning m seen) (hm : m.type ≠ MessageType.audioData)
    (hheld : x.2 i = true) (hgone : ∀ o ∈ x.1.queue, o.isAudio = true → ¬ o.id < seen) :
    ¬ Justified x (.send i true) := by
  have hnone : x.1.oldestAudio seen true = none := by
    rw [State.oldestAudio, List.find?_eq_none]
    intro o ho
    simpa using hgone o ho
  intro hjustified
  have hsame : (attend x (.send i true)).2 i = x.2 i := by
    simp [watched, State.heldAudio, hpc, SendPc.Offering]
  have hfalse := hjustified m hm (by simp [State.step, htodo, State.sendStep, hpc, hnone,
    State.leaveSend, State.setClient])
  rw [hsame, hheld] at hfalse
  simp at hfalse

/-- The thread that was refused beside audio goes on, and finds none. -/
theorem not_justified_refused {i : ℕ} {m : Message} (htodo : x.1.todo = [])
    (hpc : x.1.clients i = .refused m) (hm : m.type ≠ MessageType.audioData)
    (hheld : x.2 i = true) (hgone : ∀ o ∈ x.1.queue, o.isAudio = false) :
    ¬ Along attend Justified x [.send i true, .send i true] := by
  rintro ⟨-, hlast, -⟩
  have hstep : (attend x (.send i true)).1 = x.1.setClient i (.scanning m x.1.accepted.length) := by
    simp [watched, State.step, htodo, State.sendStep, hpc]
  have hsame : (attend x (.send i true)).2 i = x.2 i := by
    simp [watched, State.heldAudio, hpc, SendPc.Offering]
  refine not_justified_scanning x.1.accepted.length ?_ ?_ hm (hsame.trans hheld) ?_ hlast
  · rw [hstep]
    exact htodo
  · rw [hstep]
    exact Function.update_self ..
  · rw [hstep]
    intro o ho haudio
    simp [hgone o ho] at haudio

theorem Sure.doomed (h : Sure x) {e : Event} (he : ¬ Spares x e) :
    ∃ fs, ¬ Along attend Justified x fs := by
  rw [Spares, not_and_or] at he
  rcases he with he | he
  · push Not at he
    obtain ⟨o, htaken, i, hheld, hclient, hfinds⟩ := he
    have hqueue : (x.1.step e).queue = x.1.queue.erase o := by
      rcases State.queue_step x.1 e with ⟨hqueue, -⟩ | ⟨m, hnone, -⟩
      · rw [hqueue, State.left, htaken]
      · simp [hnone] at htaken
    have hheld' : (attend x e).2 i = true := (State.heldAudio_of_ne x.1 x.2 hclient).trans hheld
    have hbusy : x.1.clients i ≠ .idle := by
      intro hidle
      rw [hidle] at hfinds
      exact hfinds trivial
    have htodo : (x.1.step e).todo = [] := State.todo_step x.1 e (h.begun i hbusy)
    have hclients : (x.1.step e).clients i = x.1.clients i := by
      rcases State.clients_step x.1 hclient with hsame | ⟨-, hidle, -⟩
      · exact hsame
      · exact absurd hidle hbusy
    cases hpc : x.1.clients i with
    | refused m =>
        rw [hpc] at hfinds hclients
        simp only [SendPc.Finds, not_forall, not_exists, not_and, Bool.not_eq_true] at hfinds
        obtain ⟨hm, hgone⟩ := hfinds
        refine ⟨e :: [.send i true, .send i true], fun hall => ?_⟩
        refine not_justified_refused htodo hclients hm hheld' ?_ hall.2
        exact hqueue ▸ hgone
    | scanning m seen =>
        rw [hpc] at hfinds hclients
        simp only [SendPc.Finds, not_forall, not_exists, not_and] at hfinds
        obtain ⟨hm, hgone⟩ := hfinds
        refine ⟨e :: [.send i true], fun hall => ?_⟩
        refine not_justified_scanning seen htodo hclients hm hheld' ?_ hall.2.1
        exact hqueue ▸ hgone
    | idle | offer m | again m =>
        rw [hpc] at hfinds
        exact absurd trivial hfinds
  · push Not at he
    obtain ⟨i, m, hclient, hpc, hm, hfull, o, ho, haudio⟩ := he
    cases e with
    | send j missed =>
        obtain rfl : j = i := by simpa [Event.client] using hclient
        have htodo : x.1.todo = [] := h.begun j (by simp [hpc])
        refine ⟨[.send j missed], fun hall => ?_⟩
        have hfalse := hall.1 m hm (by simp [State.step, htodo, State.sendStep, hpc,
          Nat.not_lt.2 hfull, State.leaveSend, State.setClient])
        simp only [watched, State.heldAudio, htodo, hpc, SendPc.Offering, Nat.not_lt.2 hfull,
          not_false_eq_true, and_self, if_true, Function.update_self, List.any_eq_false] at hfalse
        exact haudio (by simpa using hfalse o ho)
    | _ => simp [Event.client] at hclient

/-- **When a command goes before old audio.**  In every run of any number of threads in
`send` with the threads that write: a message that is not audio is rejected only where its
last refused `offer` saw no audio, if nobody takes the last audio from under a thread that
was refused beside it, and no second `offer` of such a message meets a full queue with audio
in it.  From a state where one of the two is about to happen, there is a run that rejects a
message beside audio. -/
theorem justified_of_spares (first : List Message) (es : List Event) :
    (Along attend Spares (.start first) es → Along attend Justified (.start first) es) ∧
      (Along attend Spares (.start first) es → ∀ e, ¬ Spares (run attend (.start first) es) e →
        ∃ fs, ¬ Along attend Justified (run attend (.start first) es) fs) :=
  ⟨fun h => h.imp_of_invariant (I := Sure) (fun _ _ hs he => hs.next he)
      (fun _ _ hs he => hs.justified he) (sure_start first),
    fun h _ he => (h.invariant (I := Sure) (fun _ _ hs he => hs.next he)
      (sure_start first)).doomed he⟩

instance (queue : List Outgoing) : ∀ pc : SendPc, Decidable (pc.Finds queue)
  | .refused _ => inferInstanceAs (Decidable (_ → ∃ o ∈ queue, _))
  | .scanning _ _ => inferInstanceAs (Decidable (_ → ∃ o ∈ queue, _ ∧ _))
  | .idle | .offer _ | .again _ => .isTrue trivial

/-- The thread is before its second `offer`, with a message that is not audio. -/
def SendPc.Presses : SendPc → Prop
  | .again m => m.type ≠ MessageType.audioData
  | _ => False

instance : ∀ pc : SendPc, Decidable pc.Presses
  | .again _ => inferInstanceAs (Decidable (_ ≠ _))
  | .idle | .offer _ | .refused _ | .scanning _ _ => .isFalse id

/-- `Spares`, as far as the threads below `n` go. -/
def SparesBelow (n : ℕ) (x : Held) (e : Event) : Prop :=
  (∀ o ∈ x.1.taken e, ∀ i < n, x.2 i = true → e.client ≠ some i →
      (x.1.clients i).Finds (x.1.queue.erase o)) ∧
    ∀ i < n, e.client = some i → (x.1.clients i).Presses →
      x.1.queue.length < sendQueueCapacity ∨ ∀ o ∈ x.1.queue, o.isAudio = false

instance (n : ℕ) (x : Held) (e : Event) : Decidable (SparesBelow n x e) :=
  inferInstanceAs (Decidable (_ ∧ _))

/-- Where only the threads below `n` send, nobody else has to be spared. -/
theorem along_spares_of_below {n : ℕ} {first : List Message} {es : List Event}
    (hes : ∀ e ∈ es, e.Below n) (h : Along attend (SparesBelow n) (.start first) es) :
    Along attend Spares (.start first) es := by
  refine (h.and (along_of_forall_mem hes _)).imp_of_invariant
    (I := fun x => ∀ i, n ≤ i → x.1.clients i = .idle) ?_ ?_ fun _ _ => rfl
  · exact fun x e hx he => idle_step hx he.2
  · rintro x e hx ⟨⟨hfinds, hroom⟩, -⟩
    constructor
    · intro o ho i hi hclient
      rcases Nat.lt_or_ge i n with hlt | hge
      · exact hfinds o ho i hlt hi hclient
      · rw [hx i hge]
        trivial
    · intro i m hclient hpc hm
      rcases Nat.lt_or_ge i n with hlt | hge
      · exact hroom i hlt hclient (by rwa [hpc])
      · rw [hx i hge] at hpc
        cases hpc

/-- In a full queue a touch takes the place of the one chunk, and the next touch is rejected,
beside no audio. -/
theorem justified_of_spares_crowding :
    Along attend Justified (.start (initSequence {} 0)) crowding ∧
    (run State.step (.start (initSequence {} 0)) crowding).returned.drop 116 =
      [(aTouch, true), (aTouch, false)] :=
  ⟨(justified_of_spares _ _).1 (along_spares_of_below (n := 3) (by decide +kernel)
    (by decide +kernel)), by decide +kernel⟩

/-- **Rejected beside audio.**  A touch evicts a chunk, another chunk takes the place, and
the touch is refused again while the queue is full of audio. -/
theorem not_justified_overtaken :
    ¬ Along attend Justified (.start (initSequence {} 0))
      ((filling ++ Event.call 1 aTouch :: List.replicate 3 (Event.send 1 false) ++
        [Event.call 2 aChunk, Event.send 2 false]) ++ [Event.send 1 false]) := by
  intro hall
  have hlast := ((along_append (P := Justified) _ _ _).1 hall).2.1
  have hfalse := hlast aTouch (by decide) (by decide +kernel)
  exact absurd hfalse (by decide +kernel)

end Driver
end Carlinkit
