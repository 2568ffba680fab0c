/-
# A queue that can be closed

Some threads put things into a queue, others take them out in order, and one thread closes
it: what is still queued is thrown away, what comes later is refused, and whoever waits is
sent away.  Each operation is one critical section, so the interleavings of any number of
threads are the lists of operations.

Besides the queue a `Handoff` remembers where each thing went.  One equation says all of it
(`puts_eq`): what was put, in order, is what was taken, then what was thrown away, then what
is still queued, then what was refused.
-/

import Carlinkit.Machine.Run

namespace Carlinkit
namespace Machine

variable {α : Type*}

/-- A queue that is open until it is closed, and where the things went. -/
structure Handoff (α : Type*) where
  queue : List α
  closed : Bool
  taken : List α
  discarded : List α
  refused : List α
deriving DecidableEq

namespace Handoff

/-- Nobody has come yet. -/
def new : Handoff α := ⟨[], false, [], [], []⟩

/-- Puts a thing at the end. -/
def put (h : Handoff α) (x : α) : Handoff α :=
  if h.closed then { h with refused := h.refused ++ [x] } else { h with queue := h.queue ++ [x] }

/-- Takes the first thing; without one, and with the queue open, the thread waits on. -/
def take (h : Handoff α) : Handoff α :=
  if h.closed then h
  else
    match h.queue with
    | [] => h
    | x :: queue => { h with queue := queue, taken := h.taken ++ [x] }

/-- Closes the queue. -/
def close (h : Handoff α) : Handoff α :=
  { h with queue := [], closed := true, discarded := h.discarded ++ h.queue }

/-- What a thread does to the queue. -/
inductive Op (α : Type*)
  | put (x : α)
  | take
  | close

/-- One operation. -/
def step (h : Handoff α) : Op α → Handoff α
  | .put x => h.put x
  | .take => h.take
  | .close => h.close

/-- The thing that an operation puts. -/
def Op.item : Op α → Option α
  | .put x => some x
  | _ => none

/-- The things that were put, in order. -/
def puts (ops : List (Op α)) : List α := ops.filterMap Op.item

/-- An open queue has thrown nothing away and refused nothing; a closed one is empty. -/
structure Sound (h : Handoff α) : Prop where
  discarded : h.closed = false → h.discarded = []
  refused : h.closed = false → h.refused = []
  queue : h.closed = true → h.queue = []

/-- Where everything is that was put. -/
def contents (h : Handoff α) : List α := h.taken ++ (h.discarded ++ h.queue) ++ h.refused

variable {h : Handoff α}

theorem sound_new : (new : Handoff α).Sound := ⟨fun _ => rfl, fun _ => rfl, (nomatch ·)⟩

@[simp] theorem contents_new : (new : Handoff α).contents = [] := rfl

theorem Sound.step (hs : h.Sound) (op : Op α) : (h.step op).Sound := by
  cases op with
  | put x =>
      simp only [Handoff.step, put]
      split_ifs with hc
      · exact ⟨fun hn => absurd (hc.symm.trans hn) (by simp), fun hn =>
          absurd (hc.symm.trans hn) (by simp), hs.queue⟩
      · exact ⟨hs.discarded, hs.refused, fun hn => absurd hn hc⟩
  | take =>
      simp only [Handoff.step, take]
      split_ifs with hc
      · exact hs
      · cases hq : h.queue with
        | nil => exact hs
        | cons x queue => exact ⟨hs.discarded, hs.refused, fun hn => absurd hn hc⟩
  | close => exact ⟨(nomatch ·), (nomatch ·), fun _ => rfl⟩

/-- An operation puts its thing at the end of the contents and loses none. -/
theorem contents_step (hs : h.Sound) (op : Op α) :
    (h.step op).contents = h.contents ++ op.item.toList := by
  cases op with
  | put x =>
      simp only [Handoff.step, put]
      split_ifs with hc
      · simp [contents, Op.item]
      · simp [contents, Op.item, hs.refused (by simpa using hc)]
  | take =>
      simp only [Handoff.step, take]
      split_ifs with hc
      · simp [Op.item]
      · cases hq : h.queue with
        | nil => simp [Op.item]
        | cons x queue => simp [contents, Op.item, hq, hs.discarded (by simpa using hc)]
  | close => simp [Handoff.step, close, contents, Op.item]

theorem sound_run (hs : h.Sound) (ops : List (Op α)) : (run Handoff.step h ops).Sound :=
  run_invariant (I := Sound) (fun _ op hs => hs.step op) hs ops

theorem contents_run (hs : h.Sound) (ops : List (Op α)) :
    (run Handoff.step h ops).contents = h.contents ++ puts ops := by
  induction ops generalizing h with
  | nil => simp [puts]
  | cons op ops ih =>
      rw [run_cons, ih (hs.step op), contents_step hs, List.append_assoc]
      cases hop : op.item <;> simp [puts, hop]

/-- **Everything that was put is at one place, and in order.** -/
theorem puts_eq (ops : List (Op α)) :
    puts ops = (run Handoff.step new ops).contents := by
  rw [contents_run sound_new, contents_new, List.nil_append]

/-- A closed queue stays as it is, but for what it refuses. -/
theorem step_closed (hs : h.Sound) (hc : h.closed = true) (op : Op α) :
    h.step op = { h with refused := h.refused ++ op.item.toList } := by
  have hq := hs.queue hc
  cases op with
  | put x => simp [Handoff.step, put, hc, Op.item]
  | take => simp [Handoff.step, take, ← hc, Op.item]
  | close => simp [Handoff.step, close, hq, ← hc, Op.item]

/-- **After `close` nothing is taken any more.** -/
theorem run_closed (hs : h.Sound) (hc : h.closed = true) (ops : List (Op α)) :
    run Handoff.step h ops = { h with refused := h.refused ++ puts ops } := by
  induction ops generalizing h with
  | nil => simp [puts]
  | cons op ops ih =>
      rw [run_cons, ih (hs.step op) (by rw [step_closed hs hc]; exact hc), step_closed hs hc]
      cases hop : op.item <;> simp [puts, hop]

end Handoff
end Machine
end Carlinkit
