/-
# What becomes of the works that are offered

Every work that is offered to the audio queue is polled by the worker, waits in the queue or
is counted in `audioQueueDropped`, once its offer is over: that is what the number is for.
`counted_run` says when: as long as no overflow of `offerControl` clears more or fewer works
than it counted before, and no control is refused after such a clear.

A work that was offered and is not accounted for yet, and a work that was removed from the
queue and is not counted yet, are in the hands of a thread (`Ledger.owes`).  The balance
(`Balanced`) holds at every step, with what all threads owe.
-/

import Carlinkit.App.QueueMoves
import Carlinkit.Machine.Threads

namespace Carlinkit
namespace App
namespace Audio

open Framing Protocol Machine

/-- How many works the thread has in `offerPcm`: its own, and those that it removed and did not
count yet. -/
def PcmPc.owes : PcmPc → ℕ
  | .trim n | .trimDrop n | .trimScan n _ => n + 1
  | .trimmed n _ => n + 2
  | .dropped _ | .again => 2
  | _ => 1

/-- How many works the thread has in `offerControl`, when its clear removed `cleared`. -/
def ControlPc.owes (cleared : ℕ) : ControlPc → ℕ
  | .drop n | .scan n _ => n + 1
  | .dropped n _ => n + 2
  | .clear _ | .clearing .. => cleared + 1
  | _ => 1

/-- What the clear of a thread has removed after a step from `b` to `b'`. -/
def Buffers.clears (b b' : Buffers) (cleared : ℕ) : Option Offering → ℕ
  | some (.control _ .discard) => 0
  | some (.control _ (.clear _)) => cleared + (b.queue.length - b'.queue.length)
  | _ => cleared

/-- What was offered and polled since `start` set the count to zero. -/
structure Ledger where
  /-- Neither `stop` nor another `start` clears the queue. -/
  live : Bool
  offered : ℕ
  polled : ℕ
  /-- What the clear of a thread in `offerControl` removed. -/
  cleared : Thread → ℕ

namespace Ledger

/-- Before anything was started. -/
def new : Ledger := ⟨false, 0, 0, fun _ => 0⟩

/-- A `start` goes on. -/
def fresh : Ledger := ⟨true, 0, 0, fun _ => 0⟩

/-- A thread that may offer goes on. -/
def serve (l : Ledger) (s : State) (e : Event) : Ledger :=
  { l with
    offered :=
      if s.offering e.thread = none ∧ ((s.step e).offering e.thread).isSome then l.offered + 1
      else l.offered
    cleared := Function.update l.cleared e.thread
      (s.buffers.clears (s.step e).buffers (l.cleared e.thread) (s.offering e.thread)) }

/-- What the ledger keeps of an event. -/
def see (s : State) (l : Ledger) (e : Event) : Ledger :=
  match e with
  | .read _ => l.serve s e
  | .caller i _ _ =>
      if s.callers i = .startReset then fresh
      else if (s.callers i).Clearing then { l with live := false }
      else l.serve s e
  | .worker _ _ =>
      { l with polled := l.polled + (s.buffers.queue.length - (s.step e).buffers.queue.length) }
  | _ => l

/-- What a thread owes to the count. -/
def owes (l : Ledger) (th : Thread) : Option Offering → ℕ
  | none => 0
  | some (.pcm _ pc) => pc.owes
  | some (.control _ pc) => pc.owes (l.cleared th)

end Ledger

namespace Buffers

/-- The clear of an offer ends with as many works removed as were counted, and its last offer
is not refused. -/
def Exact (b : Buffers) (cleared : ℕ) : Option Offering → Prop
  | some (.control _ (.clear n)) => b.queue = [] → cleared = n
  | some (.control _ .last) => b.HasRoom
  | _ => True

instance (b : Buffers) (cleared : ℕ) : ∀ o, Decidable (b.Exact cleared o) := fun o => by
  unfold Exact
  split <;> infer_instance

variable {b : Buffers}

theorem length_poll {item : Item} {b' : Buffers} (h : b.poll = some (item, b')) :
    b.queue.length = b'.queue.length + 1 ∧ b'.audioQueueDropped = b.audioQueueDropped := by
  obtain ⟨w, queue, hq, -, rfl⟩ := poll_eq_some h
  exact ⟨by rw [hq, List.length_cons], rfl⟩

theorem poll_eq_none {b : Buffers} (h : b.poll = none) : b.queue = [] := by
  unfold poll at h
  cases hq : b.queue with
  | nil => rfl
  | cons w queue => simp [hq] at h

theorem length_evict {seen : ℕ} {missed : Bool} {x : Work × Pcm}
    (h : b.oldestPcm seen missed = some x) :
    b.queue.length = (b.evict x.1).queue.length + 1 := by
  have hmem := (mem_of_oldestPcm (w := x.1) (q := x.2) h).1
  have hpos := List.length_pos_of_mem hmem
  rw [evict, List.length_erase_of_mem hmem]
  omega

/-- A step of `offerPcm` only moves works between the queue, the count and the thread. -/
theorem balance_offerPcm (b : Buffers) (p : Pcm) (missed : Bool) (pc : PcmPc) :
    (b.offerPcm p missed pc).1.queue.length + (b.offerPcm p missed pc).1.audioQueueDropped +
      ((b.offerPcm p missed pc).2.elim 0 PcmPc.owes) =
    b.queue.length + b.audioQueueDropped + pc.owes := by
  have hrecycle := fun a => sameQueue_recycle b a
  unfold offerPcm
  cases pc with
  | size => simp only; split_ifs <;> rfl
  | trim n =>
      simp only
      split_ifs
      · rfl
      · simp only [drop, PcmPc.owes, Option.elim_some]
        omega
  | trimDrop n | drop => rfl
  | trimScan n seen =>
      simp only
      cases hx : b.oldestPcm seen missed with
      | some x =>
          have hlength := length_evict hx
          simp only [PcmPc.owes, Option.elim_some, evict] at hlength ⊢
          omega
      | none =>
          simp only [drop, PcmPc.owes, Option.elim_some]
          omega
  | trimmed n a | dropped a =>
      simp only [(hrecycle a).queue, (hrecycle a).dropped]
      rfl
  | offer =>
      simp only
      split_ifs
      · simp [accept, PcmPc.owes]
        omega
      · rfl
  | scan seen =>
      simp only
      cases hx : b.oldestPcm seen missed with
      | some x =>
          have hlength := length_evict hx
          simp only [PcmPc.owes, Option.elim_some, evict] at hlength ⊢
          omega
      | none => rfl
  | again =>
      simp only
      split_ifs
      · simp [accept, drop, PcmPc.owes]
        omega
      · simp only [drop, PcmPc.owes, Option.elim_some]
        omega
  | refuse =>
      simp only [drop, (hrecycle p.array).queue, (hrecycle p.array).dropped, PcmPc.owes,
        Option.elim_none]
      omega

/-- The same of a step of `offerControl`, where its clear is exact. -/
theorem balance_offerControl {c : Control} {pc : ControlPc} {k : ℕ}
    (h : b.Exact k (some (.control c pc))) (missed : Bool) :
    (b.offerControl c missed pc).1.queue.length +
      (b.offerControl c missed pc).1.audioQueueDropped +
      ((b.offerControl c missed pc).2.elim 0 (ControlPc.owes
        (b.clears (b.offerControl c missed pc).1 k (some (.control c pc))))) =
    b.queue.length + b.audioQueueDropped + pc.owes k := by
  have hrecycle := fun a => sameQueue_recycle b a
  unfold offerControl
  cases pc with
  | drop n | discard => rfl
  | scan n seen =>
      simp only
      cases hx : b.oldestPcm seen missed with
      | some x =>
          have hlength := length_evict hx
          simp only [ControlPc.owes, Option.elim_some, evict] at hlength ⊢
          omega
      | none =>
          simp only [Buffers.drop, ControlPc.owes, Option.elim_some]
          omega
  | dropped n a | clearing n a =>
      simp only [(hrecycle a).queue, (hrecycle a).dropped]
      rfl
  | offer =>
      simp only
      split_ifs
      · simp [accept, ControlPc.owes]
        omega
      · rfl
  | clear n =>
      simp only
      cases hpoll : b.poll with
      | none =>
          -- the count at the end is what was removed
          have hk : k = n := h (poll_eq_none hpoll)
          simp only [Buffers.drop, ControlPc.owes, Option.elim_some]
          omega
      | some polled =>
          obtain ⟨item, b'⟩ := polled
          obtain ⟨hlength, hdropped⟩ := length_poll hpoll
          cases item with
          | pcm p | control d =>
              simp only [clears, ControlPc.owes, Option.elim_some]
              omega
  | last =>
      simp only [if_pos (show b.HasRoom from h)]
      simp [accept, ControlPc.owes]
      omega

end Buffers

/-- The player with its ledger. -/
abbrev Counting := State × Ledger

namespace Counting

/-- One event. -/
def step : Counting → Event → Counting := watched State.step Ledger.see

/-- A new player, with nothing in the ledger. -/
def new : Counting := (Audio.new, Ledger.new)

/-- The clears of the offers are exact, and nothing is offered, or left in the queue, when
`start` sets the count to zero. -/
def Exact (x : Counting) : Event → Prop
  | .read _ => x.1.buffers.Exact (x.2.cleared .reader) (x.1.offering .reader)
  | .caller i _ _ =>
      x.1.buffers.Exact (x.2.cleared (.caller i)) (x.1.offering (.caller i)) ∧
        (x.1.callers i = .startReset → x.1.buffers.queue = [] ∧ ∀ th, x.1.offering th = none)
  | _ => True

/-- What is owed by the threads on a list. -/
def owed (x : Counting) (T : Finset Thread) : ℕ := ∑ th ∈ T, x.2.owes th (x.1.offering th)

/-- What was offered since the last `start` is accounted for. -/
def Balanced (T : Finset Thread) (x : Counting) : Prop :=
  x.2.live = true → x.2.offered =
    x.2.polled + x.1.buffers.queue.length + x.1.buffers.audioQueueDropped + x.owed T

variable {T : Finset Thread} {x : Counting} {e : Event}

/-- What one thread does changes what is owed by what it owes. -/
theorem owed_moved {x' : Counting} {th : Thread} (hth : th ∈ T) {o : Option Offering}
    (hoffering : x'.1.offering = Function.update x.1.offering th o)
    (hcleared : ∀ t, t ≠ th → x'.2.cleared t = x.2.cleared t) :
    x'.owed T + x.2.owes th (x.1.offering th) = x.owed T + x'.2.owes th o := by
  have hmoved : (fun t => x'.2.owes t (x'.1.offering t)) =
      Function.update (fun t => x.2.owes t (x.1.offering t)) th (x'.2.owes th o) := by
    funext t
    by_cases ht : t = th
    · rw [ht, hoffering, Function.update_self, Function.update_self]
    · rw [hoffering, Function.update_of_ne ht, Function.update_of_ne ht]
      unfold Ledger.owes
      rw [hcleared t ht]
  have hsum := sum_update_add hth (fun t => x.2.owes t (x.1.offering t)) (x'.2.owes th o)
  rw [← hmoved] at hsum
  exact hsum

/-- A thread that may offer moves works between the queue, the count and itself. -/
theorem Balanced.moved (h : x.Balanced T) {x' : Counting} {th : Thread} (hth : th ∈ T)
    {o : Option Offering} (hoffering : x'.1.offering = Function.update x.1.offering th o)
    (hcleared : ∀ t, t ≠ th → x'.2.cleared t = x.2.cleared t) (hlive : x'.2.live = x.2.live)
    (hpolled : x'.2.polled = x.2.polled)
    (hbalance : x'.2.offered + (x.1.buffers.queue.length + x.1.buffers.audioQueueDropped +
        x.2.owes th (x.1.offering th)) =
      x.2.offered + (x'.1.buffers.queue.length + x'.1.buffers.audioQueueDropped +
        x'.2.owes th o)) : x'.Balanced T := by
  intro hlive'
  have howed := owed_moved (T := T) hth hoffering hcleared
  have hold := h (hlive ▸ hlive')
  omega

/-- What a thread owes in its offer does not change when nothing moves. -/
theorem owes_clears (l : Ledger) (th : Thread) (b b' : Buffers) (hlength : b'.queue = b.queue)
    (o : Option Offering) :
    { l with cleared := Function.update l.cleared th (b.clears b' (l.cleared th) o) }.owes th o =
      l.owes th o := by
  match o with
  | none | some (.pcm p pc) => rfl
  | some (.control c pc) =>
      cases pc <;> simp [Ledger.owes, ControlPc.owes, Buffers.clears, hlength]

/-- A step of a thread that may offer, outside of `clearQueueAndRecycle` of `start` and `stop`. -/
theorem Balanced.serve (h : x.Balanced T) (hT : e.thread ∈ T) (hserves : e.Serves)
    (hexact : x.1.buffers.Exact (x.2.cleared e.thread) (x.1.offering e.thread))
    (hclear : ∀ i ok missed, e = .caller i ok missed →
      ¬ (x.1.callers i).Clearing ∧ x.1.callers i ≠ .startReset) :
    Balanced T (x.1.step e, x.2.serve x.1 e) := by
  have hcleared : ∀ t, t ≠ e.thread → (x.2.serve x.1 e).cleared t = x.2.cleared t :=
    fun t ht => Function.update_of_ne ht ..
  cases x.1.queueMove_step e with
  | keep same hoffering =>
      have hself : (x.1.step e).offering =
          Function.update x.1.offering e.thread (x.1.offering e.thread) := by
        rw [hoffering, Function.update_eq_self]
      refine h.moved hT hself hcleared rfl rfl ?_
      have hoffered : (x.2.serve x.1 e).offered = x.2.offered := by
        simp only [Ledger.serve, hoffering]
        refine if_neg fun hboth => ?_
        rw [hboth.1] at hboth
        exact absurd hboth.2 Bool.false_ne_true
      have howes : (x.2.serve x.1 e).owes e.thread (x.1.offering e.thread) =
          x.2.owes e.thread (x.1.offering e.thread) :=
        owes_clears x.2 e.thread x.1.buffers _ same.queue _
      rw [hoffered, howes, same.queue, same.dropped]
  | enter o first serves outside same hoffering =>
      refine h.moved hT hoffering hcleared rfl rfl ?_
      have hin : (x.1.step e).offering e.thread = some o := by
        rw [hoffering, Function.update_self]
      have hoffered : (x.2.serve x.1 e).offered = x.2.offered + 1 := by
        simp only [Ledger.serve, hin]
        exact if_pos ⟨outside, rfl⟩
      have howes : (x.2.serve x.1 e).owes e.thread (some o) = 1 := by
        cases first with
        | pcm p => rfl
        | control c purgePcm => cases purgePcm <;> rfl
      rw [hoffered, howes, outside, same.queue, same.dropped]
      simp only [Ledger.owes]
      omega
  | serve o missed serves inside hbuffers hoffering =>
      refine h.moved hT hoffering hcleared rfl rfl ?_
      have hoffered : (x.2.serve x.1 e).offered = x.2.offered := by
        simp only [Ledger.serve, inside]
        exact if_neg fun hboth => nomatch hboth.1
      rw [inside] at hexact
      rw [hoffered, hbuffers, inside]
      cases o with
      | pcm p pc =>
          have hbalance := x.1.buffers.balance_offerPcm p missed pc
          have howes : (x.2.serve x.1 e).owes e.thread
              ((x.1.buffers.offerPcm p missed pc).2.map (.pcm p)) =
                (x.1.buffers.offerPcm p missed pc).2.elim 0 PcmPc.owes := by
            cases (x.1.buffers.offerPcm p missed pc).2 <;> rfl
          simp only [Buffers.serve, howes]
          simp only [Ledger.owes]
          omega
      | control c pc =>
          have hbalance := Buffers.balance_offerControl hexact missed
          have hnow : (x.2.serve x.1 e).cleared e.thread =
              x.1.buffers.clears (x.1.buffers.offerControl c missed pc).1 (x.2.cleared e.thread)
                (some (.control c pc)) := by
            simp only [Ledger.serve, Function.update_self, hbuffers, inside, Buffers.serve]
          have howes : (x.2.serve x.1 e).owes e.thread
              ((x.1.buffers.offerControl c missed pc).2.map (.control c)) =
                (x.1.buffers.offerControl c missed pc).2.elim 0
                  (ControlPc.owes ((x.2.serve x.1 e).cleared e.thread)) := by
            cases (x.1.buffers.offerControl c missed pc).2 <;> rfl
          simp only [Buffers.serve, howes, hnow]
          simp only [Ledger.owes]
          omega
  | poll t ok item moves polled hoffering =>
      rw [moves] at hserves
      cases hserves
  | clear i ok missed item moves clearing polled hoffering =>
      exact absurd clearing (hclear i ok missed moves).1
  | reset i ok missed moves starts hbuffers hoffering =>
      exact absurd starts (hclear i ok missed moves).2

/-- The worker polls into the hands of nobody, and no other event concerns the works. -/
theorem Balanced.other (h : x.Balanced T) (hserves : ¬ e.Serves) :
    Balanced T (x.1.step e, x.2.see x.1 e) := by
  have hsame : x.1.buffers.SameQueue (x.1.step e).buffers → (x.1.step e).offering = x.1.offering →
      x.2.see x.1 e = x.2 → Balanced T (x.1.step e, x.2.see x.1 e) := by
    intro same hoffering hsee
    rw [hsee]
    intro hlive
    have hold := h hlive
    simp only [owed, same.queue, same.dropped, hoffering]
    exact hold
  cases x.1.queueMove_step e with
  | keep same hoffering =>
      refine hsame same hoffering ?_
      cases e with
      | read missed => exact absurd (.read missed) hserves
      | caller i ok missed => exact absurd (.caller i ok missed) hserves
      | worker t ok => simp [Ledger.see, same.queue]
      | _ => rfl
  | enter o first serves outside same hoffering => exact absurd serves hserves
  | serve o missed serves inside hbuffers hoffering => exact absurd serves hserves
  | poll t ok item moves polled hoffering =>
      obtain ⟨hlength, hdropped⟩ := Buffers.length_poll polled
      subst moves
      intro hlive
      have hold := h hlive
      have hpolled : (x.2.see x.1 (.worker t ok)).polled = x.2.polled + 1 := by
        simp only [Ledger.see]
        omega
      have howed : owed (x.1.step (.worker t ok), x.2.see x.1 (.worker t ok)) T = x.owed T := by
        simp only [owed, hoffering]
        rfl
      have hoffered : (x.2.see x.1 (.worker t ok)).offered = x.2.offered := rfl
      simp only [hoffered, hpolled, howed, hdropped]
      omega
  | clear i ok missed item moves clearing polled hoffering =>
      rw [moves] at hserves
      exact absurd (.caller i ok missed) hserves
  | reset i ok missed moves starts hbuffers hoffering =>
      rw [moves] at hserves
      exact absurd (.caller i ok missed) hserves

/-- `start` begins a new account. -/
theorem balanced_reset {i : ℕ} {ok missed : Bool} (hstart : x.1.callers i = .startReset)
    (hqueue : x.1.buffers.queue = []) (hnone : ∀ th, x.1.offering th = none) :
    Balanced T (x.1.step (.caller i ok missed), Ledger.fresh) := by
  have hstep : x.1.step (.caller i ok missed) =
      { x.1 with buffers := { x.1.buffers with audioQueueDropped := 0 } }.setCaller i
        .startRunning := by
    rw [State.step, State.callerStep, hstart]
  have hoffering : (x.1.step (.caller i ok missed)).offering = x.1.offering := by
    rw [hstep]
    exact State.offering_caller_none (by rw [hstart]; rfl) (q := .startRunning) rfl rfl rfl
  have howed : owed (x.1.step (.caller i ok missed), Ledger.fresh) T = 0 := by
    refine Finset.sum_eq_zero fun th _ => ?_
    simp only [hoffering, hnone]
    rfl
  intro _
  rw [howed, hstep]
  show 0 = 0 + x.1.buffers.queue.length + 0 + 0
  rw [hqueue]
  rfl

theorem Balanced.step (h : x.Balanced T) (hT : e.thread ∈ T) (hexact : x.Exact e) :
    Balanced T (Counting.step x e) := by
  show Balanced T (x.1.step e, x.2.see x.1 e)
  cases e with
  | read missed =>
      exact h.serve hT (.read missed) hexact fun _ _ _ heq => by cases heq
  | caller i ok missed =>
      obtain ⟨hclear, hreset⟩ := hexact
      by_cases hstart : x.1.callers i = .startReset
      · obtain ⟨hqueue, hnone⟩ := hreset hstart
        simp only [Ledger.see, if_pos hstart]
        exact balanced_reset hstart hqueue hnone
      · by_cases hclearing : (x.1.callers i).Clearing
        · simp only [Ledger.see, if_neg hstart, if_pos hclearing]
          exact fun hlive => absurd hlive Bool.false_ne_true
        · simp only [Ledger.see, if_neg hstart, if_neg hclearing]
          refine h.serve hT (.caller i ok missed) hclear fun j ok' missed' heq => ?_
          cases heq
          exact ⟨hclearing, hstart⟩
  | receive | onAudio | call | worker | throw => exact h.other nofun

/-- The works that were offered are accounted for, when no offer is in progress. -/
def Accounted (x : Counting) : Prop :=
  x.2.live = true → (∀ th, x.1.offering th = none) →
    x.2.offered = x.2.polled + x.1.buffers.queue.length + x.1.buffers.audioQueueDropped

/-- **When every work is accounted for.**  Between a `start` and the next clear of the queue by
`stop` or `start`, whenever no offer is in progress, what was offered was polled, is queued
or is counted as dropped: in every run in which each clear of an offer removes as many works
as it counted before, no control is refused after such a clear, and no offer is in progress
when `start` sets the count to zero. -/
theorem counted_run {es : List Event} (h : Along step Exact new es) :
    Accounted (run step new es) := by
  let T : Finset Thread := (es.map Event.thread).toFinset
  have hT : Along step (fun _ (e : Event) => e.thread ∈ T) new es :=
    along_of_forall_mem (p := fun e : Event => e.thread ∈ T)
      (fun e he => List.mem_toFinset.2 (List.mem_map_of_mem he)) new
  have hbalanced : (run step new es).Balanced T :=
    (h.and hT).invariant (I := Balanced T) (fun x e hx he => hx.step he.2 he.1)
      fun hlive => absurd hlive Bool.false_ne_true
  intro hlive hnone
  have howed : (run step new es).owed T = 0 := by
    refine Finset.sum_eq_zero fun th _ => ?_
    simp only [hnone]
    rfl
  have hbalance := hbalanced hlive
  omega

/-- Sixteen commands fill the queue, and a mute event counts them. -/
def overrun : List Event :=
  State.startedBy 0 ++ (List.replicate 16 (State.heard .command 2)).flatten ++
    State.mutedBy 1 false 4

/-- The mute event clears the sixteen and is accepted. -/
def overflow : List Event := overrun ++ List.replicate 18 (Event.caller 1 true false)

/-- The worker polls one of the sixteen before they are cleared. -/
def overtaken : List Event :=
  overrun ++ List.replicate 3 (Event.worker 0 true) ++ List.replicate 17 (Event.caller 1 true false)

/-- `Exact`, and nobody starts. -/
def Steady (x : Counting) : Event → Prop
  | .read _ => x.1.buffers.Exact (x.2.cleared .reader) (x.1.offering .reader)
  | .caller i _ _ =>
      x.1.buffers.Exact (x.2.cleared (.caller i)) (x.1.offering (.caller i)) ∧
        x.1.callers i ≠ .startReset
  | _ => True

instance (x : Counting) : ∀ e, Decidable (x.Steady e) := fun e => by
  cases e <;> unfold Steady <;> infer_instance

theorem Steady.exact (h : x.Steady e) : x.Exact e := by
  cases e with
  | caller i ok missed => exact ⟨h.1, fun hstart => absurd hstart h.2⟩
  | read missed => exact h
  | _ => trivial

/-- `start` is alone, and then everything is steady. -/
theorem exact_overflow : Along step Exact new overflow := by
  have hsteady : ∀ {x : Counting} {es}, Along step Steady x es → Along step Exact x es :=
    fun h => h.mono fun _ _ => Steady.exact
  have hsplit : overflow = overflow.take 4 ++ overflow.drop 4 := (List.take_append_drop ..).symm
  have hreset : Exact (run step new (overflow.take 4)) (.caller 0 true false) := by
    refine ⟨by decide, fun _ => ⟨by decide, fun th => ?_⟩⟩
    exact State.idle_run (overflow.take 4) (by decide) th
  rw [hsplit, along_append]
  exact ⟨hsteady (by decide +kernel), hreset, hsteady (by decide +kernel)⟩

theorem counted_run_overflow : Accounted (run step new overflow) ∧
    (run step new overflow).2.live = true ∧ (run step new overflow).2.offered = 17 ∧
    (run step new overflow).1.buffers.audioQueueDropped = 16 :=
  ⟨counted_run exact_overflow, by decide +kernel⟩

/-- Of the seventeen works that were offered, the worker polled one and one is queued; but sixteen
are counted as dropped. -/
theorem not_accounted_overtaken : ¬ Accounted (run step new overtaken) := by
  intro h
  have hlive : (run step new overtaken).2.live = true := by decide +kernel
  have hnumbers : (run step new overtaken).2.offered = 17 ∧
      (run step new overtaken).2.polled + (run step new overtaken).1.buffers.queue.length +
        (run step new overtaken).1.buffers.audioQueueDropped = 18 := by decide +kernel
  have hsame : (run step new overtaken).1 = run State.step Audio.new overtaken :=
    fst_run_watched ..
  have hnone := h hlive fun th => by
    rw [hsame]
    exact State.idle_run overtaken (by decide +kernel) th
  rw [hnumbers.1, hnumbers.2] at hnone
  exact absurd hnone (by decide)

end Counting
end Audio
end App
end Carlinkit
