/-
# Where the PCM arrays go

An array goes from the pool to `onAudio`, with the work into the queue, to the worker and
back to the pool; or it is taken out of the queue again by a thread that makes room,
purges the queue or clears it.  `Buffers.Spread` says that each array is on one shelf or in
the hands of one thread, and there once.  What one step of `offerPcm`, `offerControl`,
`acquirePcmBuffer` and `recyclePcmBuffer` does to that is said here for whichever thread
makes it, and `PcmOwner` says it of the threads.

`Buffers.Says` is the other half: the array that goes with a work has the bytes of its
message.  The steps of the queue leave the arrays as they are (`Buffers.Follows`).
-/

import Carlinkit.App.AudioPlayer
import Carlinkit.Machine.Ownership

namespace Carlinkit
namespace App
namespace Audio

open Framing Protocol Machine

/-- The threads that may have an array. -/
inductive Thread
  | reader
  | caller (i : ℕ)
  | worker (t : ℕ)
deriving DecidableEq, Repr

/-- Where an array may be that no thread has. -/
inductive Shelf
  | pool
  | queue
  /-- Nowhere any more. -/
  | lost
deriving DecidableEq, Repr

/-- The arrays that the read thread has. -/
def ReaderPc.arrays : ReaderPc → List ℕ
  | .copy _ _ array => [array]
  | .pcm p pc => p.array :: pc.taken
  | .control _ pc => pc.taken
  | _ => []

/-- The arrays that a calling thread has. -/
def CallerPc.arrays : CallerPc → List ℕ
  | .startRecycle array | .stopRecycle array => [array]
  | .control _ pc => pc.taken
  | _ => []

/-- The PCM that a worker has. -/
def WorkerPc.item : WorkerPc → Option Pcm
  | .pcm p | .ensure p | .create p | .playFresh p _ | .play p _ | .write p _
  | .recycle p _ => some p
  | _ => none

/-- The arrays that a worker has. -/
def WorkerPc.arrays (pc : WorkerPc) : List ℕ :=
  match pc.item with
  | some p => [p.array]
  | none => []

theorem WorkerPc.arrays_of_none {pc : WorkerPc} (h : pc.item = none) : pc.arrays = [] := by
  rw [arrays, h]

theorem WorkerPc.arrays_of_some {pc : WorkerPc} {p : Pcm} (h : pc.item = some p) :
    pc.arrays = [p.array] := by
  rw [arrays, h]

/-- What the read thread goes by: the slice is still in the payload, and fits. -/
def ReaderPc.Recalls (b : Buffers) (payload : Option (List Byte)) : ReaderPc → Prop
  | .check m said | .muteTest m said | .acquire m said => said = slice payload m
  | .copy m said array => said = slice payload m ∧ m.pcmLength ≤ (b.arrays array).length
  | _ => True

namespace Buffers

/-- The arrays on a shelf. -/
def shelf (b : Buffers) : Shelf → List ℕ
  | .pool => b.pool
  | .queue => b.queue.flatMap fun w => w.item.arrays
  | .lost => b.lost

/-- Each array is on one shelf or in the hands of one thread, and there once. -/
def Spread (b : Buffers) (hands : Thread → List ℕ) : Prop :=
  Parted (Sum.elim b.shelf hands) b.made

variable {b : Buffers} {hands : Thread → List ℕ} {th : Thread} {hand : List ℕ}

theorem spread_new (h : ∀ th, hands th = []) : new.Spread hands := by
  refine parted_nil fun k => ?_
  rcases k with (_ | _ | _) | th
  · rfl
  · rfl
  · rfl
  · exact h th

/-- A thread keeps what it has. -/
theorem Spread.keep (h : b.Spread hands) (hhand : hands th = hand) :
    b.Spread (Function.update hands th hand) := by
  rwa [← hhand, Function.update_eq_self]

theorem Spread.lose (h : b.Spread hands) {a : ℕ} (hhand : (hands th).Perm (a :: hand)) :
    (b.lose a).Spread (Function.update hands th hand) := by
  refine Parted.put h (s := .lost) hhand (List.perm_append_singleton ..) fun m hm => ?_
  cases m with
  | lost => exact absurd rfl hm
  | _ => rfl

theorem Spread.recycle (h : b.Spread hands) {a : ℕ} (hhand : (hands th).Perm (a :: hand)) :
    (b.recycle a).Spread (Function.update hands th hand) := by
  unfold Buffers.recycle
  split_ifs
  · refine Parted.put h (s := .pool) hhand (List.perm_append_singleton ..) fun m hm => ?_
    cases m with
    | pool => exact absurd rfl hm
    | _ => rfl
  · exact h.lose hhand

theorem Spread.acquire (h : b.Spread hands) (length : ℕ)
    (hhand : hand.Perm ((b.acquire length).1 :: hands th)) :
    (b.acquire length).2.Spread (Function.update hands th hand) := by
  unfold Buffers.acquire at hhand ⊢
  cases hfind : b.pool.find? fun a => length ≤ (b.arrays a).length with
  | none =>
      simp only [hfind] at hhand ⊢
      exact Parted.fresh h hhand
  | some a =>
      simp only [hfind] at hhand ⊢
      have ha : a ∈ b.pool := List.mem_of_find?_eq_some hfind
      refine Parted.take h (s := .pool) (List.perm_cons_erase ha) (fun m hm => ?_) hhand
      cases m with
      | pool => exact absurd rfl hm
      | _ => rfl

/-- The array that `acquire` gives is long enough. -/
theorem length_acquire (b : Buffers) (length : ℕ) :
    length ≤ ((b.acquire length).2.arrays (b.acquire length).1).length := by
  unfold Buffers.acquire
  cases hfind : b.pool.find? fun a => length ≤ (b.arrays a).length with
  | none => simp
  | some a => simpa using List.find?_some hfind

/-- `acquire` concerns the pool, and an array that was not there before. -/
theorem frame_acquire (b : Buffers) (length : ℕ) :
    (b.acquire length).2.queue = b.queue ∧ (b.acquire length).2.lost = b.lost ∧
      ∀ a < b.made, (b.acquire length).2.arrays a = b.arrays a := by
  unfold Buffers.acquire
  cases b.pool.find? fun a => length ≤ (b.arrays a).length with
  | none => exact ⟨rfl, rfl, fun a ha => Function.update_of_ne (Nat.ne_of_lt ha) ..⟩
  | some a => exact ⟨rfl, rfl, fun _ _ => rfl⟩

theorem arrays_copy_of_ne {a a' : ℕ} {bytes : List Byte} (h : a' ≠ a) :
    (b.copy a bytes).arrays a' = b.arrays a' := Function.update_of_ne h ..

theorem take_copy (b : Buffers) (a : ℕ) (bytes : List Byte) :
    ((b.copy a bytes).arrays a).take bytes.length = bytes := by
  simp [copy]

/-- What is offered goes on the queue. -/
theorem Spread.accept (h : b.Spread hands) {item : Item} (hhand : hands th = item.arrays ++ hand) :
    (b.accept item).Spread (Function.update hands th hand) := by
  cases item with
  | pcm p =>
      refine Parted.put h (s := .queue) (a := p.array) (by simp [hhand, Item.arrays]) ?_
        fun m hm => ?_
      · simp [shelf, Buffers.accept, Item.arrays, List.flatMap_append]
      · cases m with
        | queue => exact absurd rfl hm
        | _ => rfl
  | control c =>
      refine Spread.keep ?_ hhand
      have hshelf : (b.accept (.control c)).shelf = b.shelf := by
        funext m
        cases m <;> simp [shelf, Buffers.accept, Item.arrays, List.flatMap_append]
      rw [Spread, hshelf]
      exact h

/-- `poll` takes the oldest work. -/
theorem poll_eq_some {item : Item} {b' : Buffers} (h : b.poll = some (item, b')) :
    ∃ w queue, b.queue = w :: queue ∧ w.item = item ∧ b' = { b with queue := queue } := by
  unfold Buffers.poll at h
  cases hq : b.queue with
  | nil => simp [hq] at h
  | cons w queue =>
      simp only [hq, Option.some.injEq, Prod.mk.injEq] at h
      obtain ⟨hitem, rfl⟩ := h
      exact ⟨w, queue, rfl, hitem, rfl⟩

/-- What is polled comes from the queue. -/
theorem Spread.poll (h : b.Spread hands) {item : Item} {b' : Buffers}
    (hpoll : b.poll = some (item, b')) (hhand : hand = item.arrays ++ hands th) :
    b'.Spread (Function.update hands th hand) := by
  obtain ⟨w, queue, hq, rfl, rfl⟩ := poll_eq_some hpoll
  cases hitem : w.item with
  | pcm p =>
      refine Parted.take h (s := .queue) (a := p.array) ?_ (fun m hm => ?_)
        (by simp [hhand, hitem, Item.arrays])
      · simp [shelf, hq, hitem, Item.arrays]
      · cases m with
        | queue => exact absurd rfl hm
        | _ => rfl
  | control c =>
      refine Spread.keep ?_ (by simp [hhand, hitem, Item.arrays])
      have hshelf : { b with queue := queue }.shelf = b.shelf := by
        funext m
        cases m <;> simp [shelf, hq, hitem, Item.arrays]
      rw [Spread, hshelf]
      exact h

/-- What `dropOldestPcm` finds is in the queue. -/
theorem mem_of_oldestPcm {seen : ℕ} {missed : Bool} {w : Work} {q : Pcm}
    (hw : b.oldestPcm seen missed = some (w, q)) : w ∈ b.queue ∧ w.item = .pcm q := by
  obtain ⟨v, hv, hfound⟩ := List.exists_of_findSome?_eq_some hw
  cases hitem : v.item with
  | control c => simp [hitem] at hfound
  | pcm p =>
      simp only [hitem] at hfound
      split_ifs at hfound
      obtain ⟨rfl, rfl⟩ := Prod.mk.inj (Option.some.inj hfound)
      exact ⟨hv, hitem⟩

/-- What `dropOldestPcm` removes comes from the queue. -/
theorem Spread.evict (h : b.Spread hands) {seen : ℕ} {missed : Bool} {w : Work} {q : Pcm}
    (hw : b.oldestPcm seen missed = some (w, q)) (hhand : hand.Perm (q.array :: hands th)) :
    (b.evict w).Spread (Function.update hands th hand) := by
  obtain ⟨hmem, hitem⟩ := mem_of_oldestPcm hw
  refine Parted.take h (s := .queue) ?_ (fun m hm => ?_) hhand
  · have hperm : (b.queue.flatMap fun w => w.item.arrays).Perm
        ((w :: b.queue.erase w).flatMap fun w => w.item.arrays) :=
      (List.perm_cons_erase hmem).flatMap_right _
    rw [List.flatMap_cons, hitem] at hperm
    exact hperm
  · cases m with
    | queue => exact absurd rfl hm
    | _ => rfl

/-- What a thread in `offerPcm` has: its work, and what it took out of the queue. -/
theorem Spread.offerPcm (h : b.Spread hands) {p : Pcm} {pc : PcmPc}
    (hhand : hands th = p.array :: pc.taken) (missed : Bool) :
    (b.offerPcm p missed pc).1.Spread (Function.update hands th
      ((b.offerPcm p missed pc).2.elim [] fun pc => p.array :: pc.taken)) := by
  have hswap : ∀ a, [p.array, a].Perm [a, p.array] := fun a => List.Perm.swap ..
  unfold Buffers.offerPcm
  cases pc with
  | size =>
      simp only
      split_ifs <;> exact h.keep hhand
  | trim n =>
      simp only
      split_ifs <;> exact h.keep hhand
  | trimDrop n | drop => exact h.keep hhand
  | trimScan n seen | scan seen =>
      simp only
      cases hw : b.oldestPcm seen missed with
      | none => exact h.keep hhand
      | some x =>
          refine h.evict hw ?_
          rw [hhand]
          exact hswap x.2.array
  | trimmed n a | dropped a =>
      refine h.recycle ?_
      rw [hhand]
      exact hswap a
  | offer =>
      simp only
      split_ifs
      · exact h.accept (hhand.trans rfl)
      · exact h.keep hhand
  | again =>
      simp only
      split_ifs
      · exact Spread.accept (b := b.drop 1) h (hhand.trans rfl)
      · exact h.keep hhand
  | refuse =>
      refine h.recycle ?_
      rw [hhand]
      exact List.Perm.refl _

/-- What a thread in `offerControl` has: what it took out of the queue. -/
theorem Spread.offerControl (h : b.Spread hands) (c : Control) {pc : ControlPc}
    (hhand : hands th = pc.taken) (missed : Bool) :
    (b.offerControl c missed pc).1.Spread (Function.update hands th
      ((b.offerControl c missed pc).2.elim [] ControlPc.taken)) := by
  unfold Buffers.offerControl
  cases pc with
  | drop n | discard => exact h.keep hhand
  | scan n seen =>
      simp only
      cases hw : b.oldestPcm seen missed with
      | none => exact h.keep hhand
      | some x =>
          refine h.evict hw ?_
          rw [hhand]
          exact List.Perm.refl _
  | dropped n a | clearing n a =>
      refine h.recycle ?_
      rw [hhand]
      exact List.Perm.refl _
  | offer | last =>
      simp only
      split_ifs
      · exact h.accept hhand
      · exact h.keep hhand
  | clear n =>
      simp only
      match hpoll : b.poll with
      | none => exact h.keep hhand
      | some (.pcm p, b') => exact h.poll hpoll (by rw [hhand]; rfl)
      | some (.control d, b') => exact h.poll hpoll (by rw [hhand]; rfl)

/-! ### What an array says -/

/-- The array that goes with the work has the bytes of the message. -/
def Says (b : Buffers) (p : Pcm) : Prop :=
  p.slice.length = p.pcmLength ∧ (b.arrays p.array).take p.pcmLength = p.slice

/-- `b'` has the bytes of `b`, nothing in its queue that was not there but for `p`, and has
lost an array only to a full pool. -/
structure Follows (b b' : Buffers) (p : Option Pcm) : Prop where
  arrays : b'.arrays = b.arrays
  queue : ∀ w ∈ b'.queue, w ∈ b.queue ∨ ∀ q, w.item = .pcm q → p = some q
  lost : b'.lost = b.lost ∨ audioQueueCapacity ≤ b.pool.length

theorem Follows.refl (b : Buffers) (p : Option Pcm) : b.Follows b p :=
  ⟨rfl, fun _ => .inl, .inl rfl⟩

theorem follows_recycle (b : Buffers) (a : ℕ) (p : Option Pcm) : b.Follows (b.recycle a) p := by
  unfold recycle
  split_ifs with hroom
  · exact ⟨rfl, fun _ => .inl, .inl rfl⟩
  · exact ⟨rfl, fun _ => .inl, .inr (Nat.le_of_not_lt hroom)⟩

theorem follows_evict (b : Buffers) (w : Work) (p : Option Pcm) : b.Follows (b.evict w) p :=
  ⟨rfl, fun _ hv => .inl (List.mem_of_mem_erase hv), .inl rfl⟩

theorem follows_poll {item : Item} {b' : Buffers} (hpoll : b.poll = some (item, b'))
    (p : Option Pcm) : b.Follows b' p ∧ ∃ w ∈ b.queue, w.item = item := by
  obtain ⟨w, queue, hq, hitem, rfl⟩ := poll_eq_some hpoll
  have hw : w ∈ b.queue := hq ▸ List.mem_cons_self
  exact ⟨⟨rfl, fun v hv => .inl (hq ▸ List.mem_cons_of_mem _ hv), .inl rfl⟩, w, hw, hitem⟩

theorem follows_accept (b : Buffers) {item : Item} {p : Option Pcm}
    (hitem : ∀ q, item = .pcm q → p = some q) : b.Follows (b.accept item) p := by
  refine ⟨rfl, fun w hw => ?_, .inl rfl⟩
  rcases List.mem_append.1 hw with hold | hnew
  · exact .inl hold
  · obtain rfl := List.mem_singleton.1 hnew
    exact .inr hitem

/-- The counter does not matter. -/
theorem Follows.drop {b' : Buffers} {p : Option Pcm} (h : b.Follows b' p) (n : ℕ) :
    b.Follows (b'.drop n) p := ⟨h.arrays, h.queue, h.lost⟩

theorem follows_offerPcm (b : Buffers) (p : Pcm) (missed : Bool) (pc : PcmPc) :
    b.Follows (b.offerPcm p missed pc).1 (some p) := by
  have hp : ∀ q, Item.pcm p = .pcm q → some p = some q := fun q hq => by
    rw [Item.pcm.inj hq]
  unfold offerPcm
  cases pc with
  | size | trimDrop n | drop => exact .refl b _
  | trim n =>
      simp only
      split_ifs
      · exact .refl b _
      · exact (Follows.refl b _).drop n
  | trimScan n seen | scan seen =>
      simp only
      cases b.oldestPcm seen missed with
      | none => exact ⟨rfl, fun _ => .inl, .inl rfl⟩
      | some x => exact follows_evict b x.1 _
  | trimmed n a | dropped a => exact follows_recycle b a _
  | offer =>
      simp only
      split_ifs
      · exact follows_accept b hp
      · exact .refl b _
  | again =>
      simp only
      split_ifs
      · exact (follows_accept b hp).drop 1
      · exact (Follows.refl b _).drop 1
  | refuse => exact (follows_recycle b p.array _).drop 1

theorem follows_offerControl (b : Buffers) (c : Control) (missed : Bool) (pc : ControlPc) :
    b.Follows (b.offerControl c missed pc).1 none := by
  unfold offerControl
  cases pc with
  | drop n | discard => exact .refl b _
  | scan n seen =>
      simp only
      cases b.oldestPcm seen missed with
      | none => exact (Follows.refl b _).drop n
      | some x => exact follows_evict b x.1 _
  | dropped n a | clearing n a => exact follows_recycle b a _
  | offer | last =>
      simp only
      split_ifs
      · exact follows_accept b nofun
      · exact .refl b _
  | clear n =>
      simp only
      match hpoll : b.poll with
      | none => exact (Follows.refl b _).drop n
      | some (.pcm p, b') => exact (follows_poll hpoll _).1
      | some (.control d, b') => exact (follows_poll hpoll _).1

end Buffers

end Audio
end App
end Carlinkit
