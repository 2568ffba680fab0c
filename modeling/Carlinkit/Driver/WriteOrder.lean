/-
# Order and loss on the send side

What the threads of `Carlinkit.Driver.WriteSide` leave on the wire as long as
every transfer writes all it is given.  `Orderly` is the invariant: who holds
`writeLock`, what of the wire is not yet a whole message, where the accepted
messages are, and how far `stop` has got with the closing messages.  Each thread
keeps it (`orderly_write` and its siblings), so every run does.

`wellWritten` is the result.  The messages are numbered in the order in which the
queue accepted them, so that equal messages stay different: what is on the wire,
in the hand of the write thread and in the queue is, in this order, the list of
accepted messages without the evicted ones.
-/

import Carlinkit.Driver.WriteSide
import Mathlib.Data.List.Nodup

namespace Carlinkit
namespace Driver

open Framing Protocol Machine

/-- The write thread has `writeLock`. -/
def WritePc.holds : WritePc → Bool
  | .header _ | .payload _ _ => true
  | _ => false

/-- The message that the write thread took from the queue. -/
def WritePc.taken : WritePc → List Outgoing
  | .hand o | .header o | .payload o _ => [o]
  | _ => []

/-- What the write thread has written of a message that is not complete. -/
def WritePc.unfinished : WritePc → List Byte
  | .payload o _ => o.message.headerBytes
  | _ => []

/-- The heartbeat thread has `writeLock`. -/
def BeatPc.holds : BeatPc → Bool
  | .header => true
  | _ => false

/-- `stop` has `writeLock`. -/
def StopPc.holds : StopPc → Bool
  | .release | .releasePayload | .close | .interface => true
  | _ => false

/-- What `stop` has written of a message that is not complete. -/
def StopPc.unfinished : StopPc → List Byte
  | .releasePayload => releaseVideoFocus.headerBytes
  | _ => []

/-- The accepted messages with their numbers. -/
def outgoings (accepted : List Message) : List Outgoing := accepted.mapIdx Outgoing.mk

/-- The accepted messages that were not evicted, in the order of their acceptance. -/
def kept (accepted : List Message) (evicted : List Outgoing) : List Outgoing :=
  (outgoings accepted).filter (· ∉ evicted)

/-- The messages on the wire that came through the queue. -/
def written (log : List Sent) : List Outgoing :=
  log.filterMap fun x =>
    match x.source with
    | .queued id => some ⟨id, x.message⟩
    | _ => none

/-- No closing message is among these. -/
def NoClosing (log : List Sent) : Prop := ∀ x ∈ log, x.source ≠ .closing

/-- The closing messages on the wire when `stop` is at `pc`. -/
def ClosedTo (log : List Sent) : StopPc → Prop
  | .idle | .joinWrite | .lock | .release | .releasePayload => NoClosing log
  | .close => ∃ pre, NoClosing pre ∧ log = pre ++ [⟨.closing, releaseVideoFocus⟩]
  | _ => ∃ pre post, NoClosing pre ∧ NoClosing post ∧
      log = pre ++ ([⟨.closing, releaseVideoFocus⟩, ⟨.closing, closeDongle⟩] ++ post)

/-- The invariant of a run whose transfers are full; `first` is the init sequence. -/
structure Orderly (first : List Message) (s : State) : Prop where
  writer_lock : s.lock = some .writer ↔ s.writer.holds = true
  beat_lock : s.lock = some .beat ↔ s.beat.holds = true
  stop_lock : s.lock = some .stopper ↔ s.stopper.holds = true
  wire_eq : s.wire = encodeAll (s.log.map Sent.message) ++
    (s.writer.unfinished ++ s.stopper.unfinished)
  numbered : kept s.accepted s.evicted = written s.log ++ (s.writer.taken ++ s.queue)
  evicted_audio : ∀ o ∈ s.evicted, o.message.type = MessageType.audioData
  evicted_lt : ∀ o ∈ s.evicted, o.id < s.accepted.length
  first_prefix : first <+: s.accepted ++ s.todo
  first_eq : s.todo ≠ [] → s.accepted ++ s.todo = first
  ended : s.writer = .ended → s.running = false
  beats : ∀ x ∈ s.log, x.source = .heartbeat → x.message = heartbeat
  closed : ClosedTo s.log s.stopper

/-! ### Numbered messages -/

theorem outgoings_concat (accepted : List Message) (m : Message) :
    outgoings (accepted ++ [m]) = outgoings accepted ++ [⟨accepted.length, m⟩] := by
  rw [outgoings, List.mapIdx_concat]
  rfl

theorem outgoings_pairwise (accepted : List Message) :
    (outgoings accepted).Pairwise fun a b => a.id < b.id := by
  rw [List.pairwise_iff_getElem]
  intro i j hi hj hij
  simpa only [outgoings, List.getElem_mapIdx] using hij

theorem map_message_outgoings (accepted : List Message) :
    (outgoings accepted).map Outgoing.message = accepted := by
  refine List.ext_getElem (by simp [outgoings]) fun i _ _ => ?_
  simp [outgoings]

theorem nodup_of_pairwise_id {os : List Outgoing} (h : os.Pairwise fun a b => a.id < b.id) :
    os.Nodup :=
  h.imp fun hlt heq => absurd (heq ▸ hlt) (Nat.lt_irrefl _)

theorem kept_pairwise (accepted : List Message) (evicted : List Outgoing) :
    (kept accepted evicted).Pairwise fun a b => a.id < b.id :=
  (outgoings_pairwise accepted).filter _

/-- Accepting a message puts it at the end of what is kept. -/
theorem kept_concat {accepted : List Message} {evicted : List Outgoing} (m : Message)
    (h : ∀ o ∈ evicted, o.id < accepted.length) :
    kept (accepted ++ [m]) evicted = kept accepted evicted ++ [⟨accepted.length, m⟩] := by
  have hnew : (⟨accepted.length, m⟩ : Outgoing) ∉ evicted :=
    fun hmem => Nat.lt_irrefl _ (h _ hmem)
  rw [kept, outgoings_concat, List.filter_append, ← kept]
  simp [hnew]

/-- Evicting a message takes it out of what is kept, wherever it stands. -/
theorem kept_evict {accepted : List Message} {evicted front queue : List Outgoing} {o : Outgoing}
    (h : kept accepted evicted = front ++ queue) (ho : o ∈ queue) :
    kept accepted (evicted ++ [o]) = front ++ queue.erase o := by
  have hnodup : (front ++ queue).Nodup := by
    rw [← h]
    exact nodup_of_pairwise_id (kept_pairwise _ _)
  have hfront : o ∉ front := fun hmem => (List.nodup_append.1 hnodup).2.2 o hmem o ho rfl
  calc kept accepted (evicted ++ [o])
      = (kept accepted evicted).filter (· != o) := by
        rw [kept, kept, List.filter_filter]
        refine List.filter_congr fun x _ => ?_
        by_cases hx : x = o <;> simp [hx]
    _ = (front ++ queue).erase o := by rw [h, hnodup.erase_eq_filter]
    _ = front ++ queue.erase o := List.erase_append_right _ hfront

theorem written_append (log log' : List Sent) :
    written (log ++ log') = written log ++ written log' :=
  List.filterMap_append

@[simp] theorem written_queued (id : ℕ) (m : Message) : written [⟨.queued id, m⟩] = [⟨id, m⟩] := rfl

@[simp] theorem written_heartbeat (m : Message) : written [⟨.heartbeat, m⟩] = [] := rfl

@[simp] theorem written_closing (m : Message) : written [⟨.closing, m⟩] = [] := rfl

theorem noClosing_concat {log : List Sent} (h : NoClosing log) {x : Sent}
    (hx : x.source ≠ .closing) : NoClosing (log ++ [x]) := by
  intro y hy
  rcases List.mem_append.1 hy with hy | hy
  · exact h y hy
  · rwa [List.mem_singleton.1 hy]

/-- The other threads write no closing message, and none while `stop` is between
the two. -/
theorem closedTo_concat {log : List Sent} {pc : StopPc} (h : ClosedTo log pc) (hpc : pc ≠ .close)
    {x : Sent} (hx : x.source ≠ .closing) : ClosedTo (log ++ [x]) pc := by
  cases pc with
  | idle | joinWrite | lock | release | releasePayload => exact noClosing_concat h hx
  | close => exact absurd rfl hpc
  | joinRead | joinBeat | joinConnect | lockInterface | interface | done =>
      obtain ⟨pre, post, hpre, hpost, rfl⟩ := h
      exact ⟨pre, post ++ [x], hpre, noClosing_concat hpost hx, by simp⟩

/-! ### Each thread keeps the invariant -/

section Threads

variable {first : List Message} {s : State}

theorem numbered_accept (h : Orderly first s) (m : Message) :
    kept (s.accept m).accepted s.evicted =
      written s.log ++ (s.writer.taken ++ (s.accept m).queue) :=
  (kept_concat m h.evicted_lt).trans (by
    rw [h.numbered, List.append_assoc, List.append_assoc]
    rfl)

theorem evicted_lt_accept (h : Orderly first s) (m : Message) :
    ∀ o ∈ s.evicted, o.id < (s.accept m).accepted.length := by
  intro o ho
  have := h.evicted_lt o ho
  simp only [State.accept, List.length_append]
  omega

/-- A message of another thread leaves the heartbeats as they are. -/
theorem beats_concat (h : Orderly first s) {x : Sent} (hx : x.source ≠ .heartbeat) :
    ∀ y ∈ s.log ++ [x], y.source = .heartbeat → y.message = heartbeat := by
  intro y hy hsource
  rcases List.mem_append.1 hy with hy | hy
  · exact h.beats y hy hsource
  · rw [List.mem_singleton.1 hy] at hsource
    exact absurd hsource hx

theorem orderly_accept (h : Orderly first s) (htodo : s.todo = []) (m : Message) :
    Orderly first (s.accept m) :=
  { h with
    numbered := numbered_accept h m
    evicted_lt := evicted_lt_accept h m
    first_prefix := by
      have hpre := h.first_prefix
      simp only [State.accept, htodo, List.append_nil] at hpre ⊢
      exact hpre.trans (List.prefix_append _ _)
    first_eq := fun hne => absurd htodo hne }

theorem orderly_evict (h : Orderly first s) {o : Outgoing} (ho : o ∈ s.queue)
    (haudio : o.isAudio = true) : Orderly first (s.evict o) := by
  have hnum : kept s.accepted s.evicted = (written s.log ++ s.writer.taken) ++ s.queue := by
    rw [h.numbered, List.append_assoc]
  have hlt : o.id < s.accepted.length := by
    have hmem : o ∈ kept s.accepted s.evicted := by
      rw [hnum]
      exact List.mem_append_right _ ho
    obtain ⟨i, hi, rfl⟩ := List.getElem_of_mem (List.mem_filter.1 hmem).1
    simpa [outgoings] using hi
  exact
    { h with
      numbered := (kept_evict hnum ho).trans (List.append_assoc ..)
      evicted_audio := fun x hx => by
        rcases List.mem_append.1 hx with hx | hx
        · exact h.evicted_audio x hx
        · rw [List.mem_singleton.1 hx]
          exact eq_of_beq haudio
      evicted_lt := fun x hx => by
        rcases List.mem_append.1 hx with hx | hx
        · exact h.evicted_lt x hx
        · rw [List.mem_singleton.1 hx]
          exact hlt }

theorem orderly_init (h : Orderly first s) : Orderly first s.initStep := by
  unfold State.initStep
  cases htodo : s.todo with
  | nil => exact h
  | cons m todo =>
      have heq := h.first_eq (by simp [htodo])
      have hpre := h.first_prefix
      rw [htodo] at heq hpre
      simp only
      split_ifs with hroom
      · exact
          { h with
            numbered := numbered_accept h m
            evicted_lt := evicted_lt_accept h m
            first_prefix := by simpa [State.accept] using hpre
            first_eq := fun _ => by simpa [State.accept] using heq }
      · exact h

theorem orderly_send (h : Orderly first s) (htodo : s.todo = []) (i : ℕ) (missed : Bool) :
    Orderly first (s.sendStep i missed) := by
  cases hpc : s.clients i with
  | idle => simpa only [State.sendStep, hpc] using h
  | offer m =>
      simp only [State.sendStep, hpc]
      split_ifs
      · exact { orderly_accept h htodo m with }
      · exact { h with }
  | refused m =>
      simp only [State.sendStep, hpc]
      exact { h with }
  | scanning m seen =>
      simp only [State.sendStep, hpc]
      cases hold : s.oldestAudio seen missed with
      | none => exact { h with }
      | some o =>
          have haudio := List.find?_some hold
          rw [Bool.and_eq_true] at haudio
          exact { orderly_evict h (List.mem_of_find?_eq_some hold) haudio.1 with }
  | again m =>
      simp only [State.sendStep, hpc]
      split_ifs
      · exact { orderly_accept h htodo m with }
      · exact { h with }

/-- Bringing a message on the wire to its end. -/
theorem encodeAll_map_concat (log : List Sent) (x : Sent) :
    encodeAll ((log ++ [x]).map Sent.message) =
      encodeAll (log.map Sent.message) ++ (x.message.headerBytes ++ x.message.payload) := by
  rw [List.map_append, encodeAll_append]
  simp [Message.encode]

/-- Only the holder of the lock is under it. -/
theorem Orderly.not_holds (h : Orderly first s) :
    (s.lock ≠ some .writer → s.writer.holds = false) ∧
      (s.lock ≠ some .beat → s.beat.holds = false) ∧
      (s.lock ≠ some .stopper → s.stopper.holds = false) := by
  refine ⟨fun hne => ?_, fun hne => ?_, fun hne => ?_⟩
  · exact Bool.eq_false_iff.2 fun hholds => hne (h.writer_lock.2 hholds)
  · exact Bool.eq_false_iff.2 fun hholds => hne (h.beat_lock.2 hholds)
  · exact Bool.eq_false_iff.2 fun hholds => hne (h.stop_lock.2 hholds)

theorem WritePc.not_holds {pc : WritePc} (h : pc.holds = false) : pc.unfinished = [] := by
  cases pc <;> simp_all [WritePc.holds, WritePc.unfinished]

theorem StopPc.not_holds {pc : StopPc} (h : pc.holds = false) :
    pc.unfinished = [] ∧ pc ≠ .close := by
  cases pc <;> simp_all [StopPc.holds, StopPc.unfinished]

/-- The write thread has written the last byte of its message. -/
theorem orderly_writer_done (h : Orderly first s) (hlock : s.lock = some .writer) {x : Outgoing}
    (htaken : s.writer.taken = [x]) {wire : List Byte}
    (hwire : wire = encodeAll (s.log.map Sent.message) ++
      (x.message.headerBytes ++ x.message.payload)) :
    Orderly first
      { s with
        wire := wire
        log := s.log ++ [⟨.queued x.id, x.message⟩]
        writer := .check
        lock := none } := by
  have hbeat := h.not_holds.2.1 (by rw [hlock]; simp)
  have hholds := h.not_holds.2.2 (by rw [hlock]; simp)
  obtain ⟨hstop, hclose⟩ := StopPc.not_holds hholds
  exact
    { h with
      writer_lock := by simp [WritePc.holds]
      beat_lock := by simp [hbeat]
      stop_lock := by simp [hholds]
      wire_eq := by
        simp only [encodeAll_map_concat, hwire, hstop, WritePc.unfinished, List.append_nil]
      numbered := by
        have hnum := h.numbered
        rw [htaken] at hnum
        simp only [written_append, written_queued, WritePc.taken, List.append_assoc]
        exact hnum
      ended := fun hended => by simp at hended
      beats := beats_concat h (by simp)
      closed := closedTo_concat h.closed hclose (by simp) }

theorem orderly_write (h : Orderly first s) : Orderly first (s.writeStep .full) := by
  have hlock := h.writer_lock
  have hwire := h.wire_eq
  have hnum := h.numbered
  cases hpc : s.writer with
  | check =>
      rw [hpc] at hlock hwire hnum
      simp only [State.writeStep, hpc]
      split_ifs with hrun
      · exact { h with
          writer_lock := hlock, wire_eq := hwire, numbered := hnum
          ended := fun hended => by simp at hended }
      · exact { h with
          writer_lock := hlock, wire_eq := hwire, numbered := hnum
          ended := fun _ => by simpa using hrun }
  | poll =>
      rw [hpc] at hlock hwire hnum
      cases hq : s.queue with
      | nil =>
          rw [hq] at hnum
          simp only [State.writeStep, hpc, hq]
          exact { h with
            writer_lock := hlock, wire_eq := hwire, numbered := hnum
            ended := fun hended => by simp at hended }
      | cons x queue =>
          rw [hq] at hnum
          simp only [State.writeStep, hpc, hq]
          exact { h with
            writer_lock := hlock, wire_eq := hwire, numbered := hnum
            ended := fun hended => by simp at hended }
  | hand x =>
      rw [hpc] at hlock hwire hnum
      simp only [State.writeStep, hpc]
      split_ifs with hfree
      · exact { h with
          writer_lock := by simp [WritePc.holds]
          beat_lock := by simpa [hfree] using h.beat_lock
          stop_lock := by simpa [hfree] using h.stop_lock
          wire_eq := hwire, numbered := hnum
          ended := fun hended => by simp at hended }
      · exact h
  | header x =>
      have hheld : s.lock = some .writer := hlock.2 (by rw [hpc]; rfl)
      have hstop := (StopPc.not_holds (h.not_holds.2.2 (by rw [hheld]; simp))).1
      rw [hpc, hstop] at hwire
      simp only [State.writeStep, hpc, if_true]
      split_ifs with hempty
      · refine orderly_writer_done h hheld (by rw [hpc]; rfl) ?_
        simp only [State.record, State.transfer, Outcome.sent, hwire, hempty, WritePc.unfinished,
          List.append_nil]
      · rw [hpc] at hnum
        exact { h with
          writer_lock := by simp [State.transfer, hheld, WritePc.holds]
          wire_eq := by
            simp only [State.transfer, Outcome.sent, hwire, hstop, WritePc.unfinished,
              List.append_nil]
          numbered := hnum
          ended := fun hended => by simp at hended }
  | payload x hne =>
      have hheld : s.lock = some .writer := hlock.2 (by rw [hpc]; rfl)
      have hstop := (StopPc.not_holds (h.not_holds.2.2 (by rw [hheld]; simp))).1
      rw [hpc, hstop] at hwire
      simp only [State.writeStep, hpc, if_true]
      refine orderly_writer_done h hheld (by rw [hpc]; rfl) ?_
      simp only [State.record, State.transfer, Outcome.sent, hwire, WritePc.unfinished,
        List.append_nil, List.append_assoc]
  | ended => simpa only [State.writeStep, hpc] using h

theorem orderly_beat (h : Orderly first s) : Orderly first (s.beatStep .full) := by
  have hlock := h.beat_lock
  cases hpc : s.beat with
  | check =>
      rw [hpc] at hlock
      simp only [State.beatStep, hpc]
      split_ifs <;> exact { h with beat_lock := hlock }
  | lock =>
      simp only [State.beatStep, hpc]
      split_ifs with hfree
      · exact { h with
          writer_lock := by simpa [hfree] using h.writer_lock
          beat_lock := by simp [BeatPc.holds]
          stop_lock := by simpa [hfree] using h.stop_lock }
      · exact h
  | header =>
      have hheld : s.lock = some .beat := hlock.2 (by rw [hpc]; rfl)
      have hwriter := h.not_holds.1 (by rw [hheld]; simp)
      have hstopper := h.not_holds.2.2 (by rw [hheld]; simp)
      have hunf := WritePc.not_holds hwriter
      obtain ⟨hstop, hclose⟩ := StopPc.not_holds hstopper
      have hwire := h.wire_eq
      rw [hunf, hstop] at hwire
      simp only [State.beatStep, hpc, if_true]
      exact
        { h with
          writer_lock := by simp [State.record, State.transfer, hwriter]
          beat_lock := by simp [BeatPc.holds]
          stop_lock := by simp [State.record, State.transfer, hstopper]
          wire_eq := by
            simp only [State.record, State.transfer, Outcome.sent, encodeAll_map_concat, hwire,
              hunf, hstop, List.append_nil]
            rfl
          numbered := by
            simp only [State.record, State.transfer, written_append, written_heartbeat,
              List.append_nil]
            exact h.numbered
          beats := fun y hy hsource => by
            rcases List.mem_append.1 hy with hy | hy
            · exact h.beats y hy hsource
            · rw [List.mem_singleton.1 hy]
          closed := closedTo_concat h.closed hclose (by simp) }
  | sleep =>
      rw [hpc] at hlock
      simp only [State.beatStep, hpc]
      exact { h with beat_lock := hlock }
  | ended => simpa only [State.beatStep, hpc] using h

theorem orderly_stop (h : Orderly first s) : Orderly first (s.stopStep .full) := by
  have hlock := h.stop_lock
  have hwire := h.wire_eq
  have hclosed := h.closed
  have htake : s.lock = none →
      (none = some Owner.writer ↔ s.writer.holds = true) ∧
        (none = some Owner.beat ↔ s.beat.holds = true) :=
    fun hfree => ⟨hfree ▸ h.writer_lock, hfree ▸ h.beat_lock⟩
  have hheld : s.stopper.holds = true → s.lock = some .stopper ∧ s.writer.holds = false ∧
      s.beat.holds = false ∧ s.writer.unfinished = [] := by
    intro hholds
    have hst := hlock.2 hholds
    have hw := h.not_holds.1 (by rw [hst]; simp)
    exact ⟨hst, hw, h.not_holds.2.1 (by rw [hst]; simp), WritePc.not_holds hw⟩
  cases hpc : s.stopper with
  | idle =>
      rw [hpc] at hlock hwire hclosed
      simp only [State.stopStep, hpc]
      exact { h with
        stop_lock := hlock, wire_eq := hwire, closed := hclosed
        ended := fun _ => rfl }
  | joinWrite | joinRead | joinBeat | joinConnect =>
      rw [hpc] at hlock hwire hclosed
      simp only [State.stopStep, hpc]
      exact { h with stop_lock := hlock, wire_eq := hwire, closed := hclosed }
  | lock | lockInterface =>
      rw [hpc] at hwire hclosed
      simp only [State.stopStep, hpc]
      split_ifs with hfree
      · obtain ⟨hwriter, hbeat⟩ := htake hfree
        exact { h with
          writer_lock := by simpa using hwriter
          beat_lock := by simpa using hbeat
          stop_lock := by simp [StopPc.holds]
          wire_eq := hwire, closed := hclosed }
      · exact h
  | release =>
      obtain ⟨hst, -, -, hunf⟩ := hheld (by rw [hpc]; rfl)
      rw [hpc, hunf] at hwire
      rw [hpc] at hclosed
      simp only [State.stopStep, hpc, if_true]
      exact { h with
        stop_lock := by simp [State.transfer, hst, StopPc.holds]
        wire_eq := by
          simp only [State.transfer, Outcome.sent, hwire, hunf, StopPc.unfinished, List.append_nil,
            List.nil_append]
        closed := hclosed }
  | releasePayload =>
      obtain ⟨hst, -, -, hunf⟩ := hheld (by rw [hpc]; rfl)
      rw [hpc, hunf] at hwire
      rw [hpc] at hclosed
      simp only [State.stopStep, hpc, if_true]
      exact { h with
        stop_lock := by simp [State.record, State.transfer, hst, StopPc.holds]
        wire_eq := by
          simp only [State.record, State.transfer, Outcome.sent, encodeAll_map_concat, hwire, hunf,
            StopPc.unfinished, List.append_nil, List.nil_append, List.append_assoc]
        numbered := by
          simp only [State.record, State.transfer, written_append, written_closing,
            List.append_nil]
          exact h.numbered
        beats := beats_concat h (by simp)
        closed := ⟨s.log, hclosed, rfl⟩ }
  | close =>
      obtain ⟨-, hwriter, hbeat, hunf⟩ := hheld (by rw [hpc]; rfl)
      rw [hpc, hunf] at hwire
      rw [hpc] at hclosed
      obtain ⟨pre, hpre, hlog⟩ := hclosed
      simp only [State.stopStep, hpc, if_true]
      exact { h with
        writer_lock := by simp [State.record, State.transfer, hwriter]
        beat_lock := by simp [State.record, State.transfer, hbeat]
        stop_lock := by simp [StopPc.holds]
        wire_eq := by
          simp only [State.record, State.transfer, Outcome.sent, encodeAll_map_concat, hwire, hunf,
            StopPc.unfinished, List.append_nil, closeDongle]
        numbered := by
          simp only [State.record, State.transfer, written_append, written_closing,
            List.append_nil]
          exact h.numbered
        beats := beats_concat h (by simp)
        closed := ⟨pre, [], hpre, by simp [NoClosing],
          by simp [State.record, State.transfer, hlog]⟩ }
  | interface =>
      obtain ⟨-, hwriter, hbeat, hunf⟩ := hheld (by rw [hpc]; rfl)
      rw [hpc] at hwire hclosed
      simp only [State.stopStep, hpc]
      exact { h with
        writer_lock := by simp [hwriter]
        beat_lock := by simp [hbeat]
        stop_lock := by simp [StopPc.holds]
        wire_eq := hwire, closed := hclosed }
  | done => simpa only [State.stopStep, hpc] using h

end Threads

theorem orderly_start (first : List Message) : Orderly first (State.start first) where
  writer_lock := by simp [State.start, WritePc.holds]
  beat_lock := by simp [State.start, BeatPc.holds]
  stop_lock := by simp [State.start, StopPc.holds]
  wire_eq := rfl
  numbered := rfl
  evicted_audio o ho := by simp [State.start] at ho
  evicted_lt o ho := by simp [State.start] at ho
  first_prefix := List.prefix_refl _
  first_eq _ := rfl
  ended hended := by simp [State.start] at hended
  beats x hx := by simp [State.start] at hx
  closed x hx := by simp [State.start] at hx

/-- **Every event keeps the invariant**, if its transfer is full. -/
theorem orderly_step {first : List Message} {s : State} (h : Orderly first s) {e : Event}
    (he : e.Full) : Orderly first (s.step e) := by
  cases e with
  | init => exact orderly_init h
  | call i m =>
      simp only [State.step]
      split_ifs
      · exact { h with }
      · exact h
  | send i missed =>
      simp only [State.step]
      split_ifs with htodo
      · exact orderly_send h htodo i missed
      · exact h
  | write o =>
      obtain rfl : o = .full := he
      exact orderly_write h
  | beat o =>
      obtain rfl : o = .full := he
      simp only [State.step]
      split_ifs
      · exact orderly_beat h
      · exact h
  | stop o =>
      obtain rfl : o = .full := he
      simp only [State.step]
      split_ifs
      · exact orderly_stop h
      · exact h

theorem orderly_run (first : List Message) {es : List Event}
    (hes : Along State.step (fun _ e => e.Full) (State.start first) es) :
    Orderly first (run State.step (State.start first) es) :=
  hes.invariant (I := Orderly first) (fun _ _ h he => orderly_step h he) (orderly_start first)

/-- The queue never refuses an init message: `initStep` always finds room. -/
theorem init_has_room (c : Config) (now : BitVec 64) {s : State}
    (h : Orderly (initSequence c now) s) (htodo : s.todo ≠ []) :
    s.queue.length < sendQueueCapacity := by
  have hlen := congrArg List.length h.numbered
  have hkept : (kept s.accepted s.evicted).length ≤ s.accepted.length := by
    have := List.length_filter_le (fun o => decide (o ∉ s.evicted)) (outgoings s.accepted)
    rwa [outgoings, List.length_mapIdx] at this
  have hfirst := congrArg List.length (h.first_eq htodo)
  have htwelve := initSequence_length_le c now
  rw [List.length_append, List.length_append] at hlen
  rw [List.length_append] at hfirst
  have hcap : sendQueueCapacity = 128 := rfl
  omega

/-! ### What is on the wire -/

/-- The closing messages are adjacent: the log holds none, ends with the first one
while `stop` is about to write the second, or holds the two next to each other. -/
def ClosingAdjacent (log : List Sent) : Prop :=
  NoClosing log ∨
    (∃ pre, NoClosing pre ∧ log = pre ++ [⟨.closing, releaseVideoFocus⟩]) ∨
    ∃ pre post, NoClosing pre ∧ NoClosing post ∧
      log = pre ++ ([⟨.closing, releaseVideoFocus⟩, ⟨.closing, closeDongle⟩] ++ post)

/-- What the send side promises in a state `s`, when `first` is the init sequence. -/
structure WellWritten (first : List Message) (s : State) : Prop where
  /-- The wire decodes into the messages of the log. -/
  decoded : headerLayout.scan 0 s.wire = framesOf 0 (s.log.map Sent.message)
  /-- Between two uses of the lock nothing but whole messages is on the wire. -/
  whole : s.lock = none → s.wire = encodeAll (s.log.map Sent.message)
  /-- The accepted messages that were not evicted are, in the order of their
  acceptance: the written ones, the one in the hand of the write thread, and those
  in the queue. -/
  ordered : kept s.accepted s.evicted = written s.log ++ (s.writer.taken ++ s.queue)
  /-- No accepted message was written twice. -/
  once : (written s.log).Pairwise fun a b => a.id < b.id
  /-- Only audio was evicted. -/
  audio : ∀ o ∈ s.evicted, o.message.type = MessageType.audioData
  /-- The messages from the queue begin with the init sequence, or are a beginning
  of it. -/
  init : (written s.log).map Outgoing.message <+: first ∨
    first <+: (written s.log).map Outgoing.message
  /-- The write thread leaves messages unwritten only when `running` is false. -/
  stopped : s.writer = .ended → s.running = false
  beats : ∀ x ∈ s.log, x.source = .heartbeat → x.message = heartbeat
  closing : ClosingAdjacent s.log

/-- A message that is written up to its header is no frame yet. -/
theorem scan_unfinished {first : List Message} {s : State} (h : Orderly first s) (pos : ℕ) :
    headerLayout.scan pos (s.writer.unfinished ++ s.stopper.unfinished) = [] := by
  have hhead : ∀ m : Message, m.payload ≠ [] → headerLayout.scan pos m.headerBytes = [] := by
    intro m hm
    have hinc := incomplete_headerBytes_append (m := m) (p := []) (List.length_pos_iff.2 hm)
    rw [List.append_nil] at hinc
    exact Layout.scan_incomplete hinc
  by_cases hlock : s.lock = some .stopper
  · rw [WritePc.not_holds (h.not_holds.1 (by rw [hlock]; simp)), List.nil_append]
    cases s.stopper with
    | releasePayload =>
        exact hhead releaseVideoFocus (by simp [releaseVideoFocus, sendCommand, int32, le32])
    | _ => exact Layout.scan_nil
  · rw [(StopPc.not_holds (h.not_holds.2.2 hlock)).1, List.append_nil]
    cases s.writer with
    | payload x hne => exact hhead x.message hne
    | _ => exact Layout.scan_nil

theorem unfinished_of_free {first : List Message} {s : State} (h : Orderly first s)
    (hfree : s.lock = none) : s.writer.unfinished ++ s.stopper.unfinished = [] := by
  rw [WritePc.not_holds (h.not_holds.1 (by rw [hfree]; simp)),
    (StopPc.not_holds (h.not_holds.2.2 (by rw [hfree]; simp))).1, List.append_nil]

/-- Messages that are not audio are all kept. -/
theorem map_message_kept {accepted : List Message} {evicted : List Outgoing}
    (hev : ∀ o ∈ evicted, o.message.type = MessageType.audioData)
    (hacc : ∀ m ∈ accepted, m.type ≠ MessageType.audioData) (more : List Message) :
    ∃ rest, (kept (accepted ++ more) evicted).map Outgoing.message = accepted ++ rest ∧
      (more = [] → rest = []) := by
  have hself : (outgoings accepted).filter (· ∉ evicted) = outgoings accepted := by
    refine List.filter_eq_self.2 fun o ho => ?_
    rw [decide_eq_true_iff]
    intro hmem
    refine hacc o.message ?_ (hev o hmem)
    rw [← map_message_outgoings accepted]
    exact List.mem_map_of_mem ho
  refine ⟨((more.mapIdx fun i m => (⟨i + accepted.length, m⟩ : Outgoing)).filter
    (· ∉ evicted)).map Outgoing.message, ?_, ?_⟩
  · have hsplit : outgoings (accepted ++ more) =
        outgoings accepted ++ more.mapIdx fun i m => (⟨i + accepted.length, m⟩ : Outgoing) :=
      List.mapIdx_append
    rw [kept, hsplit, List.filter_append, hself, List.map_append, map_message_outgoings]
  · rintro rfl
    rfl

/-- **Order and loss on the send side.**  Whatever the threads do, and in whatever
order, as long as every transfer writes all it is given. -/
theorem wellWritten (c : Config) (now : BitVec 64) (es : List Event)
    (hes : Along State.step (fun _ e => e.Full) (State.start (initSequence c now)) es) :
    WellWritten (initSequence c now)
      (run State.step (State.start (initSequence c now)) es) := by
  have h := orderly_run (initSequence c now) hes
  generalize run State.step (State.start (initSequence c now)) es = s at h
  have hinit : ∀ m ∈ initSequence c now, m.type ≠ MessageType.audioData :=
    fun m hm => type_ne_audioData_of_mem_initSequence hm
  refine ⟨?_, ?_, h.numbered, ?_, h.evicted_audio, ?_, h.ended, h.beats, ?_⟩
  · rw [h.wire_eq, scan_encodeAll_append, scan_unfinished h, List.append_nil]
  · intro hfree
    rw [h.wire_eq, unfinished_of_free h hfree, List.append_nil]
  · have hpair := kept_pairwise s.accepted s.evicted
    rw [h.numbered] at hpair
    exact (List.pairwise_append.1 hpair).1
  · -- both are beginnings of the kept messages followed by what is still to come
    have hwritten : (written s.log).map Outgoing.message <+:
        (kept s.accepted s.evicted).map Outgoing.message ++ s.todo := by
      rw [h.numbered, List.map_append, List.append_assoc]
      exact List.prefix_append _ _
    refine List.prefix_or_prefix_of_prefix hwritten ?_
    obtain ⟨more, hmore⟩ := h.first_prefix
    rcases List.append_eq_append_iff.1 hmore with ⟨late, hacc, -⟩ | ⟨left, hfirst, -⟩
    · obtain ⟨rest, hkept, -⟩ := map_message_kept h.evicted_audio hinit late
      rw [hacc, hkept, List.append_assoc]
      exact List.prefix_append _ _
    · have hacc : ∀ m ∈ s.accepted, m.type ≠ MessageType.audioData := by
        intro m hm
        exact hinit m (by rw [hfirst]; exact List.mem_append_left _ hm)
      obtain ⟨rest, hkept, hnil⟩ := map_message_kept h.evicted_audio hacc []
      rw [List.append_nil, hnil rfl, List.append_nil] at hkept
      rw [hkept, ← hmore]
      exact List.prefix_append _ _
  · have hclosed := h.closed
    cases hpc : s.stopper <;> rw [hpc] at hclosed
    case idle | joinWrite | lock | release | releasePayload => exact .inl hclosed
    case close => exact .inr (.inl hclosed)
    all_goals exact .inr (.inr hclosed)

/-- The init sequence begins to go out, a touch is queued behind it, a heartbeat
goes between, and `stop` closes while most of the queue is unwritten. -/
theorem wellWritten_touch :
    WellWritten (initSequence {} 0)
      (run State.step (State.start (initSequence {} 0))
        (List.replicate 12 .init ++ List.replicate 5 (.write .full) ++
          [.call 0 ⟨MessageType.touch, List.replicate 16 0, by decide⟩, .send 0 false] ++
          List.replicate 4 (.beat .full) ++ List.replicate 12 (.stop .full) ++
          List.replicate 5 (.write .full))) :=
  wellWritten {} 0 _ (by decide)

end Driver
end Carlinkit
