/-
# Writing one message

`CarlinkitDriver.sendNow`.  A message goes out in two `bulkTransfer`s, one for
the header and, if there is a payload, one for the payload; each can write
everything, come back with another value, or throw, and in the last two cases
any number of bytes may have gone out.  The callers count a failure and go on
with the next message.

The receiver sees one stream.  `tagged` keeps beside every byte the number of
the message that it was written for, so that "the receiver takes bytes of one
message as part of another" is a statement about the chunks in which it reads
the stream (`OwnBytes`).  `ownBytes_iff` says when this does not happen: nothing
may be written after a message that was cut off in the middle.
-/

import Carlinkit.Protocol.Header

namespace Carlinkit
namespace Driver

open Framing Protocol

/-- What `bulkTransfer(epOut, bs, bs.length, WRITE_TIMEOUT_MS)` does. -/
inductive Outcome
  /-- Everything was written; the length is returned. -/
  | full
  /-- Another value is returned, or it throws; the first `n` bytes have gone out. -/
  | failed (n : ℕ) (throws : Bool)
deriving DecidableEq, Repr

/-- The bytes that reach the endpoint. -/
def Outcome.sent (bs : List Byte) : Outcome → List Byte
  | .full => bs
  | .failed n _ => bs.take n

/-- What the comparison of the returned value with the length gives; `none` when
there is no value. -/
def Outcome.complete : Outcome → Option Bool
  | .full => some true
  | .failed _ throws => if throws then none else some false

/-- `sendNow`: the bytes that it writes and what it returns, `none` when it
throws. -/
def sendNow (m : Message) (o₁ o₂ : Outcome) : List Byte × Option Bool :=
  if o₁.complete = some true then
    if m.payload = [] then (o₁.sent m.headerBytes, some true)
    else (o₁.sent m.headerBytes ++ o₂.sent m.payload, o₂.complete)
  else (o₁.sent m.headerBytes, o₁.complete)

/-- A written header without all of its payload is an incomplete message. -/
theorem incomplete_headerBytes_append {m : Message} {p : List Byte}
    (h : p.length < m.payload.length) : headerLayout.Incomplete (m.headerBytes ++ p) := by
  refine .inr ⟨m.header, ?_, ?_⟩
  · rw [List.take_left' m.writes_headerBytes.1]
    exact m.writes_headerBytes.2
  · rw [List.length_append, m.writes_headerBytes.1]
    exact Nat.add_lt_add_left h _

/-- A call of `sendNow` with the outcomes of its two transfers. -/
structure Sending where
  message : Message
  header : Outcome
  payload : Outcome
deriving DecidableEq, Repr

namespace Sending

/-- The bytes that went out. -/
def bytes (w : Sending) : List Byte := (sendNow w.message w.header w.payload).1

/-- The message was cut off: in its payload, in its header, or after a header whose
transfer did not report success. -/
def interrupted (w : Sending) : Prop :=
  match w.header, w.payload with
  | .full, .full => False
  | .full, .failed n _ => n < w.message.payload.length
  | .failed n _, _ => 0 < n ∧ (n < headerSize ∨ w.message.payload ≠ [])

/-- No byte of the message went out. -/
def unwritten (w : Sending) : Prop :=
  match w.header with
  | .full => False
  | .failed n _ => n = 0

instance : ∀ w : Sending, Decidable w.interrupted
  | ⟨_, .full, .full⟩ => inferInstanceAs (Decidable False)
  | ⟨m, .full, .failed n _⟩ => inferInstanceAs (Decidable (n < m.payload.length))
  | ⟨m, .failed n _, _⟩ =>
      inferInstanceAs (Decidable (0 < n ∧ (n < headerSize ∨ m.payload ≠ [])))

instance : ∀ w : Sending, Decidable w.unwritten
  | ⟨_, .full, _⟩ => inferInstanceAs (Decidable False)
  | ⟨_, .failed n _, _⟩ => inferInstanceAs (Decidable (n = 0))

/-- **What `sendNow` leaves on the wire**: an incomplete message, nothing, or the
whole message. -/
theorem bytes_cases (w : Sending) :
    w.interrupted ∧ ¬ w.unwritten ∧ w.bytes ≠ [] ∧ headerLayout.Incomplete w.bytes ∨
      ¬ w.interrupted ∧ w.unwritten ∧ w.bytes = [] ∨
      ¬ w.interrupted ∧ ¬ w.unwritten ∧ w.bytes = w.message.encode := by
  obtain ⟨m, o₁, o₂⟩ := w
  have hne : m.headerBytes ≠ [] := List.ne_nil_of_length_pos (by rw [m.headerBytes_length]; omega)
  cases o₁ with
  | full =>
      by_cases hp : m.payload = []
      · refine .inr (.inr ⟨?_, id, ?_⟩)
        · cases o₂ <;> simp [interrupted, hp]
        · simp [bytes, sendNow, Outcome.complete, Outcome.sent, hp, Message.encode]
      · have hbytes : (⟨m, .full, o₂⟩ : Sending).bytes = m.headerBytes ++ o₂.sent m.payload := by
          simp [bytes, sendNow, Outcome.complete, Outcome.sent, hp]
        rw [hbytes]
        cases o₂ with
        | full => exact .inr (.inr ⟨id, id, rfl⟩)
        | failed n throws =>
            by_cases hn : n < m.payload.length
            · refine .inl ⟨hn, id, by simp [hne], incomplete_headerBytes_append ?_⟩
              rw [Outcome.sent, List.length_take]
              omega
            · refine .inr (.inr ⟨hn, id, ?_⟩)
              rw [Outcome.sent, List.take_of_length_le (by omega), Message.encode]
  | failed n throws =>
      have hbytes : (⟨m, .failed n throws, o₂⟩ : Sending).bytes = m.headerBytes.take n := by
        cases throws <;> simp [bytes, sendNow, Outcome.complete, Outcome.sent]
      rw [hbytes]
      by_cases h0 : n = 0
      · subst h0
        exact .inr (.inl ⟨fun h => absurd h.1 (Nat.lt_irrefl 0), rfl, List.take_zero⟩)
      have hlen := m.headerBytes_length
      have htake : m.headerBytes.take n ≠ [] := by
        refine List.ne_nil_of_length_pos ?_
        rw [List.length_take]
        omega
      by_cases h16 : n < headerSize
      · refine .inl ⟨⟨by omega, .inl h16⟩, h0, htake, .inl ?_⟩
        rw [List.length_take]
        exact Nat.lt_of_le_of_lt (Nat.min_le_left _ _) h16
      · have hall : m.headerBytes.take n = m.headerBytes :=
          List.take_of_length_le (by rw [hlen]; exact Nat.not_lt.1 h16)
        rw [hall]
        by_cases hp : m.payload = []
        · refine .inr (.inr ⟨fun h => ?_, h0, by rw [Message.encode, hp, List.append_nil]⟩)
          exact h.2.elim h16 (· hp)
        · refine .inl ⟨⟨by omega, .inr hp⟩, h0, hne, ?_⟩
          have := incomplete_headerBytes_append (m := m) (p := []) (List.length_pos_iff.2 hp)
          rwa [List.append_nil] at this

end Sending

/-- The bytes of a sequence of calls, each with the number of its call, counted
from `i`. -/
def tagged : ℕ → List Sending → List (Byte × ℕ)
  | _, [] => []
  | i, w :: ws => w.bytes.map (·, i) ++ tagged (i + 1) ws

/-- The receiver takes every byte as part of the message that it was written for:
what it counts as one message holds bytes of one call only. -/
def OwnBytes (i : ℕ) (ws : List Sending) : Prop :=
  ∀ c ∈ (headerLayout.comap Prod.fst).chunks (tagged i ws), ∀ a ∈ c, ∀ b ∈ c, a.2 = b.2

/-- Nothing is written after a message that was cut off. -/
def QuietAfterCut (ws : List Sending) : Prop :=
  ws.Pairwise fun w w' => w.interrupted → w'.unwritten

theorem le_of_mem_tagged {i : ℕ} {ws : List Sending} {b : Byte × ℕ} (hb : b ∈ tagged i ws) :
    i ≤ b.2 := by
  induction ws generalizing i with
  | nil => simp [tagged] at hb
  | cons w ws ih =>
      rcases List.mem_append.1 hb with hb | hb
      · obtain ⟨a, -, rfl⟩ := List.mem_map.1 hb
        exact Nat.le_refl _
      · exact Nat.le_of_succ_le (ih hb)

/-- Nothing is on the wire exactly when no call wrote anything. -/
theorem tagged_eq_nil_iff (i : ℕ) (ws : List Sending) :
    tagged i ws = [] ↔ ∀ w ∈ ws, w.unwritten := by
  induction ws generalizing i with
  | nil => simp [tagged]
  | cons w ws ih =>
      have hw : w.bytes = [] ↔ w.unwritten := by
        rcases w.bytes_cases with ⟨-, hu, hne, -⟩ | ⟨-, hu, he⟩ | ⟨-, hu, he⟩
        · simp [hu, hne]
        · simp [hu, he]
        · rw [he]
          have : w.message.encode ≠ [] := by
            refine List.ne_nil_of_length_pos ?_
            rw [Message.encode_length]
            omega
          simp [hu, this]
      simp [tagged, ih, hw]

theorem map_fst_tag (bs : List Byte) (i : ℕ) : (bs.map (·, i)).map Prod.fst = bs := by
  simp [Function.comp_def]

/-- All bytes of one call carry its number. -/
theorem snd_of_mem_bytes {w : Sending} {i : ℕ} {b : Byte × ℕ} (hb : b ∈ w.bytes.map (·, i)) :
    b.2 = i := by
  obtain ⟨a, -, rfl⟩ := List.mem_map.1 hb
  rfl

/-- After a message that was cut off, the stream stays in step only if nothing
follows. -/
theorem ownBytes_cons_interrupted {i : ℕ} {w : Sending} {ws : List Sending} (hne : w.bytes ≠ [])
    (hinc : headerLayout.Incomplete w.bytes) :
    OwnBytes i (w :: ws) ↔ tagged (i + 1) ws = [] := by
  have hinc' : (headerLayout.comap Prod.fst).Incomplete (w.bytes.map (·, i)) :=
    Layout.incomplete_comap (by rwa [map_fst_tag])
  constructor
  · intro hown
    cases hrest : tagged (i + 1) ws with
    | nil => rfl
    | cons b rest =>
        -- the chunk that begins with the cut message holds the first later byte
        exfalso
        obtain ⟨n, hn, hchunks⟩ := Layout.chunks_incomplete (by simpa using hne) hinc'
          (tagged (i + 1) ws)
        have hmem : (w.bytes.map (·, i) ++ tagged (i + 1) ws).take n ∈
            (headerLayout.comap Prod.fst).chunks (tagged i (w :: ws)) := by
          rw [tagged, hchunks]
          exact List.mem_cons_self ..
        rw [hrest, List.take_append] at hmem
        have hpos : n - (w.bytes.map (·, i)).length = n - (w.bytes.map (·, i)).length - 1 + 1 := by
          omega
        rw [hpos, List.take_succ_cons, List.take_of_length_le (by omega)] at hmem
        obtain ⟨a, as, hcons⟩ := List.exists_cons_of_ne_nil hne
        have ha : (a, i) ∈ w.bytes.map (·, i) := by rw [hcons]; exact List.mem_cons_self ..
        have htag := hown _ hmem (a, i) (List.mem_append_left _ ha) b
          (List.mem_append_right _ (List.mem_cons_self ..))
        have hmem' : b ∈ tagged (i + 1) ws := by
          rw [hrest]
          exact List.mem_cons_self ..
        have hb : i + 1 ≤ b.2 := le_of_mem_tagged hmem'
        have htag' : i = b.2 := htag
        omega
  · intro hrest c hc a ha b hb
    rw [tagged, hrest, List.append_nil] at hc
    rw [snd_of_mem_bytes (Layout.mem_of_mem_chunks hc ha),
      snd_of_mem_bytes (Layout.mem_of_mem_chunks hc hb)]

/-- A message that was written whole is a chunk of its own. -/
theorem ownBytes_cons_encode {i : ℕ} {w : Sending} {ws : List Sending}
    (he : w.bytes = w.message.encode) : OwnBytes i (w :: ws) ↔ OwnBytes (i + 1) ws := by
  have hw : (headerLayout.comap Prod.fst).Writes w.message.header
      (w.message.headerBytes.map (·, i)) :=
    Layout.writes_comap (by rw [map_fst_tag]; exact w.message.writes_headerBytes)
  have hchunks : (headerLayout.comap Prod.fst).chunks (tagged i (w :: ws)) =
      w.bytes.map (·, i) :: (headerLayout.comap Prod.fst).chunks (tagged (i + 1) ws) := by
    have hp : (w.message.payload.map (·, i)).length =
        headerLayout.size w.message.header := by
      rw [List.length_map]
      rfl
    rw [tagged, he, Message.encode, List.map_append, List.append_assoc]
    exact Layout.chunks_encode hw hp
  unfold OwnBytes
  rw [hchunks]
  constructor
  · exact fun hown c hc => hown c (List.mem_cons_of_mem _ hc)
  · intro hown c hc
    rcases List.mem_cons.1 hc with rfl | hc
    · intro a ha b hb
      rw [snd_of_mem_bytes ha, snd_of_mem_bytes hb]
    · exact hown c hc

/-- **When the stream stays in step.**  For every sequence of messages and every
outcome of every transfer, the receiver never takes bytes of one message as part
of another exactly when nothing is written after a message that was cut off. -/
theorem ownBytes_iff (i : ℕ) (ws : List Sending) : OwnBytes i ws ↔ QuietAfterCut ws := by
  induction ws generalizing i with
  | nil => simp [OwnBytes, QuietAfterCut, tagged]
  | cons w ws ih =>
      unfold QuietAfterCut at ih ⊢
      rw [List.pairwise_cons, ← ih (i + 1)]
      rcases w.bytes_cases with ⟨hint, -, hne, hinc⟩ | ⟨hint, -, he⟩ | ⟨hint, -, he⟩
      · rw [ownBytes_cons_interrupted hne hinc]
        constructor
        · intro hrest
          exact ⟨fun w' hw' _ => (tagged_eq_nil_iff _ _).1 hrest w' hw', by simp [OwnBytes, hrest]⟩
        · rintro ⟨hquiet, -⟩
          exact (tagged_eq_nil_iff _ _).2 fun w' hw' => hquiet w' hw' hint
      · simp [OwnBytes, tagged, he, hint]
      · rw [ownBytes_cons_encode he]
        exact ⟨fun h => ⟨fun _ _ h' => absurd h' hint, h⟩, And.right⟩

/-- **A heartbeat goes into the payload of a touch.**  The header of a touch is
written, its payload times out, and the next heartbeat is sent all the same: the
receiver takes its header as the missing payload. -/
theorem not_ownBytes_touch_heartbeat :
    ¬ OwnBytes 0
      [⟨⟨MessageType.touch, List.replicate 16 0, by decide⟩, .full, .failed 0 false⟩,
        ⟨⟨MessageType.heartbeat, [], by decide⟩, .full, .full⟩] := by
  intro h
  have hchunk := h _ (Layout.head_mem_chunks (by decide +kernel))
  revert hchunk
  decide +kernel

end Driver
end Carlinkit
