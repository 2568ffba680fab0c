/-
# Exceptions on the four threads

`CarlinkitDriver`: `ReadLoop`, `WriteLoop`, `HeartbeatLoop` and `ConnectLoop`, with the
exceptions that come up in them.  What a thread does between two actions on what the
threads share is a computation in `Except Thrown`: a `bulkTransfer` that throws is an
`.error`, a `try` of the source is a `tryCatch` at the same place, and an error that is
left at the end of such a computation has passed every handler and ends the thread
(`orDead`).  Nothing else ends a thread by an exception: nobody interrupts these threads,
and what `ConnectLoop` and the other callers of `send` do is to fill the queue.

`stop` clears `running`, once and for good, and goes on beside the loops; the transfers
may return any value, or throw, before and after that.  What `poll` brings and whether
`send` finds room is left to the event, so every content of the queue is covered.

Three of the loops put a handler around what they do, and the heartbeat's comment says
why.  `ReadLoop` has none around its two `bulkTransfer`s and none around the copy of a
chunk: `survives_iff` says that these are the only holes.
-/

import Carlinkit.Driver.ReadLoop
import Carlinkit.Driver.WriteSide

namespace Carlinkit
namespace Driver
namespace Loops

open Framing Protocol Machine

/-- What is thrown; all of it is an `Exception`. -/
inductive Thrown
  /-- `bulkTransfer` on a connection that was closed or unplugged. -/
  | transfer
  /-- `System.arraycopy` out of the range of an array. -/
  | indexOutOfBounds
  /-- A callback of the Listener. -/
  | callback
deriving DecidableEq, Repr

/-- What a `bulkTransfer(epIn, array, ..)` comes back with: its value, and what the array
now holds. -/
structure Filled where
  value : ℤ
  array : ℕ → Byte

/-- The first bytes of the array, as many as the value says. -/
def Filled.bytes (f : Filled) : List Byte := (List.range f.value.toNat).map f.array

@[simp] theorem Filled.bytes_length (f : Filled) : f.bytes.length = f.value.toNat := by
  rw [bytes, List.length_map, List.length_range]

/-- The return as the loop without exceptions has it. -/
def Filled.transfer (f : Filled) : Transfer :=
  if f.value < 0 then .failed else .received f.value.toNat

/-- Where a thread is: in its loop, behind it, or ended by an exception. -/
inductive Life (α : Type)
  | inLoop (pc : α)
  | ended
  | uncaught
deriving DecidableEq, Repr

/-- What a computation leaves, and `dead` if an exception is left of it. -/
def orDead {α : Type} (dead : α) : Except Thrown α → α
  | .ok a => a
  | .error _ => dead

@[simp] theorem orDead_ok {α : Type} (dead a : α) : orDead dead (.ok a) = a := rfl

@[simp] theorem orDead_pure {α : Type} (dead a : α) : orDead dead (pure a) = a := rfl

@[simp] theorem orDead_error {α : Type} (dead : α) (t : Thrown) : orDead dead (.error t) = dead :=
  rfl

@[simp] theorem ok_bind {α β : Type} (a : α) (g : α → Except Thrown β) :
    (.ok a : Except Thrown α) >>= g = g a := rfl

/-- **What is handled does not get out.**  A `try` whose handler goes on leaves a result. -/
theorem tryCatch_eq_ok {α : Type} (x : Except Thrown α) (y : α) :
    tryCatch x (fun _ => pure y) = .ok (orDead y x) := by
  cases x <;> rfl

/-! ### `ReadLoop` -/

/-- Where `ReadLoop` is. -/
inductive ReadPc
  /-- At the test of `running` in `run`. -/
  | check
  /-- In the `bulkTransfer` of `run`. -/
  | header
  /-- At the test of `running` in `readFully`, with `offset` bytes there and some missing. -/
  | fill (h : MessageHeader) (offset : ℕ)
  /-- In the `bulkTransfer` of `readFully`. -/
  | chunk (h : MessageHeader) (offset : ℕ)
deriving DecidableEq, Repr

/-- The read thread. -/
structure Reading where
  reader : Reader
  payloadBuf : List Byte
  pc : Life ReadPc
  /-- The headers that `onError` was called with. -/
  errors : List MessageHeader
deriving DecidableEq, Repr

/-- The length of the array `chunk` of `readFully`. -/
def chunkLength (total : ℕ) : ℕ := min total 16384

namespace Reading

/-- `dispatch(header, payload)`, and back to the top of `run`.  What the Listener throws
goes to `onError`. -/
def serve (r : Reading) (h : MessageHeader) (payload : Option (List Byte))
    (callback : Except Thrown Unit) : Except Thrown Reading :=
  let d := dispatch r.reader h payload
  let r' := { r with reader := d.1, pc := .inLoop .check }
  tryCatch
    (do
      if d.2.isSome then callback
      pure r')
    fun _ => pure { r' with errors := r'.errors ++ [h] }

/-- `run` after `readFully`, which has returned `got`. -/
def finish (r : Reading) (h : MessageHeader) (got : ℕ) (callback : Except Thrown Unit) :
    Except Thrown Reading :=
  if got ≠ h.length then pure { r with pc := .inLoop .check }
  else r.serve h (some r.payloadBuf) callback

/-- `run` after its header read. -/
def headerRead (r : Reading) (f : Filled) (callback : Except Thrown Unit) :
    Except Thrown Reading :=
  if f.value ≤ 0 then pure { r with pc := .inLoop .check }
  else if f.value ≠ headerSize then pure { r with pc := .inLoop .check }
  else
    match fromBytes f.bytes 0 headerSize with
    -- the handler of `IllegalArgumentException`
    | .error _ => pure { r with pc := .inLoop .check }
    | .ok h =>
        if h.hasPayload then
          pure
            { r with
              payloadBuf := ReadLoop.ensure r.payloadBuf h.length
              pc := .inLoop (.fill h 0) }
        else r.serve h none callback

/-- `System.arraycopy(chunk, 0, buf, offset, n)`, where `f` filled `chunk` and `n` is its
value. -/
def copyChunk (total : ℕ) (buf : List Byte) (offset : ℕ) (f : Filled) :
    Except Thrown (List Byte) :=
  if f.value ≤ chunkLength total ∧ offset + f.value ≤ buf.length then
    pure (arraycopy buf offset f.bytes)
  else throw .indexOutOfBounds

/-- `readFully` after one of its reads. -/
def chunkRead (r : Reading) (h : MessageHeader) (offset : ℕ) (f : Filled)
    (callback : Except Thrown Unit) : Except Thrown Reading :=
  if f.value < 0 then r.finish h offset callback
  else do
    let buf ← copyChunk h.length r.payloadBuf offset f
    let r' := { r with payloadBuf := buf }
    if offset + f.value.toNat < h.length then
      pure { r' with pc := .inLoop (.fill h (offset + f.value.toNat)) }
    else r'.finish h (offset + f.value.toNat) callback

/-- `ReadLoop`, up to its next action.  `t` is what the `bulkTransfer` does that it is in,
and `callback` what the Listener does if it is called. -/
def body (r : Reading) (running : Bool) (t : Except Thrown Filled)
    (callback : Except Thrown Unit) : Except Thrown Reading :=
  match r.pc with
  | .inLoop .check => pure { r with pc := if running then .inLoop .header else .ended }
  | .inLoop .header => do
      let f ← t
      r.headerRead f callback
  | .inLoop (.fill h offset) =>
      if running then pure { r with pc := .inLoop (.chunk h offset) }
      else r.finish h offset callback
  | .inLoop (.chunk h offset) => do
      let f ← t
      r.chunkRead h offset f callback
  | .ended | .uncaught => pure r

/-- One action of the read thread. -/
def step (r : Reading) (running : Bool) (t : Except Thrown Filled)
    (callback : Except Thrown Unit) : Reading :=
  orDead { r with pc := .uncaught } (r.body running t callback)

/-- What `ReadLoop` can take: its `bulkTransfer` returns, and in `readFully` with no more
bytes than `chunk` is long and `payloadBuf` has room for. -/
def Takes (r : Reading) (t : Except Thrown Filled) : Prop :=
  match r.pc, t with
  | .inLoop .header, .error _ | .inLoop (.chunk _ _), .error _ => False
  | .inLoop (.chunk h offset), .ok f =>
      0 ≤ f.value → f.value ≤ chunkLength h.length ∧ offset + f.value ≤ r.payloadBuf.length
  | _, _ => True

/-- The Listener throws or not, a message is dispatched and the loop goes on. -/
theorem serve_eq_ok (r : Reading) (h : MessageHeader) (payload : Option (List Byte))
    (callback : Except Thrown Unit) :
    ∃ errors, r.serve h payload callback =
      .ok ⟨(dispatch r.reader h payload).1, r.payloadBuf, .inLoop .check, errors⟩ := by
  unfold serve
  rw [tryCatch_eq_ok]
  split_ifs
  · cases callback with
    | error _ => exact ⟨_, rfl⟩
    | ok _ => exact ⟨_, rfl⟩
  · exact ⟨_, rfl⟩

theorem finish_eq_ok (r : Reading) (h : MessageHeader) (got : ℕ)
    (callback : Except Thrown Unit) :
    ∃ reader errors, r.finish h got callback =
      .ok ⟨reader, r.payloadBuf, .inLoop .check, errors⟩ := by
  unfold finish
  split_ifs
  · exact ⟨_, _, rfl⟩
  · obtain ⟨errors, heq⟩ := r.serve_eq_ok h (some r.payloadBuf) callback
    exact ⟨_, _, heq⟩

/-- Whatever a header read returns, the loop goes on. -/
theorem headerRead_eq_ok (r : Reading) (f : Filled) (callback : Except Thrown Unit) :
    ∃ r' pc, r.headerRead f callback = .ok r' ∧ r'.pc = .inLoop pc := by
  unfold headerRead
  split_ifs
  · exact ⟨_, _, rfl, rfl⟩
  · exact ⟨_, _, rfl, rfl⟩
  · cases fromBytes f.bytes 0 headerSize with
    | error _ => exact ⟨_, _, rfl, rfl⟩
    | ok h =>
        simp only
        split_ifs
        · exact ⟨_, _, rfl, rfl⟩
        · obtain ⟨errors, heq⟩ := r.serve_eq_ok h none callback
          exact ⟨_, _, heq, rfl⟩

/-- A chunk that fits is copied, and the loop goes on. -/
theorem chunkRead_eq_ok (r : Reading) {h : MessageHeader} {offset : ℕ} {f : Filled}
    (hf : 0 ≤ f.value →
      f.value ≤ chunkLength h.length ∧ offset + f.value ≤ r.payloadBuf.length)
    (callback : Except Thrown Unit) :
    ∃ r' pc, r.chunkRead h offset f callback = .ok r' ∧ r'.pc = .inLoop pc := by
  by_cases hneg : f.value < 0
  · rw [chunkRead, if_pos hneg]
    obtain ⟨_, _, heq⟩ := r.finish_eq_ok h offset callback
    exact ⟨_, _, heq, rfl⟩
  · rw [chunkRead, if_neg hneg, copyChunk, if_pos (hf (Int.not_lt.1 hneg)), pure_bind]
    by_cases hmore : offset + f.value.toNat < h.length
    · exact ⟨_, _, if_pos hmore, rfl⟩
    · obtain ⟨_, _, heq⟩ := finish_eq_ok
        { r with payloadBuf := arraycopy r.payloadBuf offset f.bytes } h
        (offset + f.value.toNat) callback
      exact ⟨_, _, (if_neg hmore).trans heq, rfl⟩

/-- A chunk that does not fit is an exception that nothing catches. -/
theorem chunkRead_eq_error (r : Reading) {h : MessageHeader} {offset : ℕ} {f : Filled}
    (hf : ¬ (0 ≤ f.value →
      f.value ≤ chunkLength h.length ∧ offset + f.value ≤ r.payloadBuf.length))
    (callback : Except Thrown Unit) :
    r.chunkRead h offset f callback = .error .indexOutOfBounds := by
  obtain ⟨hpos, hbig⟩ := Classical.not_imp.1 hf
  rw [chunkRead, if_neg (Int.not_lt.2 hpos), copyChunk, if_neg hbig]
  rfl

/-- **One action of the read thread.**  It goes on, and behind the loop it comes only when
`running` is false; or it could not take what its `bulkTransfer` did, and is dead. -/
theorem step_cases {r : Reading} (hr : r.pc ≠ .uncaught) (running : Bool)
    (t : Except Thrown Filled) (callback : Except Thrown Unit) :
    r.Takes t ∧ (r.step running t callback).pc ≠ .uncaught ∧
        (running = true → r.pc ≠ .ended → (r.step running t callback).pc ≠ .ended) ∨
      ¬ r.Takes t ∧ (r.step running t callback).pc = .uncaught := by
  obtain ⟨reader, payloadBuf, pc, errors⟩ := r
  cases pc with
  | uncaught => exact absurd rfl hr
  | ended => exact .inl ⟨trivial, hr, fun _ h => h⟩
  | inLoop pc =>
      cases pc with
      | check =>
          refine .inl ⟨trivial, ?_, fun hrun _ => ?_⟩
          · cases running <;> simp [step, body]
          · simp [step, body, hrun]
      | fill h offset =>
          refine .inl ⟨trivial, ?_⟩
          cases running with
          | true => simp [step, body]
          | false =>
              obtain ⟨_, _, heq⟩ := finish_eq_ok
                ⟨reader, payloadBuf, .inLoop (.fill h offset), errors⟩ h offset callback
              simp [step, body, heq]
      | header =>
          cases t with
          | error _ => exact .inr ⟨id, rfl⟩
          | ok f =>
              obtain ⟨r', pc, heq, hpc⟩ := headerRead_eq_ok
                ⟨reader, payloadBuf, .inLoop .header, errors⟩ f callback
              refine .inl ⟨trivial, ?_⟩
              simp [step, body, heq, hpc]
      | chunk h offset =>
          cases t with
          | error _ => exact .inr ⟨id, rfl⟩
          | ok f =>
              set r : Reading := ⟨reader, payloadBuf, .inLoop (.chunk h offset), errors⟩
              by_cases hf : r.Takes (.ok f)
              · obtain ⟨r', pc, heq, hpc⟩ := r.chunkRead_eq_ok hf callback
                refine .inl ⟨hf, ?_⟩
                simp [r, step, body, heq, hpc]
              · have heq := r.chunkRead_eq_error hf callback
                exact .inr ⟨hf, by simp [r, step, body, heq]⟩

/-- The thread is where `l` is, which has no place for the tests of `running`. -/
structure Matches (r : Reading) (l : ReadLoop) : Prop where
  reader : r.reader = l.reader
  payloadBuf : r.payloadBuf = l.payloadBuf
  place :
    match r.pc with
    | .inLoop .check | .inLoop .header => l.phase = .header
    | .inLoop (.fill h offset) | .inLoop (.chunk h offset) => l.phase = .payload h offset
    | .ended | .uncaught => False

/-- While `running` is true, a test of it changes nothing. -/
theorem matches_test {r : Reading} {l : ReadLoop} (hm : r.Matches l)
    (hpc : r.pc = .inLoop .check ∨ ∃ h offset, r.pc = .inLoop (.fill h offset))
    (t : Except Thrown Filled) (callback : Except Thrown Unit) :
    (r.step true t callback).Matches l := by
  obtain ⟨hreader, hbuf, hplace⟩ := hm
  rcases hpc with hpc | ⟨h, offset, hpc⟩
  all_goals
    rw [hpc] at hplace
    rw [step, body, hpc]
    exact ⟨hreader, hbuf, hplace⟩

theorem matches_serve {r r' : Reading} {l : ReadLoop} (hreader : r.reader = l.reader)
    (hbuf : r.payloadBuf = l.payloadBuf) {h : MessageHeader} {payload : Option (List Byte)}
    {callback : Except Thrown Unit} (hr' : r.serve h payload callback = .ok r') :
    r'.Matches (l.serve h payload) := by
  obtain ⟨errors, heq⟩ := r.serve_eq_ok h payload callback
  obtain rfl := Except.ok.inj (heq.symm.trans hr')
  exact ⟨by rw [ReadLoop.serve, hreader], hbuf, rfl⟩

theorem matches_headerRead {r r' : Reading} {l : ReadLoop} (hreader : r.reader = l.reader)
    (hbuf : r.payloadBuf = l.payloadBuf) (hphase : l.phase = .header) {f : Filled}
    (hbytes : l.stream.take f.value.toNat = f.bytes) {callback : Except Thrown Unit}
    (hr' : r.headerRead f callback = .ok r') : r'.Matches (l.headerRead f.transfer) := by
  unfold headerRead at hr'
  by_cases hneg : f.value < 0
  · rw [if_pos (Int.le_of_lt hneg)] at hr'
    obtain rfl := Except.ok.inj hr'
    rw [Filled.transfer, if_pos hneg]
    exact ⟨hreader, hbuf, hphase⟩
  rw [Filled.transfer, if_neg hneg]
  split_ifs at hr' with hle hsize
  · obtain rfl := Except.ok.inj hr'
    rw [ReadLoop.headerRead, if_pos (by omega)]
    exact ⟨hreader, hbuf, hphase⟩
  · obtain rfl := Except.ok.inj hr'
    simp only [ReadLoop.headerRead, if_neg (show ¬ f.value.toNat = 0 by omega),
      if_pos (show f.value.toNat ≠ headerSize by omega)]
    exact ⟨hreader, hbuf, hphase⟩
  · have hn : f.value.toNat = headerSize := by omega
    simp only [ReadLoop.headerRead, if_neg (show ¬ f.value.toNat = 0 by omega),
      if_neg (not_not_intro hn), hbytes]
    rw [hn]
    cases hfrom : fromBytes f.bytes 0 headerSize with
    | error msg =>
        rw [hfrom] at hr'
        obtain rfl := Except.ok.inj hr'
        exact ⟨hreader, hbuf, hphase⟩
    | ok h =>
        simp only [hfrom] at hr' ⊢
        split_ifs at hr' ⊢ with hpay
        · obtain rfl := Except.ok.inj hr'
          exact ⟨hreader, by rw [hbuf], rfl⟩
        · refine matches_serve ?_ ?_ hr'
          · exact hreader
          · exact hbuf

theorem matches_chunkRead {r r' : Reading} {l : ReadLoop} (hreader : r.reader = l.reader)
    (hbuf : r.payloadBuf = l.payloadBuf) (hl : l.Inv) {h : MessageHeader} {offset : ℕ}
    (hphase : l.phase = .payload h offset) {f : Filled}
    (hbytes : l.stream.take f.value.toNat = f.bytes) (hwant : f.value ≤ l.want)
    {callback : Except Thrown Unit} (hr' : r.chunkRead h offset f callback = .ok r') :
    r'.Matches (l.readFully h offset f.transfer) := by
  have hlt := hl.offset_lt h offset hphase
  have hfits := hl.fits h offset hphase
  by_cases hneg : f.value < 0
  · rw [chunkRead, if_pos hneg, finish, if_pos (Nat.ne_of_lt hlt)] at hr'
    obtain rfl := Except.ok.inj hr'
    rw [Filled.transfer, if_pos hneg]
    exact ⟨hreader, hbuf, rfl⟩
  · simp only [ReadLoop.want, hphase] at hwant
    have hcopy : f.value ≤ chunkLength h.length ∧ offset + f.value ≤ r.payloadBuf.length := by
      rw [hbuf, chunkLength]
      omega
    rw [chunkRead, if_neg hneg, copyChunk, if_pos hcopy, pure_bind] at hr'
    simp only [Filled.transfer, if_neg hneg, ReadLoop.readFully, hbytes, ← hbuf]
    by_cases hmore : offset + f.value.toNat < h.length
    · rw [if_pos hmore] at hr' ⊢
      obtain rfl := Except.ok.inj hr'
      exact ⟨hreader, rfl, rfl⟩
    · rw [if_neg hmore] at hr' ⊢
      have hgot : ¬ offset + f.value.toNat ≠ h.length := by omega
      rw [finish, if_neg hgot] at hr'
      refine matches_serve ?_ ?_ hr'
      · exact hreader
      · rfl

/-- **The read thread refines the loop without exceptions.**  A `bulkTransfer` that brings
the front of the stream, and no more than was asked for, takes both to the same place,
whatever the Listener does. -/
theorem step_matches {r : Reading} {l : ReadLoop} (hm : r.Matches l) (hl : l.Inv)
    (hpc : r.pc = .inLoop .header ∨ ∃ h offset, r.pc = .inLoop (.chunk h offset)) {f : Filled}
    (hbytes : l.stream.take f.value.toNat = f.bytes) (hwant : f.value ≤ l.want) (running : Bool)
    (callback : Except Thrown Unit) :
    (r.step running (.ok f) callback).Matches (l.step f.transfer) := by
  obtain ⟨hreader, hbuf, hplace⟩ := hm
  rcases hpc with hpc | ⟨h, offset, hpc⟩
  · rw [hpc] at hplace
    obtain ⟨r', pc, heq, -⟩ := r.headerRead_eq_ok f callback
    have hstep : r.step running (.ok f) callback = r' := by
      simp [step, body, hpc, heq]
    rw [hstep, ReadLoop.step, hplace]
    exact matches_headerRead hreader hbuf hplace hbytes heq
  · rw [hpc] at hplace
    have hfits := hl.fits h offset hplace
    have hlt := hl.offset_lt h offset hplace
    have hcopy : 0 ≤ f.value →
        f.value ≤ chunkLength h.length ∧ offset + f.value ≤ r.payloadBuf.length := by
      intro _
      rw [hbuf, chunkLength]
      simp only [ReadLoop.want, hplace] at hwant
      omega
    obtain ⟨r', pc, heq, -⟩ := r.chunkRead_eq_ok hcopy callback
    have hstep : r.step running (.ok f) callback = r' := by
      simp [step, body, hpc, heq]
    rw [hstep, ReadLoop.step, hplace]
    exact matches_chunkRead hreader hbuf hl hplace hbytes hwant heq

end Reading

/-! ### `WriteLoop` -/

/-- Where `WriteLoop` is. -/
inductive WritePc
  | check
  | poll
  | send (m : Message)
deriving DecidableEq, Repr

/-- The write thread. -/
structure Writing where
  pc : Life WritePc
  sendFailed : ℕ
deriving DecidableEq, Repr

/-- `sendNow`, with what it throws. -/
def sendOrThrow (m : Message) (o₁ o₂ : Outcome) : Except Thrown Bool :=
  match (sendNow m o₁ o₂).2 with
  | some result => pure result
  | none => throw .transfer

namespace Writing

/-- `WriteLoop`, up to its next action. -/
def body (w : Writing) (running : Bool) (polled : Option Message) (o₁ o₂ : Outcome) :
    Except Thrown Writing :=
  match w.pc with
  | .inLoop .check => pure { w with pc := if running then .inLoop .poll else .ended }
  | .inLoop .poll =>
      pure { w with pc := .inLoop (match polled with | none => .check | some m => .send m) }
  | .inLoop (.send m) =>
      let counted : Writing := ⟨.inLoop .check, w.sendFailed + 1⟩
      tryCatch
        (do
          let result ← sendOrThrow m o₁ o₂
          pure (if result then { w with pc := .inLoop .check } else counted))
        fun _ => pure counted
  | .ended | .uncaught => pure w

/-- One action of the write thread. -/
def step (w : Writing) (running : Bool) (polled : Option Message) (o₁ o₂ : Outcome) : Writing :=
  orDead { w with pc := .uncaught } (w.body running polled o₁ o₂)

/-- **The handler of `WriteLoop` counts.**  A message that `sendNow` did not report as
written is a failed one, and the loop goes on. -/
theorem step_send {w : Writing} {m : Message} (hpc : w.pc = .inLoop (.send m)) (running : Bool)
    (polled : Option Message) (o₁ o₂ : Outcome) :
    w.step running polled o₁ o₂ =
      ⟨.inLoop .check,
        if (sendNow m o₁ o₂).2 = some true then w.sendFailed else w.sendFailed + 1⟩ := by
  simp only [step, body, hpc, tryCatch_eq_ok, orDead_ok, sendOrThrow]
  cases (sendNow m o₁ o₂).2 with
  | none => rfl
  | some result => cases result <;> rfl

theorem step_caught {w : Writing} (hw : w.pc ≠ .uncaught) (running : Bool)
    (polled : Option Message) (o₁ o₂ : Outcome) :
    (w.step running polled o₁ o₂).pc ≠ .uncaught := by
  cases hpc : w.pc with
  | uncaught => exact absurd hpc hw
  | ended => simp [step, body, hpc]
  | inLoop pc =>
      cases pc with
      | check => cases running <;> simp [step, body, hpc]
      | poll => simp [step, body, hpc]
      | send m => simp [step_send hpc]

end Writing

/-! ### `HeartbeatLoop` -/

/-- Where `HeartbeatLoop` is. -/
inductive BeatPc
  | check
  | send
  | sleep
deriving DecidableEq, Repr

/-- The heartbeat thread. -/
structure Beating where
  pc : Life BeatPc
  consecutiveFailures : ℕ
  /-- The failures that `onError` was told of. -/
  errors : List ℕ
deriving DecidableEq, Repr

namespace Beating

/-- `HeartbeatLoop`, up to its next action. -/
def body (b : Beating) (running : Bool) (o₁ o₂ : Outcome) : Except Thrown Beating :=
  match b.pc with
  | .inLoop .check => pure { b with pc := if running then .inLoop .send else .ended }
  | .inLoop .send => do
      let ok ← tryCatch (sendOrThrow heartbeat o₁ o₂) fun _ => pure false
      if ok then pure { b with pc := .inLoop .sleep, consecutiveFailures := 0 }
      else
        let failures := b.consecutiveFailures + 1
        if heartbeatMaxFailures ≤ failures then
          pure ⟨.ended, failures, b.errors ++ [failures]⟩
        else pure { b with pc := .inLoop .sleep, consecutiveFailures := failures }
  | .inLoop .sleep => pure { b with pc := .inLoop .check }
  | .ended | .uncaught => pure b

/-- One action of the heartbeat thread. -/
def step (b : Beating) (running : Bool) (o₁ o₂ : Outcome) : Beating :=
  orDead { b with pc := .uncaught } (b.body running o₁ o₂)

theorem step_caught {b : Beating} (hb : b.pc ≠ .uncaught) (running : Bool) (o₁ o₂ : Outcome) :
    (b.step running o₁ o₂).pc ≠ .uncaught := by
  cases hpc : b.pc with
  | uncaught => exact absurd hpc hb
  | ended => simp [step, body, hpc]
  | inLoop pc =>
      cases pc with
      | check => cases running <;> simp [step, body, hpc]
      | sleep => simp [step, body, hpc]
      | send =>
          -- the handler leaves `ok` or not, and neither branch throws
          simp only [step, body, hpc, tryCatch_eq_ok]
          generalize orDead false (sendOrThrow heartbeat o₁ o₂) = ok
          cases ok with
          | true => exact nofun
          | false =>
              simp only [ok_bind, Bool.false_eq_true, if_false]
              split_ifs <;> exact nofun

end Beating

/-! ### `ConnectLoop` -/

/-- Where `ConnectLoop` is. -/
inductive ConnectPc
  /-- In one of the two sleeps. -/
  | sleep
  | check
  /-- At the test of `phoneConnected`. -/
  | look
  | request
deriving DecidableEq, Repr

/-- The connect thread. -/
structure Connecting where
  pc : Life ConnectPc
  connectRequests : ℕ
  connectRequestsFailed : ℕ
deriving DecidableEq, Repr

namespace Connecting

/-- `ConnectLoop`, up to its next action.  A request is a call of `send`, and `queued` its
result. -/
def body (c : Connecting) (running phoneConnected queued : Bool) : Except Thrown Connecting :=
  match c.pc with
  | .inLoop .sleep => pure { c with pc := .inLoop .check }
  | .inLoop .check => pure { c with pc := if running then .inLoop .look else .ended }
  | .inLoop .look =>
      pure (if phoneConnected then ⟨.inLoop .sleep, 0, 0⟩ else { c with pc := .inLoop .request })
  | .inLoop .request =>
      pure
        (if queued then
          { c with pc := .inLoop .sleep, connectRequests := c.connectRequests + 1 }
        else
          { c with pc := .inLoop .sleep, connectRequestsFailed := c.connectRequestsFailed + 1 })
  | .ended | .uncaught => pure c

/-- One action of the connect thread. -/
def step (c : Connecting) (running phoneConnected queued : Bool) : Connecting :=
  orDead { c with pc := .uncaught } (c.body running phoneConnected queued)

theorem step_caught {c : Connecting} (hc : c.pc ≠ .uncaught)
    (running phoneConnected queued : Bool) :
    (c.step running phoneConnected queued).pc ≠ .uncaught := by
  cases hpc : c.pc with
  | uncaught => exact absurd hpc hc
  | ended => simp [step, body, hpc]
  | inLoop pc =>
      cases pc with
      | sleep => simp [step, body, hpc]
      | check => cases running <;> simp [step, body, hpc]
      | look => cases phoneConnected <;> simp [step, body, hpc]
      | request => cases queued <;> simp [step, body, hpc]

end Connecting

/-! ### The four threads -/

/-- The driver after `start`. -/
structure State where
  running : Bool
  reading : Reading
  writing : Writing
  beating : Beating
  connecting : Connecting
deriving DecidableEq, Repr

/-- Which thread moves, and what its calls do. -/
inductive Event
  | read (t : Except Thrown Filled) (callback : Except Thrown Unit)
  | write (polled : Option Message) (o₁ o₂ : Outcome)
  | beat (o₁ o₂ : Outcome)
  | connect (queued : Bool)
  /-- `stop` clears `running`. -/
  | stop

namespace State

/-- The four threads have been started. -/
def start (packetMax : ℕ) : State where
  running := true
  reading := ⟨Reader.init, List.replicate packetMax 0, .inLoop .check, []⟩
  writing := ⟨.inLoop .check, 0⟩
  beating := ⟨.inLoop .check, 0, []⟩
  connecting := ⟨.inLoop .sleep, 0, 0⟩

/-- One event. -/
def step (s : State) : Event → State
  | .read t callback => { s with reading := s.reading.step s.running t callback }
  | .write polled o₁ o₂ => { s with writing := s.writing.step s.running polled o₁ o₂ }
  | .beat o₁ o₂ => { s with beating := s.beating.step s.running o₁ o₂ }
  | .connect queued =>
      { s with
        connecting :=
          s.connecting.step s.running s.reading.reader.phoneConnected queued }
  | .stop => { s with running := false }

/-- No thread was ended by an exception, and while `running` is true the read loop goes
on. -/
structure Survives (s : State) : Prop where
  reading : s.reading.pc ≠ .uncaught
  writing : s.writing.pc ≠ .uncaught
  beating : s.beating.pc ≠ .uncaught
  connecting : s.connecting.pc ≠ .uncaught
  reads : s.running = true → s.reading.pc ≠ .ended

/-- What the event has to be like for the read thread to go on. -/
def Takes (s : State) : Event → Prop
  | .read t _ => s.reading.Takes t
  | .write .. | .beat .. | .connect _ | .stop => True

theorem survives_start (packetMax : ℕ) : (start packetMax).Survives :=
  ⟨nofun, nofun, nofun, nofun, fun _ => nofun⟩

/-- **One event.**  The threads survive exactly the events that the read loop can take. -/
theorem survives_step_iff {s : State} (hs : s.Survives) (e : Event) :
    (s.step e).Survives ↔ s.Takes e := by
  cases e with
  | read t callback =>
      rcases Reading.step_cases hs.reading s.running t callback with
        ⟨htakes, hcaught, hreads⟩ | ⟨htakes, hdead⟩
      · exact iff_of_true
          ⟨hcaught, hs.writing, hs.beating, hs.connecting, fun hrun => hreads hrun (hs.reads hrun)⟩
          htakes
      · exact iff_of_false (fun h => h.reading hdead) htakes
  | write polled o₁ o₂ =>
      exact iff_of_true
        ⟨hs.reading, Writing.step_caught hs.writing _ _ _ _, hs.beating, hs.connecting, hs.reads⟩
        trivial
  | beat o₁ o₂ =>
      exact iff_of_true
        ⟨hs.reading, hs.writing, Beating.step_caught hs.beating _ _ _, hs.connecting, hs.reads⟩
        trivial
  | connect queued =>
      exact iff_of_true
        ⟨hs.reading, hs.writing, hs.beating, Connecting.step_caught hs.connecting _ _ _, hs.reads⟩
        trivial
  | stop =>
      exact iff_of_true
        ⟨hs.reading, hs.writing, hs.beating, hs.connecting, nofun⟩
        trivial

/-- **When the threads survive.**  Along every run, whatever the transfers return or throw
and whatever the Listener throws, no thread is ended by an exception and the read loop goes
on while `running` is true, exactly when each `bulkTransfer` of the read loop returns, and
in `readFully` with no more bytes than the chunk and the buffer can hold. -/
theorem survives_iff (packetMax : ℕ) (es : List Event) :
    Along step (fun s e => (s.step e).Survives) (start packetMax) es ↔
      Along step Takes (start packetMax) es :=
  along_step_iff (I := Survives) (fun _ e hs => survives_step_iff hs e)
    (survives_start packetMax) es

/-- **The connection goes away under the read thread.**  `running` is still true, and the
`bulkTransfer` of a header throws. -/
theorem not_survives_closed :
    (run step (start 49152) [.read (.ok ⟨0, fun _ => 0⟩) (.ok ())]).running = true ∧
      ¬ (run step (start 49152)
        [.read (.ok ⟨0, fun _ => 0⟩) (.ok ()), .read (.error .transfer) (.ok ())]).Survives :=
  ⟨rfl, fun h => h.reading rfl⟩

end State
end Loops
end Driver
end Carlinkit
