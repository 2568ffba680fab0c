/-
# The read loop

`CarlinkitDriver.ReadLoop`: `run` and `readFully`.  The thread sits in one
`bulkTransfer(epIn, ..)` after another; between two of them it runs straight
through, so one step of the model is one return of `bulkTransfer` with all that
follows up to the next call.  `Phase` says which call the thread is in: the one
of `run` that reads a header, or the one of `readFully` that reads the payload
of `h` with `offset` bytes already there.

The endpoint is the list `stream` of the bytes still to come.  Two fields are
not of the code: `pos`, the number of bytes taken so far, and `start`, the
position of the header last taken, so that `log` can say of every dispatched
message where in the stream it stood.

**The loop refines the eager reader.**  `pending r` are the frames that
`Layout.scan` still finds from where the loop stands, the message in progress
first.  As long as a header read brings nothing or a whole header and no payload
read fails (`Delivers`), the dispatched frames followed by the pending ones never
change (`conserves`), however the bytes are cut into chunks.  The two lemmas
behind it follow the two phases.
-/

import Carlinkit.Driver.Dispatch
import Carlinkit.Machine.Run

namespace Carlinkit
namespace Driver

open Framing Protocol Machine

/-- What one `bulkTransfer(epIn, buf, want, READ_TIMEOUT_MS)` returns. -/
inductive Transfer
  /-- A negative value: nothing was taken from the endpoint. -/
  | failed
  /-- `n` bytes were stored. -/
  | received (n : ℕ)
deriving DecidableEq, Repr

/-- The `bulkTransfer` the read thread is in. -/
inductive Phase
  | header
  | payload (h : MessageHeader) (offset : ℕ)
deriving DecidableEq, Repr

/-- A call of `dispatch`: where the message stood in the stream, the arguments,
and the callback it made. -/
structure Dispatched where
  pos : ℕ
  header : MessageHeader
  payload : Option (List Byte)
  callback : Option Callback
deriving DecidableEq, Repr

/-- The frame that was dispatched: of the array only the message's own bytes. -/
def Dispatched.frame (d : Dispatched) : Frame Byte MessageHeader :=
  ⟨d.pos, d.header, (d.payload.getD []).take d.header.length⟩

/-- The read thread and its endpoint. -/
structure ReadLoop where
  reader : Reader
  payloadBuf : List Byte
  phase : Phase
  stream : List Byte
  pos : ℕ
  start : ℕ
  log : List Dispatched
deriving DecidableEq, Repr

/-- `System.arraycopy(bs, 0, buf, offset, bs.length)`. -/
def arraycopy (buf : List Byte) (offset : ℕ) (bs : List Byte) : List Byte :=
  buf.take offset ++ (bs ++ buf.drop (offset + bs.length))

namespace ReadLoop

/-- The thread at the top of `run`, with the buffer it allocated and `stream` on
the endpoint. -/
def init (payloadBuf stream : List Byte) : ReadLoop :=
  ⟨Reader.init, payloadBuf, .header, stream, 0, 0, []⟩

/-- The buffer `run` uses for a payload of `length` bytes: a new one when the old
one is too short. -/
def ensure (buf : List Byte) (length : ℕ) : List Byte :=
  if buf.length < length then List.replicate length 0 else buf

/-- `dispatch(header, payload)`, and back to the top of the loop. -/
def serve (r : ReadLoop) (h : MessageHeader) (payload : Option (List Byte)) : ReadLoop :=
  { r with
    reader := (dispatch r.reader h payload).1
    phase := .header
    log := r.log ++ [⟨r.start, h, payload, (dispatch r.reader h payload).2⟩] }

/-- `run` after its header read. -/
def headerRead (r : ReadLoop) : Transfer → ReadLoop
  | .failed => r
  | .received n =>
      if n = 0 then r
      else
        let r' := { r with stream := r.stream.drop n, pos := r.pos + n, start := r.pos }
        -- a partial header is dropped, and so is one that does not parse
        if n ≠ headerSize then r'
        else
          match fromBytes (r.stream.take n) 0 n with
          | .error _ => r'
          | .ok h =>
              if h.hasPayload then
                { r' with payloadBuf := ensure r.payloadBuf h.length, phase := .payload h 0 }
              else r'.serve h none

/-- `readFully` after one of its reads, and `run` after `readFully` when that was
the last one.  A failed read ends `readFully` short, and `run` drops the message. -/
def readFully (r : ReadLoop) (h : MessageHeader) (offset : ℕ) : Transfer → ReadLoop
  | .failed => { r with phase := .header }
  | .received n =>
      let r' :=
        { r with
          payloadBuf := arraycopy r.payloadBuf offset (r.stream.take n)
          stream := r.stream.drop n
          pos := r.pos + n }
      if offset + n < h.length then { r' with phase := .payload h (offset + n) }
      else r'.serve h (some r'.payloadBuf)

/-- One return of `bulkTransfer`. -/
def step (r : ReadLoop) (t : Transfer) : ReadLoop :=
  match r.phase with
  | .header => r.headerRead t
  | .payload h offset => r.readFully h offset t

/-- The `want` of the current `bulkTransfer`; `readFully` reads in chunks of
16384 bytes. -/
def want (r : ReadLoop) : ℕ :=
  match r.phase with
  | .header => headerSize
  | .payload h offset => min (min h.length 16384) (h.length - offset)

/-- A return of `bulkTransfer` in a run without lost data: a header read that
times out or brings the whole header, a payload read that brings some bytes or
none. -/
def Delivers (r : ReadLoop) (t : Transfer) : Prop :=
  match r.phase, t with
  | .header, .failed => True
  | .header, .received n => n = 0 ∨ (n = headerSize ∧ n ≤ r.stream.length)
  | .payload _ _, .failed => False
  | .payload _ _, .received n => n ≤ r.want ∧ n ≤ r.stream.length

instance (r : ReadLoop) (t : Transfer) : Decidable (r.Delivers t) :=
  match hp : r.phase, t with
  | .header, .failed => .isTrue (by simp [Delivers, hp])
  | .header, .received n =>
      decidable_of_iff (n = 0 ∨ (n = headerSize ∧ n ≤ r.stream.length)) (by simp [Delivers, hp])
  | .payload _ _, .failed => .isFalse (by simp [Delivers, hp])
  | .payload _ _, .received n =>
      decidable_of_iff (n ≤ r.want ∧ n ≤ r.stream.length) (by simp [Delivers, hp])

/-! ### The frames still to come -/

/-- The frames that the loop has yet to dispatch, if nothing more gets lost. -/
def pending (r : ReadLoop) : List (Frame Byte MessageHeader) :=
  match r.phase with
  | .header => headerLayout.scan r.pos r.stream
  | .payload h offset =>
      if r.stream.length < h.length - offset then []
      else
        ⟨r.start, h, r.payloadBuf.take offset ++ r.stream.take (h.length - offset)⟩ ::
          headerLayout.scan (r.pos + (h.length - offset)) (r.stream.drop (h.length - offset))

/-- While a payload is being read, bytes are missing and the buffer has room. -/
structure Inv (r : ReadLoop) : Prop where
  offset_lt : ∀ h offset, r.phase = .payload h offset → offset < h.length
  fits : ∀ h offset, r.phase = .payload h offset → h.length ≤ r.payloadBuf.length
  /-- Every callback made so far showed the message's own bytes. -/
  faithful : ∀ d ∈ r.log, d.callback.map Callback.observed = ownCallback d.header d.frame.payload

theorem inv_init (payloadBuf stream : List Byte) : (init payloadBuf stream).Inv where
  offset_lt _ _ h := by simp [init] at h
  fits _ _ h := by simp [init] at h
  faithful d hd := by simp [init] at hd

theorem length_le_ensure (buf : List Byte) (length : ℕ) : length ≤ (ensure buf length).length := by
  unfold ensure
  split_ifs with h
  · simp
  · omega

theorem arraycopy_length {buf bs : List Byte} {offset : ℕ}
    (h : offset + bs.length ≤ buf.length) : (arraycopy buf offset bs).length = buf.length := by
  simp only [arraycopy, List.length_append, List.length_take, List.length_drop]
  omega

/-- After the copy the buffer starts with what was there and what was copied. -/
theorem take_arraycopy {buf bs : List Byte} {offset n : ℕ} (hn : bs.length = n)
    (h : offset ≤ buf.length) :
    (arraycopy buf offset bs).take (offset + n) = buf.take offset ++ bs := by
  unfold arraycopy
  rw [← List.append_assoc]
  exact List.take_left' (by simp only [List.length_append, List.length_take]; omega)

/-- Serving a message keeps the callbacks faithful, if its array holds it. -/
theorem serve_faithful {r : ReadLoop} (hr : r.Inv) (h : MessageHeader)
    {payload : Option (List Byte)}
    (hp : (payload = none ∧ h.length = 0) ∨
      ∃ buf, payload = some buf ∧ 0 < h.length ∧ h.length ≤ buf.length) :
    (r.serve h payload).Inv where
  offset_lt _ _ hph := by simp [serve] at hph
  fits _ _ hph := by simp [serve] at hph
  faithful d hd := by
    rcases List.mem_append.1 hd with hd | hd
    · exact hr.faithful d hd
    · obtain rfl := List.mem_singleton.1 hd
      rcases hp with ⟨rfl, h0⟩ | ⟨buf, rfl, hpos, hle⟩
      · simp only [Dispatched.frame, Option.getD_none, List.take_nil, ownCallback, if_true]
        rw [dispatch_none _ Reader.init]
      · have hne : buf.take h.length ≠ [] := by
          intro hnil
          have := congrArg List.length hnil
          rw [List.length_take, List.length_nil] at this
          omega
        exact (dispatch_observed _ _ _ _).trans (ownCallback_of_ne_nil h hne).symm

/-- The header block at the front of a long enough stream, as `run` parses it. -/
theorem decode_take {bs : List Byte} (h : headerSize ≤ bs.length) :
    headerLayout.decode (bs.take headerSize) =
      (fromBytes (bs.take headerSize) 0 headerSize).toOption := by
  have hlen : (bs.take headerSize).length = headerSize := by rw [List.length_take]; omega
  simp only [headerLayout, hlen]

/-- The loop with the next header block taken. -/
def pastHeader (r : ReadLoop) : ReadLoop :=
  { r with
    stream := r.stream.drop headerSize
    pos := r.pos + headerSize
    start := r.pos }

/-- **What a whole header comes to.**  It is dropped, or its payload is read, or it is
dispatched without one. -/
theorem headerRead_cases (r : ReadLoop) :
    (∃ msg, fromBytes (r.stream.take headerSize) 0 headerSize = .error msg ∧
        r.headerRead (.received headerSize) = r.pastHeader) ∨
      ∃ h, fromBytes (r.stream.take headerSize) 0 headerSize = .ok h ∧
        ((0 < h.length ∧ r.headerRead (.received headerSize) =
            { r with
              payloadBuf := ensure r.payloadBuf h.length
              phase := .payload h 0
              stream := r.stream.drop headerSize
              pos := r.pos + headerSize
              start := r.pos }) ∨
          (h.length = 0 ∧ r.headerRead (.received headerSize) = r.pastHeader.serve h none)) := by
  have h0 : headerSize ≠ 0 := by decide
  simp only [headerRead, if_neg h0, ne_eq, not_true_eq_false, if_false]
  cases fromBytes (r.stream.take headerSize) 0 headerSize with
  | error msg => exact .inl ⟨msg, rfl, rfl⟩
  | ok h =>
      refine .inr ⟨h, rfl, ?_⟩
      by_cases hpay : h.hasPayload = true
      · exact .inl ⟨by simpa [MessageHeader.hasPayload] using hpay, if_pos hpay⟩
      · exact .inr ⟨MessageHeader.length_eq_zero hpay, if_neg hpay⟩

theorem inv_pastHeader {r : ReadLoop} (hr : r.Inv) (hph : r.phase = .header) :
    r.pastHeader.Inv where
  offset_lt _ _ he := by simp [pastHeader, hph] at he
  fits _ _ he := by simp [pastHeader, hph] at he
  faithful := hr.faithful

/-- **A header read conserves the frames.** -/
theorem headerRead_conserves {r : ReadLoop} (hr : r.Inv) (hph : r.phase = .header)
    {t : Transfer} (ht : r.Delivers t) :
    (r.headerRead t).Inv ∧
      (r.headerRead t).log.map Dispatched.frame ++ (r.headerRead t).pending =
        r.log.map Dispatched.frame ++ r.pending := by
  cases t with
  | failed => exact ⟨hr, rfl⟩
  | received n =>
      simp only [Delivers, hph] at ht
      rcases ht with rfl | ⟨rfl, hlen⟩
      · exact ⟨hr, rfl⟩
      have hpend : r.pending = headerLayout.scan r.pos r.stream := by simp only [pending, hph]
      have hdec := decode_take hlen
      have hpast := inv_pastHeader hr hph
      rcases headerRead_cases r with ⟨msg, hfrom, heq⟩ | ⟨h, hfrom, ⟨hpos, heq⟩ | ⟨hz, heq⟩⟩
      · rw [hfrom] at hdec
        rw [heq, hpend, Layout.scan_discard hlen hdec]
        refine ⟨hpast, ?_⟩
        simp only [pastHeader, pending, hph, headerLayout_hsize, headerSize]
      · rw [hfrom] at hdec
        rw [heq, hpend]
        refine ⟨⟨fun h' o he => ?_, fun h' o he => ?_, hr.faithful⟩, ?_⟩
        · obtain ⟨rfl, rfl⟩ := Phase.payload.inj he
          exact hpos
        · obtain ⟨rfl, rfl⟩ := Phase.payload.inj he
          exact length_le_ensure _ _
        · congr 1
          simp only [pending, List.take_zero, List.nil_append, Nat.sub_zero]
          split_ifs with hs
          · rw [Layout.scan_stuck hlen hdec]
            rw [List.length_drop] at hs
            simp only [headerLayout_hsize, headerLayout_size, headerSize] at hs ⊢
            omega
          · rw [Layout.scan_frame hlen hdec]
            · rfl
            · rw [List.length_drop] at hs
              simp only [headerLayout_hsize, headerLayout_size, headerSize] at hs hlen ⊢
              omega
      · rw [hfrom] at hdec
        rw [heq, hpend, Layout.scan_frame hlen hdec (by
          simp only [headerLayout_hsize, headerLayout_size, hz, headerSize] at hlen ⊢
          omega)]
        refine ⟨serve_faithful hpast h (.inl ⟨rfl, hz⟩), ?_⟩
        simp only [pastHeader, serve, pending, List.map_append, List.map_cons, List.map_nil,
          Dispatched.frame, Option.getD_none, List.take_nil, headerLayout_size, hz,
          List.take_zero, List.drop_zero, List.append_assoc, List.cons_append, List.nil_append,
          headerLayout_hsize, headerSize, Nat.add_zero]

/-- **A payload read conserves the frames.** -/
theorem readFully_conserves {r : ReadLoop} (hr : r.Inv) {h : MessageHeader} {offset : ℕ}
    (hph : r.phase = .payload h offset) {t : Transfer} (ht : r.Delivers t) :
    (r.readFully h offset t).Inv ∧
      (r.readFully h offset t).log.map Dispatched.frame ++ (r.readFully h offset t).pending =
        r.log.map Dispatched.frame ++ r.pending := by
  have hlt := hr.offset_lt h offset hph
  have hfits := hr.fits h offset hph
  cases t with
  | failed => simp [Delivers, hph] at ht
  | received n =>
      simp only [Delivers, hph, want] at ht
      obtain ⟨hwant, havail⟩ := ht
      have hn : (r.stream.take n).length = n := by rw [List.length_take]; omega
      have hbuf : (arraycopy r.payloadBuf offset (r.stream.take n)).length = r.payloadBuf.length :=
        arraycopy_length (by omega)
      have hroom : offset ≤ r.payloadBuf.length := by omega
      have htake := take_arraycopy hn hroom
      simp only [readFully]
      split_ifs with hmore
      · refine ⟨⟨fun h' o he => ?_, fun h' o he => ?_, hr.faithful⟩, ?_⟩
        · obtain ⟨rfl, rfl⟩ := Phase.payload.inj he
          exact hmore
        · obtain ⟨rfl, rfl⟩ := Phase.payload.inj he
          exact hbuf ▸ hfits
        · congr 1
          have hsplit : r.stream.take (h.length - offset) =
              r.stream.take n ++ (r.stream.drop n).take (h.length - (offset + n)) := by
            rw [show h.length - offset = n + (h.length - (offset + n)) by omega, List.take_add]
          simp only [pending, hph, htake, hsplit, List.length_drop, List.drop_drop,
            List.append_assoc,
            show r.pos + n + (h.length - (offset + n)) = r.pos + (h.length - offset) by omega,
            show n + (h.length - (offset + n)) = h.length - offset by omega,
            show (r.stream.length - n < h.length - (offset + n)) =
              (r.stream.length < h.length - offset) by apply propext; omega]
      · have hdone : n = h.length - offset := by omega
        have hr' : ({ r with
            payloadBuf := arraycopy r.payloadBuf offset (r.stream.take n)
            stream := r.stream.drop n
            pos := r.pos + n } : ReadLoop).Inv := by
          refine ⟨fun h' o he => hr.offset_lt h' o he, fun h' o he => ?_, hr.faithful⟩
          rw [hbuf]
          exact hr.fits h' o he
        refine ⟨serve_faithful hr' h (.inr ⟨_, rfl, by omega, by rw [hbuf]; exact hfits⟩), ?_⟩
        · have hlen : offset + n = h.length := by omega
          rw [hlen, hdone] at htake
          simp only [serve, pending, hph, List.map_append, List.map_cons, List.map_nil,
            Dispatched.frame, Option.getD_some, htake, List.append_assoc, List.cons_append,
            List.nil_append, if_neg (show ¬ r.stream.length < h.length - offset by omega), hdone]

/-- **One transfer conserves the frames**: what has been dispatched, followed by
what is pending. -/
theorem step_conserves {r : ReadLoop} (hr : r.Inv) {t : Transfer} (ht : r.Delivers t) :
    (r.step t).Inv ∧
      (r.step t).log.map Dispatched.frame ++ (r.step t).pending =
        r.log.map Dispatched.frame ++ r.pending := by
  cases hph : r.phase with
  | header =>
      simp only [step, hph]
      exact headerRead_conserves hr hph ht
  | payload h offset =>
      simp only [step, hph]
      exact readFully_conserves hr hph ht

/-- **The loop refines the eager reader.**  Along every run in which nothing gets
lost, the frames dispatched so far and the frames pending are together the frames
of the stream. -/
theorem conserves {r : ReadLoop} (hr : r.Inv) {ts : List Transfer}
    (hts : Along step Delivers r ts) :
    (run step r ts).Inv ∧
      (run step r ts).log.map Dispatched.frame ++ (run step r ts).pending =
        r.log.map Dispatched.frame ++ r.pending :=
  hts.invariant
    (I := fun s => s.Inv ∧ s.log.map Dispatched.frame ++ s.pending =
      r.log.map Dispatched.frame ++ r.pending)
    (fun _ _ hs ht => ⟨(step_conserves hs.1 ht).1, (step_conserves hs.1 ht).2.trans hs.2⟩)
    ⟨hr, rfl⟩

end ReadLoop
end Driver
end Carlinkit
