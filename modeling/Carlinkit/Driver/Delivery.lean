/-
# What the dongle sends is what the Listener hears

The read loop on a stream of whole messages.  `Aligned` says where in the list
of messages the loop stands; it survives every transfer of a run without lost
data, and together with `ReadLoop.conserves` it gives `dispatches_messages`: the
messages are dispatched once each and in order, and every callback sees the
bytes of its own message.

`Drained` is the end of a schedule: the endpoint cannot complete the current
`bulkTransfer` sequence any more.  A schedule can always be continued to that
point (`exists_drained`), so a statement about drained loops is not empty.
-/

import Carlinkit.Driver.ReadLoop

namespace Carlinkit
namespace Driver
namespace ReadLoop

open Framing Protocol Machine

/-! ### Running dry -/

/-- The endpoint has nothing left that the current call could use: no header,
or no byte of the payload. -/
def Drained (r : ReadLoop) : Prop :=
  match r.phase with
  | .header => r.stream.length < headerSize
  | .payload _ _ => r.stream = []

instance (r : ReadLoop) : Decidable r.Drained :=
  match h : r.phase with
  | .header => decidable_of_iff (r.stream.length < headerSize) (by simp [Drained, h])
  | .payload _ _ => decidable_of_iff (r.stream = []) (by simp [Drained, h])

/-- A drained loop has no frame pending. -/
theorem pending_of_drained {r : ReadLoop} (hr : r.Inv) (hd : r.Drained) : r.pending = [] := by
  cases hph : r.phase with
  | header =>
      simp only [Drained, hph] at hd
      simp only [pending, hph]
      exact Layout.scan_short hd
  | payload h offset =>
      simp only [Drained, hph] at hd
      have := hr.offset_lt h offset hph
      simp only [pending, hph, hd, List.length_nil]
      rw [if_pos (by omega)]

/-- A loop that is not drained can take some bytes. -/
theorem exists_progress {r : ReadLoop} (hr : r.Inv) (hd : ¬ r.Drained) :
    ∃ t, r.Delivers t ∧ (r.step t).stream.length < r.stream.length := by
  cases hph : r.phase with
  | header =>
      simp only [Drained, hph, Nat.not_lt] at hd
      refine ⟨.received headerSize, by simp [Delivers, hph, hd], ?_⟩
      have hlt : (r.stream.drop headerSize).length < r.stream.length := by
        rw [List.length_drop]
        have : headerSize = 16 := rfl
        omega
      simp only [step, hph]
      rcases headerRead_cases r with ⟨-, -, heq⟩ | ⟨h, -, ⟨-, heq⟩ | ⟨-, heq⟩⟩ <;>
        simpa only [heq, pastHeader, serve] using hlt
  | payload h offset =>
      simp only [Drained, hph] at hd
      have hpos : 0 < r.stream.length := List.length_pos_iff.2 hd
      have hlt := hr.offset_lt h offset hph
      have hwant : 0 < r.want := by simp only [want, hph]; omega
      refine ⟨.received (min r.want r.stream.length), ?_, ?_⟩
      · simp only [Delivers, hph]
        exact ⟨Nat.min_le_left _ _, Nat.min_le_right _ _⟩
      · simp only [step, hph, readFully]
        split_ifs <;> simp only [serve, List.length_drop] <;> omega

/-- **Every schedule can be continued until the loop is drained.** -/
theorem exists_drained {r : ReadLoop} (hr : r.Inv) :
    ∃ ts, Along step Delivers r ts ∧ (run step r ts).Drained := by
  induction hn : r.stream.length using Nat.strongRecOn generalizing r with
  | _ n ih =>
      subst hn
      by_cases hd : r.Drained
      · exact ⟨[], trivial, hd⟩
      · obtain ⟨t, ht, hlt⟩ := exists_progress hr hd
        obtain ⟨ts, hts, hdr⟩ := ih _ hlt (step_conserves hr ht).1 rfl
        exact ⟨t :: ts, ⟨ht, hts⟩, hdr⟩

/-! ### A stream of whole messages -/

/-- Where the loop stands in the messages `ms`: between two of them, or at byte
`offset` of the payload of one. -/
def Aligned (ms : List Message) (r : ReadLoop) : Prop :=
  match r.phase with
  | .header => ∃ before later, ms = before ++ later ∧
      r.pos = (encodeAll before).length ∧ r.stream = encodeAll later
  | .payload h offset => ∃ before m later, ms = before ++ m :: later ∧ h = m.header ∧
      offset ≤ m.payload.length ∧ r.start = (encodeAll before).length ∧
      r.pos = (encodeAll before).length + 16 + offset ∧
      r.stream = m.payload.drop offset ++ encodeAll later

theorem aligned_init (buf : List Byte) (ms : List Message) :
    (init buf (encodeAll ms)).Aligned ms :=
  ⟨[], ms, rfl, rfl, rfl⟩

/-- A header read leaves an aligned loop aligned. -/
theorem aligned_headerRead {ms : List Message} {r : ReadLoop} (hr : r.Aligned ms)
    (hph : r.phase = .header) {t : Transfer} (ht : r.Delivers t) :
    (r.headerRead t).Aligned ms := by
  cases t with
  | failed => exact hr
  | received n =>
      simp only [Delivers, hph] at ht
      rcases ht with rfl | ⟨rfl, hlen⟩
      · exact hr
      simp only [Aligned, hph] at hr
      obtain ⟨before, later, rfl, hpos, hstream⟩ := hr
      cases later with
      | nil =>
          rw [hstream] at hlen
          simp [headerSize] at hlen
      | cons m later =>
          have hfrom : fromBytes (r.stream.take headerSize) 0 headerSize = .ok m.header := by
            rw [hstream]
            exact m.fromBytes_take_encode _
          have hdrop : r.stream.drop headerSize = m.payload ++ encodeAll later := by
            rw [hstream, encodeAll_cons, Message.encode, List.append_assoc]
            exact List.drop_left' rfl
          rcases headerRead_cases r with ⟨msg, hbad, -⟩ | ⟨h, hok, hnext⟩
          · rw [hfrom] at hbad
            simp at hbad
          obtain rfl : m.header = h := Except.ok.inj (hfrom.symm.trans hok)
          rcases hnext with ⟨-, heq⟩ | ⟨hz, heq⟩
          · rw [heq]
            exact ⟨before, m, later, rfl, rfl, Nat.zero_le _, hpos, by rw [hpos]; rfl,
              hdrop⟩
          · have hnil : m.payload = [] := List.eq_nil_of_length_eq_zero hz
            rw [heq]
            refine ⟨before ++ [m], later, by simp, ?_, ?_⟩
            · simp [pastHeader, serve, hpos, encodeAll_append, hnil, headerSize]
            · rw [pastHeader, serve, hdrop, hnil, List.nil_append]

/-- A payload read leaves an aligned loop aligned. -/
theorem aligned_readFully {ms : List Message} {r : ReadLoop} (hr : r.Aligned ms)
    {h : MessageHeader} {offset : ℕ} (hph : r.phase = .payload h offset) {t : Transfer}
    (ht : r.Delivers t) : (r.readFully h offset t).Aligned ms := by
  cases t with
  | failed => simp [Delivers, hph] at ht
  | received n =>
      simp only [Delivers, hph, want] at ht
      simp only [Aligned, hph] at hr
      obtain ⟨before, m, later, rfl, rfl, hoffset, hstart, hpos, hstream⟩ := hr
      have hn : n ≤ (m.payload.drop offset).length := by
        rw [List.length_drop]
        have := m.header_length
        omega
      have hdrop : r.stream.drop n = m.payload.drop (offset + n) ++ encodeAll later := by
        rw [hstream, List.drop_append_of_le_length hn, List.drop_drop]
      simp only [readFully]
      split_ifs with hmore
      · exact ⟨before, m, later, rfl, rfl, Nat.le_of_lt hmore, hstart,
          by rw [hpos, Nat.add_assoc], hdrop⟩
      · have hsize : offset + n = m.payload.length := by
          rw [List.length_drop] at hn
          rw [Message.header_length] at hmore
          omega
        have hend : m.payload.drop (offset + n) = [] := List.drop_eq_nil_of_le (by omega)
        refine ⟨before ++ [m], later, by simp, ?_, by rw [serve, hdrop, hend, List.nil_append]⟩
        simp [serve, hpos, encodeAll_append, Nat.add_assoc, hsize]

/-- **On a stream of whole messages the loop always knows where it is.** -/
theorem aligned {ms : List Message} {buf : List Byte} {ts : List Transfer}
    (hts : Along step Delivers (init buf (encodeAll ms)) ts) :
    (run step (init buf (encodeAll ms)) ts).Aligned ms :=
  hts.invariant (fun r t hr ht => by
    cases hph : r.phase with
    | header => simpa only [step, hph] using aligned_headerRead hr hph ht
    | payload h offset => simpa only [step, hph] using aligned_readFully hr hph ht)
    (aligned_init buf ms)

/-- What was dispatched and what is pending are together the frames of `ms`. -/
theorem frames {ms : List Message} {buf : List Byte} {ts : List Transfer}
    (hts : Along step Delivers (init buf (encodeAll ms)) ts) :
    (run step (init buf (encodeAll ms)) ts).Inv ∧
      (run step (init buf (encodeAll ms)) ts).log.map Dispatched.frame ++
        (run step (init buf (encodeAll ms)) ts).pending = framesOf 0 ms := by
  obtain ⟨hinv, hcons⟩ := conserves (inv_init buf (encodeAll ms)) hts
  exact ⟨hinv, hcons.trans (scan_encodeAll 0 ms)⟩

/-- The messages before the place where the loop stands have been dispatched. -/
theorem log_of_split {before later : List Message} {buf : List Byte} {ts : List Transfer}
    (hts : Along step Delivers (init buf (encodeAll (before ++ later))) ts)
    (hlen : (run step (init buf (encodeAll (before ++ later))) ts).pending.length = later.length) :
    (run step (init buf (encodeAll (before ++ later))) ts).log.map Dispatched.frame =
      framesOf 0 before := by
  have h := (frames hts).2
  rw [framesOf_append] at h
  exact List.append_inj_left' h (by rw [hlen, framesOf_length])

/-- Between two messages: everything before is dispatched, everything later is
on the endpoint. -/
theorem split_of_header {ms : List Message} {buf : List Byte} {ts : List Transfer}
    (hts : Along step Delivers (init buf (encodeAll ms)) ts)
    (hph : (run step (init buf (encodeAll ms)) ts).phase = .header) :
    ∃ before later, ms = before ++ later ∧
      (run step (init buf (encodeAll ms)) ts).stream = encodeAll later ∧
      (run step (init buf (encodeAll ms)) ts).log.map Dispatched.frame = framesOf 0 before := by
  have hal := aligned hts
  simp only [Aligned, hph] at hal
  obtain ⟨before, later, rfl, hpos, hstream⟩ := hal
  refine ⟨before, later, rfl, hstream, log_of_split hts ?_⟩
  simp only [pending, hph, hstream, scan_encodeAll, framesOf_length]

/-- Inside a payload: everything before the message is dispatched, and the rest
of it is at the front of the endpoint. -/
theorem split_of_payload {ms : List Message} {buf : List Byte} {ts : List Transfer}
    (hts : Along step Delivers (init buf (encodeAll ms)) ts) {h : MessageHeader} {offset : ℕ}
    (hph : (run step (init buf (encodeAll ms)) ts).phase = .payload h offset) :
    ∃ before m later, ms = before ++ m :: later ∧ h = m.header ∧ offset < m.payload.length ∧
      (run step (init buf (encodeAll ms)) ts).start = (encodeAll before).length ∧
      (run step (init buf (encodeAll ms)) ts).pos = (encodeAll before).length + 16 + offset ∧
      (run step (init buf (encodeAll ms)) ts).stream =
        m.payload.drop offset ++ encodeAll later ∧
      (run step (init buf (encodeAll ms)) ts).log.map Dispatched.frame = framesOf 0 before := by
  have hal := aligned hts
  have hlt := (frames hts).1.offset_lt h offset hph
  simp only [Aligned, hph] at hal
  obtain ⟨before, m, later, rfl, rfl, -, hstart, hpos, hstream⟩ := hal
  rw [Message.header_length] at hlt
  refine ⟨before, m, later, rfl, rfl, hlt, hstart, hpos, hstream, log_of_split hts ?_⟩
  have hdrop : (m.payload.drop offset ++ encodeAll later).drop (m.header.length - offset) =
      encodeAll later :=
    List.drop_left' (by rw [List.length_drop, Message.header_length])
  simp only [pending, hph, hstream, hdrop, scan_encodeAll]
  rw [if_neg (by simp)]
  simp

/-- What the loop has dispatched are the messages `done` at the front of `ms`
whose bytes have all been read, once each and in order: of the first message that
is missing, some byte is still on the endpoint.  Each call of `dispatch` got its
message's header and payload, and what its callback can observe is `ownCallback`
of these. -/
def DispatchesOwn (ms : List Message) (r : ReadLoop) : Prop :=
  ∃ done rest, ms = done ++ rest ∧
    r.log.map (fun d => (d.header, d.frame.payload, d.callback.map Callback.observed)) =
      done.map (fun m => (m.header, m.payload, ownCallback m.header m.payload)) ∧
    ∀ m later, rest = m :: later → (encodeAll later).length < r.stream.length

/-- **Every message once, in order, as itself.**  However the endpoint cuts the
messages into transfers, and whatever the reused buffer held before. -/
theorem dispatches_messages (ms : List Message) (buf : List Byte) (ts : List Transfer)
    (hts : Along step Delivers (init buf (encodeAll ms)) ts) :
    DispatchesOwn ms (run step (init buf (encodeAll ms)) ts) := by
  have hinv := (frames hts).1
  have hsplit : ∃ done rest, ms = done ++ rest ∧
      (run step (init buf (encodeAll ms)) ts).log.map Dispatched.frame = framesOf 0 done ∧
      ∀ m later, rest = m :: later →
        (encodeAll later).length < (run step (init buf (encodeAll ms)) ts).stream.length := by
    cases hph : (run step (init buf (encodeAll ms)) ts).phase with
    | header =>
        obtain ⟨before, later, hms, hstream, hlog⟩ := split_of_header hts hph
        refine ⟨before, later, hms, hlog, ?_⟩
        rintro m later' rfl
        rw [hstream, encodeAll_cons, List.length_append, Message.encode_length]
        omega
    | payload h offset =>
        obtain ⟨before, m, later, hms, -, hlt, -, -, hstream, hlog⟩ := split_of_payload hts hph
        refine ⟨before, m :: later, hms, hlog, ?_⟩
        rintro m' later' heq
        obtain ⟨rfl, rfl⟩ := List.cons.inj heq
        rw [hstream, List.length_append, List.length_drop]
        omega
  obtain ⟨done, rest, hms, hlog, hmissing⟩ := hsplit
  refine ⟨done, rest, hms, ?_, hmissing⟩
  have hmap := framesOf_map (fun h p => (h, p, ownCallback h p)) 0 done
  rw [← hlog, List.map_map] at hmap
  rw [← hmap]
  refine List.map_congr_left fun d hd => ?_
  simp only [Function.comp, hinv.faithful d hd]
  rfl

/-- A PLUGGED message in three chunks, one of them empty, after a header read
that timed out, and an UNPLUGGED one; the buffer is dirty and too long. -/
theorem dispatches_messages_plugged :
    DispatchesOwn
      [⟨MessageType.plugged, [3, 0, 0, 0], by decide⟩, ⟨MessageType.unplugged, [], by decide⟩]
      (run step
        (init (List.replicate 6 0xFF)
          (encodeAll [⟨MessageType.plugged, [3, 0, 0, 0], by decide⟩,
            ⟨MessageType.unplugged, [], by decide⟩]))
        [.failed, .received 16, .received 3, .received 0, .received 1, .received 16]) :=
  dispatches_messages _ _ _ (by decide +kernel)

end ReadLoop
end Driver
end Carlinkit
