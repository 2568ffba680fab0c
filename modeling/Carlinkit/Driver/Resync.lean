/-
# After a payload read that failed

`ReadLoop.run` after `readFully` came back short.  The loop has no memory of the
bytes of the message that are still to come: it drops the message and reads its
next header in the middle of a payload.  `Recovers` is what a reader should do
there, lose that message and nothing else, and `recovers_iff_realigns` says when
the code does it: exactly when the blocks that it finds in the remaining bytes
lead it to their end (`Realigns`).

A header read that times out costs nothing (`Delivers`); a payload read that
times out is the same event one call later.
-/

import Carlinkit.Driver.Delivery

namespace Carlinkit
namespace Driver

open Framing Protocol Machine

/-- Messages that `dispatch` drops without a callback: VIDEO_DATA without H.264
data, AUDIO_DATA shorter than its own header, COMMAND without a command. -/
def silent (h : MessageHeader) : Prop :=
  h.type = MessageType.videoData ∧ h.length ≤ metadataSize ∨
    h.type = MessageType.audioData ∧ h.length < audioHeaderSize ∨
    h.type = MessageType.command ∧ h.length < 4

instance (h : MessageHeader) : Decidable (silent h) := inferInstanceAs (Decidable (_ ∨ _ ∨ _))

/-- **A message makes no callback exactly when it is silent.** -/
theorem dispatch_eq_none_iff (d : Reader) (h : MessageHeader) {payload : Option (List Byte)}
    (hp : payload = none → h.length = 0) : (dispatch d h payload).2 = none ↔ silent h := by
  have hcases : payload = none ∧ h.length = 0 ∨ ∃ p, payload = some p := by
    cases payload with
    | none => exact .inl ⟨rfl, hp rfl⟩
    | some p => exact .inr ⟨p, rfl⟩
  unfold dispatch silent
  split_ifs with hv ha hpl hu hc
  · rcases hcases with ⟨rfl, h0⟩ | ⟨p, rfl⟩
    · simp [VideoMessage.parse, hv, h0]
    · by_cases hle : h.length ≤ metadataSize <;>
        simp [VideoMessage.parse, hv, hle, MessageType.videoData, MessageType.audioData,
          MessageType.command]
  · rcases hcases with ⟨rfl, h0⟩ | ⟨p, rfl⟩
    · simp [AudioMessage.parse, ha, h0, audioHeaderSize]
    · by_cases hlt : h.length < audioHeaderSize
      · simp [AudioMessage.parse, ha, hlt]
      · simp only [AudioMessage.parse, if_neg hlt]
        split_ifs <;> simp [ha, hlt, MessageType.videoData, MessageType.audioData,
          MessageType.command]
  · simp [hpl, MessageType.videoData, MessageType.audioData, MessageType.command,
      MessageType.plugged]
  · simp [hu, MessageType.videoData, MessageType.audioData, MessageType.command,
      MessageType.unplugged]
  · rcases hcases with ⟨rfl, h0⟩ | ⟨p, rfl⟩
    · simp [firstInt, hc, h0]
    · by_cases hlt : h.length < 4
      · simp [firstInt, hc, hlt, Nat.not_le.2 hlt]
      · simp [firstInt, hc, hlt, Nat.not_lt.1 hlt, MessageType.videoData, MessageType.audioData,
          MessageType.command]
  · simp [hv, ha, hc]

namespace ReadLoop

/-- The loop, with the messages `before` dispatched, loses the message that ends
at `next` and nothing else: on every schedule it dispatches a beginning of
`later`, each message at its place and with its own payload, and all of `later`
when it is drained; whatever else it dispatches makes no callback. -/
def Recovers (before : List Message) (next : ℕ) (later : List Message) (r : ReadLoop) : Prop :=
  ∀ ts, Along step Delivers r ts →
    ∃ own junk genuine done rest, (run step r ts).log = own ++ (junk ++ genuine) ∧
      own.map Dispatched.frame = framesOf 0 before ∧
      (∀ d ∈ junk, d.callback = none) ∧
      later = done ++ rest ∧ genuine.map Dispatched.frame = framesOf next done ∧
      ((run step r ts).Drained → rest = [])

/-- `tail` leads a reader to its end: the blocks it takes for headers announce
only silent messages, and the last of them ends where `tail` does, unless nothing
comes after it. -/
def Realigns (tail : List Byte) (later : List Message) : Prop :=
  (∀ f ∈ headerLayout.scan 0 tail, silent f.header) ∧ (headerLayout.rest tail = [] ∨ later = [])

/-- What the Listener hears of a whole message. -/
theorem ownCallback_eq_none_iff {h : MessageHeader} {p : List Byte} (hp : p.length = h.length) :
    ownCallback h p = none ↔ silent h := by
  rw [ownCallback, Option.map_eq_none_iff]
  refine dispatch_eq_none_iff _ _ fun hnone => ?_
  split_ifs at hnone with hnil
  rw [← hp, hnil, List.length_nil]

/-- The log only grows. -/
theorem exists_log_append (r : ReadLoop) (ts : List Transfer) :
    ∃ new, (run step r ts).log = r.log ++ new := by
  refine run_invariant (I := fun s : ReadLoop => ∃ new, s.log = r.log ++ new) ?_ ⟨[], by simp⟩ ts
  rintro s t ⟨new, hnew⟩
  cases hph : s.phase with
  | header =>
      simp only [step, hph]
      cases t with
      | failed => exact ⟨new, hnew⟩
      | received n =>
          simp only [headerRead]
          split_ifs
          · exact ⟨new, hnew⟩
          · exact ⟨new, hnew⟩
          · split
            · exact ⟨new, hnew⟩
            · split_ifs
              · exact ⟨new, hnew⟩
              · exact ⟨new ++ [_], by rw [serve, hnew, List.append_assoc]⟩
  | payload h offset =>
      simp only [step, hph]
      cases t with
      | failed => exact ⟨new, hnew⟩
      | received n =>
          simp only [readFully]
          split_ifs
          · exact ⟨new, hnew⟩
          · exact ⟨new ++ [_], by rw [serve, hnew, List.append_assoc]⟩

/-- A dispatched frame of a scan made no callback exactly when it is silent. -/
theorem callback_eq_none_iff {r : ReadLoop} (hr : r.Inv) {d : Dispatched} (hd : d ∈ r.log)
    {pos : ℕ} {bs : List Byte} (hf : d.frame ∈ headerLayout.scan pos bs) :
    d.callback = none ↔ silent d.header := by
  have hown := ownCallback_eq_none_iff (Layout.payload_length_of_mem_scan hf)
  have hfaith := hr.faithful d hd
  constructor
  · intro hnone
    rw [hnone, Option.map_none] at hfaith
    exact hown.1 hfaith.symm
  · intro hsilent
    rw [show ownCallback d.header d.frame.payload = none from hown.2 hsilent,
      Option.map_eq_none_iff] at hfaith
    exact hfaith

section Tail

variable {before later : List Message} {tail : List Byte} {r : ReadLoop}

/-- What is still to come of `tail` and the messages behind it: the frames of `tail`, and those
from where its scan got stuck. -/
theorem pending_tail (hph : r.phase = .header) (hstream : r.stream = tail ++ encodeAll later) :
    r.pending = headerLayout.scan r.pos tail ++
      headerLayout.scan (r.pos + (tail.length - (headerLayout.rest tail).length))
        (headerLayout.rest tail ++ encodeAll later) := by
  simp only [pending, hph, hstream]
  exact Layout.scan_append _ _ _

/-- A loop that recovers is led to the end of `tail`. -/
theorem realigns_of_recovers (hr : r.Inv) (hph : r.phase = .header)
    (hstream : r.stream = tail ++ encodeAll later)
    (hlog : r.log.map Dispatched.frame = framesOf 0 before)
    (hrec : Recovers before (r.pos + tail.length) later r) :
    (∀ f ∈ headerLayout.scan r.pos tail, silent f.header) ∧
      (headerLayout.rest tail = [] ∨ later = []) := by
  obtain ⟨hinc, hle⟩ := Layout.incomplete_rest (F := headerLayout) tail
  obtain ⟨ts, hts, hdr⟩ := exists_drained hr
  obtain ⟨hinv, hcons⟩ := conserves hr hts
  obtain ⟨own, junk, genuine, done, rest, hsplit, hown, hjunk, hlater, hgen, hall⟩ := hrec ts hts
  obtain rfl := hall hdr
  rw [List.append_nil] at hlater
  subst hlater
  have heq : junk.map Dispatched.frame ++ framesOf (r.pos + tail.length) later = r.pending := by
    rw [pending_of_drained hinv hdr, hsplit, List.map_append, List.map_append, hown, hlog, hgen,
      List.append_nil] at hcons
    exact List.append_cancel_left hcons
  rw [pending_tail hph hstream] at heq
  refine ⟨fun f hf => ?_, ?_⟩
  · -- a frame inside the tail ends before the next message: it is junk
    have hmem : f ∈ junk.map Dispatched.frame ++ framesOf (r.pos + tail.length) later := by
      rw [heq]
      exact List.mem_append_left _ hf
    have hend := Layout.pos_add_le_of_mem_scan hf
    rcases List.mem_append.1 hmem with hj | hg
    · obtain ⟨d, hd, rfl⟩ := List.mem_map.1 hj
      refine (callback_eq_none_iff hinv ?_ hf).1 (hjunk d hd)
      rw [hsplit]
      exact List.mem_append_right _ (List.mem_append_left _ hd)
    · have := le_pos_of_mem_framesOf hg
      rw [headerLayout_hsize] at hend
      omega
  · cases later with
    | nil => exact .inr rfl
    | cons m later =>
        refine .inl ?_
        by_contra hne
        have hmem : (⟨r.pos + tail.length, m.header, m.payload⟩ : Frame Byte MessageHeader) ∈
            junk.map Dispatched.frame ++ framesOf (r.pos + tail.length) (m :: later) :=
          List.mem_append_right _ (List.mem_cons_self ..)
        rw [heq] at hmem
        rcases List.mem_append.1 hmem with hin | hin
        · have hend := Layout.pos_add_le_of_mem_scan hin
          rw [headerLayout_hsize] at hend
          have hend' : r.pos + tail.length + 16 ≤ r.pos + tail.length := hend
          omega
        · refine Layout.pos_ne_of_incomplete hne hinc hin ?_
          have hsum : r.pos + tail.length = r.pos +
              (tail.length - (headerLayout.rest tail).length) +
                (headerLayout.rest tail).length := by omega
          exact hsum

/-- And where it is led there, it recovers. -/
theorem recovers_of_realigns (hr : r.Inv) (hph : r.phase = .header)
    (hstream : r.stream = tail ++ encodeAll later)
    (hlog : r.log.map Dispatched.frame = framesOf 0 before)
    (hquiet : ∀ f ∈ headerLayout.scan r.pos tail, silent f.header)
    (hend : headerLayout.rest tail = [] ∨ later = []) :
    Recovers before (r.pos + tail.length) later r := by
  intro ts hts
  obtain ⟨hinc, -⟩ := Layout.incomplete_rest (F := headerLayout) tail
  obtain ⟨hinv, hcons⟩ := conserves hr hts
  obtain ⟨new, hnew⟩ := exists_log_append r ts
  have hsecond : headerLayout.scan (r.pos + (tail.length - (headerLayout.rest tail).length))
      (headerLayout.rest tail ++ encodeAll later) = framesOf (r.pos + tail.length) later := by
    rcases hend with hrest | rfl
    · rw [hrest, List.nil_append, List.length_nil, Nat.sub_zero, scan_encodeAll]
    · rw [encodeAll_nil, List.append_nil, Layout.scan_incomplete hinc]
      rfl
  rw [pending_tail hph hstream, hsecond, hnew, List.map_append, List.append_assoc] at hcons
  have hcons' := List.append_cancel_left hcons
  have hdone : (run step r ts).Drained → (run step r ts).pending = [] :=
    pending_of_drained hinv
  have hnone : ∀ d ∈ new, d.frame ∈ headerLayout.scan r.pos tail → d.callback = none := by
    intro d hd hf
    refine (callback_eq_none_iff hinv ?_ hf).2 (hquiet _ hf)
    rw [hnew]
    exact List.mem_append_right _ hd
  rcases List.append_eq_append_iff.1 hcons' with ⟨more, hscan, hpending⟩ | ⟨gen, hnewmap, hframes⟩
  · refine ⟨r.log, new, [], [], later, by rw [hnew, List.append_nil], hlog, ?_, rfl, rfl, ?_⟩
    · intro d hd
      refine hnone d hd ?_
      rw [hscan]
      exact List.mem_append_left _ (List.mem_map_of_mem hd)
    · intro hdr
      rw [hdone hdr] at hpending
      have := (List.append_eq_nil_iff.1 hpending.symm).2
      cases later with
      | nil => rfl
      | cons m later => simp [framesOf] at this
  · obtain ⟨junk, genuine, rfl, hj, hg⟩ := List.map_eq_append_iff.1 hnewmap
    obtain ⟨done, rest, hlater, hgen, hrest⟩ := exists_of_append_eq_framesOf hframes.symm
    refine ⟨r.log, junk, genuine, done, rest, hnew, hlog, ?_, hlater, hg.trans hgen, ?_⟩
    · intro d hd
      refine hnone d (List.mem_append_left _ hd) ?_
      rw [← hj]
      exact List.mem_map_of_mem hd
    · intro hdr
      rw [hdone hdr] at hrest
      cases rest with
      | nil => rfl
      | cons m rest => simp [framesOf] at hrest

/-- **A loop that reads a header in front of `tail` recovers exactly when `tail`
realigns.** -/
theorem recovers_iff (hr : r.Inv) (hph : r.phase = .header)
    (hstream : r.stream = tail ++ encodeAll later)
    (hlog : r.log.map Dispatched.frame = framesOf 0 before) :
    Recovers before (r.pos + tail.length) later r ↔ Realigns tail later := by
  have hsilent : (∀ f ∈ headerLayout.scan 0 tail, silent f.header) ↔
      ∀ f ∈ headerLayout.scan r.pos tail, silent f.header := by
    have hmap := Layout.map_header_scan (F := headerLayout) 0 r.pos tail
    rw [← List.forall_mem_map, hmap, List.forall_mem_map]
  unfold Realigns
  rw [hsilent]
  constructor
  · exact realigns_of_recovers hr hph hstream hlog
  · rintro ⟨hquiet, hend⟩
    exact recovers_of_realigns hr hph hstream hlog hquiet hend

end Tail

/-- **When a failed payload read costs one message only.**  In every run over
messages `before`, `m`, `later` that has got to byte `k` of the payload of `m`, a
payload read that fails there is recovered from exactly when the bytes of `m`
still to come realign the loop. -/
theorem recovers_iff_realigns (before : List Message) (m : Message) (later : List Message)
    (buf : List Byte) (ts : List Transfer) (k : ℕ)
    (hts : Along step Delivers (init buf (encodeAll (before ++ m :: later))) ts)
    (hphase : (run step (init buf (encodeAll (before ++ m :: later))) ts).phase =
      .payload m.header k)
    (hstart : (run step (init buf (encodeAll (before ++ m :: later))) ts).start =
      (encodeAll before).length) :
    Recovers before (encodeAll (before ++ [m])).length later
        (step (run step (init buf (encodeAll (before ++ m :: later))) ts) .failed) ↔
      Realigns (m.payload.drop k) later := by
  have hinv := (frames hts).1
  obtain ⟨before', m', later', hms, -, hlt, hstart', hpos, hstream, hlog⟩ :=
    split_of_payload hts hphase
  obtain ⟨rfl, htl⟩ := append_inj_of_encodeAll hms (hstart.symm.trans hstart')
  obtain ⟨rfl, rfl⟩ := List.cons.inj htl
  have hstep : step (run step (init buf (encodeAll (before ++ m :: later))) ts) .failed =
      { run step (init buf (encodeAll (before ++ m :: later))) ts with phase := .header } := by
    simp only [step, hphase, readFully]
  have hnext : (encodeAll (before ++ [m])).length =
      (run step (init buf (encodeAll (before ++ m :: later))) ts).pos +
        (m.payload.drop k).length := by
    rw [hpos, encodeAll_append, List.length_append, List.length_drop]
    simp
    omega
  rw [hstep, hnext]
  exact recovers_iff ⟨fun _ _ h => by simp at h, fun _ _ h => by simp at h, hinv.faithful⟩ rfl
    hstream hlog

/-- The condition at the end of a block: the header of 32 zero bytes of video has
been read, and the read of the payload fails at once. -/
theorem recovers_iff_realigns_zeros :
    Recovers [] (encodeAll ([] ++ [⟨MessageType.videoData, List.replicate 32 0, by decide⟩])).length
        [⟨MessageType.unplugged, [], by decide⟩]
        (step (run step (init [] (encodeAll ([] ++ ⟨MessageType.videoData, List.replicate 32 0,
          by decide⟩ :: [⟨MessageType.unplugged, [], by decide⟩]))) [.received 16]) .failed) ↔
      Realigns ((List.replicate 32 0).drop 0) [⟨MessageType.unplugged, [], by decide⟩] :=
  recovers_iff_realigns [] ⟨MessageType.videoData, List.replicate 32 0, by decide⟩
    [⟨MessageType.unplugged, [], by decide⟩] [] [.received 16] 0 (by decide +kernel)
    (by decide +kernel) (by decide +kernel)

/-- **A failed payload read can cost the next message, and can make the loop report
one that was never sent.**  After 17 zero bytes the blocks are out of step with
the stream, and the UNPLUGGED that follows is not found; a payload that looks like
a header is dispatched as a message of its own. -/
theorem not_recovers_unaligned :
    ¬ Recovers [] 33 [⟨MessageType.unplugged, [], by decide⟩]
        (step (run step (init [] (encodeAll [⟨MessageType.videoData, List.replicate 17 0,
          by decide⟩, ⟨MessageType.unplugged, [], by decide⟩])) [.received 16]) .failed) ∧
      ¬ Recovers [] 32 []
        (step (run step (init [] (encodeAll [⟨MessageType.videoData,
          toBytes MessageType.unplugged 0, by decide⟩])) [.received 16]) .failed) := by
  constructor
  · intro h
    obtain ⟨own, junk, genuine, done, rest, hlog, -, -, hlater, hgen, hall⟩ :=
      h [.received 16, .received 16] (by decide +kernel)
    have hempty : own ++ (junk ++ genuine) = [] := hlog.symm.trans (by decide +kernel)
    obtain rfl := hall (by decide +kernel)
    rw [List.append_nil] at hlater
    subst hlater
    rw [(List.append_eq_nil_iff.1 (List.append_eq_nil_iff.1 hempty).2).2] at hgen
    simp [framesOf] at hgen
  · intro h
    obtain ⟨own, junk, genuine, done, rest, hlog, hown, hjunk, hlater, hgen, -⟩ :=
      h [.received 16] (by decide +kernel)
    obtain rfl := (List.append_eq_nil_iff.1 hlater.symm).1
    obtain rfl := List.map_eq_nil_iff.1 hown
    obtain rfl := List.map_eq_nil_iff.1 hgen
    rw [List.nil_append, List.append_nil] at hlog
    have hcall : ∃ d ∈ junk, d.callback = some .onPhoneDisconnected := by
      rw [← hlog]
      decide +kernel
    obtain ⟨d, hd, hsome⟩ := hcall
    rw [hjunk d hd] at hsome
    simp at hsome

end ReadLoop
end Driver
end Carlinkit
