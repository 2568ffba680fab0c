/-
# The 16-byte message header

`CarlinkitProtocol.java` and `MessageHeader.java`.  A message of the dongle is a
little-endian header

| offset | field | value |
| ---: | --- | --- |
| 0 | `magic` | `0x55AA55AA` |
| 4 | `length` | bytes of payload that follow |
| 8 | `type` | message type |
| 12 | `typeCheck` | `type ^ 0xFFFFFFFF` |

followed by `length` payload bytes.  `toBytes` and `fromBytes` are the code's
writer and reader of the header.  A `MessageHeader` carries the bound that
`fromBytes` establishes, a length that is not negative as a Java `int`, and a
`Message` the bound of a Java array, so a header or a message outside the
protocol cannot be built.  `headerLayout` is the framing of
`Carlinkit.Framing.Scan` that `fromBytes` makes, and `headerLayout_writes` says
that what `toBytes` writes is a header block of it.
-/

import Carlinkit.Framing.Words
import Carlinkit.Framing.Scan

namespace Carlinkit
namespace Protocol

open Framing

/-- `CarlinkitProtocol.MAGIC`. -/
def magic : BitVec 32 := 0x55AA55AA

/-- `CarlinkitProtocol.HEADER_SIZE`. -/
def headerSize : ℕ := 16

/-! ### `CarlinkitProtocol.Type` and `CarlinkitProtocol.Command` -/

namespace MessageType

def openDongle : BitVec 32 := 0x01
def plugged : BitVec 32 := 0x02
def unplugged : BitVec 32 := 0x04
def touch : BitVec 32 := 0x05
def videoData : BitVec 32 := 0x06
def audioData : BitVec 32 := 0x07
def command : BitVec 32 := 0x08
def closeDongle : BitVec 32 := 0x15
def boxSettings : BitVec 32 := 0x19
def sendFile : BitVec 32 := 0x99
def heartbeat : BitVec 32 := 0xAA

end MessageType

namespace Command

def mic : BitVec 32 := 7
def boxMic : BitVec 32 := 15
def audioTransferOff : BitVec 32 := 23
def wifi24G : BitVec 32 := 24
def wifi5G : BitVec 32 := 25
def releaseVideoFocus : BitVec 32 := 501
def wifiEnable : BitVec 32 := 1000

end Command

/-- `Integer.toHexString`. -/
def toHexString (w : BitVec 32) : String := String.ofList (Nat.toDigits 16 w.toNat)

/-- A header that `fromBytes` can return: its length is not negative as an `int`. -/
structure MessageHeader where
  type : BitVec 32
  length : ℕ
  length_lt : length < 2 ^ 31
deriving DecidableEq, Repr

/-- `MessageHeader.hasPayload`. -/
def MessageHeader.hasPayload (h : MessageHeader) : Bool := decide (0 < h.length)

theorem MessageHeader.length_eq_zero {h : MessageHeader} (hp : ¬ h.hasPayload = true) :
    h.length = 0 := by
  rw [hasPayload, decide_eq_true_iff] at hp
  omega

/-- `MessageHeader.typeCheck`: the check field of a type. -/
def typeCheck (type : BitVec 32) : BitVec 32 := type ^^^ 0xFFFFFFFF

/-- `MessageHeader.toBytes`: the header written before a payload. -/
def toBytes (type payloadLength : BitVec 32) : List Byte :=
  le32 magic ++ (le32 payloadLength ++ (le32 type ++ le32 (typeCheck type)))

theorem length_lt_of_not_neg {w : BitVec 32} (h : ¬ w.toInt < 0) : w.toNat < 2 ^ 31 := by
  rw [BitVec.toInt_eq_toNat_cond] at h
  have := w.isLt
  split at h <;> omega

/-- `MessageHeader.fromBytes`: parses a received header, with the texts of the
`IllegalArgumentException`s it throws. -/
def fromBytes (data : List Byte) (offset len : ℕ) : Except String MessageHeader :=
  if len ≠ headerSize then
    .error ("header must be " ++ toString headerSize ++ " bytes, got " ++ toString len)
  else if wordAt data offset ≠ magic then
    .error ("invalid magic: 0x" ++ toHexString (wordAt data offset))
  else if wordAt data (offset + 12) ≠ typeCheck (wordAt data (offset + 8)) then
    .error ("invalid typeCheck for type 0x" ++ toHexString (wordAt data (offset + 8)))
  else if h : (wordAt data (offset + 4)).toInt < 0 then
    .error ("negative length: " ++ toString (wordAt data (offset + 4)).toInt)
  else
    .ok ⟨wordAt data (offset + 8), (wordAt data (offset + 4)).toNat, length_lt_of_not_neg h⟩

@[simp] theorem toBytes_length (type payloadLength : BitVec 32) :
    (toBytes type payloadLength).length = 16 := rfl

/-- The four words of a written header. -/
theorem wordAt_toBytes (type payloadLength : BitVec 32) :
    wordAt (toBytes type payloadLength) 0 = magic ∧
      wordAt (toBytes type payloadLength) 4 = payloadLength ∧
      wordAt (toBytes type payloadLength) 8 = type ∧
      wordAt (toBytes type payloadLength) 12 = typeCheck type := by
  unfold toBytes
  refine ⟨?_, ?_, ?_, ?_⟩
  · rw [wordAt_append_left (by simp), wordAt_le32]
  · rw [show 4 = 4 + 0 from rfl, wordAt_append_right (le32_length _),
      wordAt_append_left (by simp), wordAt_le32]
  · rw [show 8 = 4 + (4 + 0) from rfl, wordAt_append_right (le32_length _),
      wordAt_append_right (le32_length _), wordAt_append_left (by simp), wordAt_le32]
  · rw [show 12 = 4 + (4 + (4 + 0)) from rfl, wordAt_append_right (le32_length _),
      wordAt_append_right (le32_length _), wordAt_append_right (le32_length _), wordAt_le32]

/-- **Reading back a written header.**  Every type and every length below `2^31`
survive `toBytes` and `fromBytes`. -/
theorem fromBytes_toBytes (h : MessageHeader) :
    fromBytes (toBytes h.type (.ofNat 32 h.length)) 0 headerSize = .ok h := by
  obtain ⟨hm, hl, ht, hc⟩ := wordAt_toBytes h.type (.ofNat 32 h.length)
  have hlt := h.length_lt
  have hnat : (BitVec.ofNat 32 h.length).toNat = h.length := by
    rw [BitVec.toNat_ofNat]; omega
  have hint : ¬ (BitVec.ofNat 32 h.length).toInt < 0 := by
    rw [BitVec.toInt_eq_toNat_cond, hnat]; split <;> omega
  simp only [fromBytes, Nat.zero_add, hm, hl, ht, hc, ne_eq, not_true_eq_false, if_false,
    dif_neg hint, hnat]

/-- Sixteen bytes are their four words. -/
theorem eq_le32_of_length {data : List Byte} (h : data.length = headerSize) :
    le32 (wordAt data 0) ++ (le32 (wordAt data 4) ++
      (le32 (wordAt data 8) ++ le32 (wordAt data 12))) = data := by
  rw [headerSize] at h
  have hlast : le32 (wordAt data 12) ++ data.drop 16 = data.drop 12 :=
    le32_wordAt (by omega)
  rw [List.drop_of_length_le (Nat.le_of_eq h), List.append_nil] at hlast
  rw [hlast, le32_wordAt (show 8 + 4 ≤ data.length by omega),
    le32_wordAt (show 4 + 4 ≤ data.length by omega),
    le32_wordAt (show 0 + 4 ≤ data.length by omega), List.drop_zero]

/-- What `fromBytes` accepts. -/
theorem fromBytes_eq_ok {data : List Byte} {h : MessageHeader}
    (hok : fromBytes data 0 headerSize = .ok h) :
    wordAt data 0 = magic ∧ wordAt data 12 = typeCheck (wordAt data 8) ∧
      ¬ (wordAt data 4).toInt < 0 ∧ h.type = wordAt data 8 ∧
        h.length = (wordAt data 4).toNat := by
  simp only [fromBytes, Nat.zero_add, ne_eq, not_true_eq_false, if_false] at hok
  split_ifs at hok with hmagic hcheck hneg
  obtain rfl := Except.ok.inj hok
  exact ⟨hmagic, hcheck, hneg, rfl, rfl⟩

/-- **Reading and writing a header are inverse to each other.**  Sixteen bytes are read as
type and length exactly when they are what is written for these, and the length is not
negative. -/
theorem fromBytes_eq_ok_iff (data : List Byte) (type length : BitVec 32)
    (h16 : data.length = headerSize) :
    (∃ h, fromBytes data 0 headerSize = .ok h ∧ h.type = type ∧
        (h.length : ℤ) = length.toInt) ↔
      data = toBytes type length ∧ 0 ≤ length.toInt := by
  constructor
  · rintro ⟨h, hok, rfl, hlength⟩
    obtain ⟨hmagic, hcheck, hneg, htype, hnat⟩ := fromBytes_eq_ok hok
    have hword : wordAt data 4 = length := by
      apply BitVec.eq_of_toInt_eq
      rw [← hlength, hnat, BitVec.toInt_eq_toNat_of_lt]
      have := length_lt_of_not_neg hneg
      omega
    refine ⟨?_, by rw [← hlength]; exact Int.natCast_nonneg _⟩
    rw [toBytes, ← hmagic, ← hword, htype, ← hcheck]
    exact (eq_le32_of_length h16).symm
  · rintro ⟨rfl, hpos⟩
    have hlt : length.toNat < 2 ^ 31 := length_lt_of_not_neg (Int.not_lt.2 hpos)
    have hread := fromBytes_toBytes ⟨type, length.toNat, hlt⟩
    simp only [BitVec.ofNat_toNat, BitVec.setWidth_eq] at hread
    refine ⟨_, hread, rfl, ?_⟩
    show (length.toNat : ℤ) = length.toInt
    rw [BitVec.toInt_eq_toNat_of_lt]
    omega

/-- The header of a frame of 32 bytes. -/
theorem fromBytes_eq_ok_video :
    ∃ h, fromBytes (toBytes MessageType.videoData 32) 0 headerSize = .ok h ∧
      h.type = MessageType.videoData ∧ (h.length : ℤ) = (32 : BitVec 32).toInt :=
  (fromBytes_eq_ok_iff _ _ _ rfl).2 ⟨rfl, by decide⟩

/-- The framing of the dongle's streams. -/
def headerLayout : Layout Byte MessageHeader where
  hsize := headerSize
  hsize_pos := by decide
  decode blk := (fromBytes blk 0 blk.length).toOption
  size := MessageHeader.length

@[simp] theorem headerLayout_hsize : headerLayout.hsize = 16 := rfl

@[simp] theorem headerLayout_size (h : MessageHeader) : headerLayout.size h = h.length := rfl

/-- What `toBytes` writes is a header block. -/
theorem headerLayout_writes (h : MessageHeader) :
    headerLayout.Writes h (toBytes h.type (.ofNat 32 h.length)) := by
  refine ⟨toBytes_length _ _, ?_⟩
  have hread : fromBytes (toBytes h.type (.ofNat 32 h.length)) 0 16 = .ok h := fromBytes_toBytes h
  simp only [headerLayout, toBytes_length, hread, Except.toOption]

/-- A message of the protocol: a type and a payload that fits a Java array.
A `null` payload of the code is the empty one. -/
structure Message where
  type : BitVec 32
  payload : List Byte
  payload_lt : payload.length < 2 ^ 31
deriving DecidableEq, Repr

namespace Message

/-- The header of a message. -/
def header (m : Message) : MessageHeader := ⟨m.type, m.payload.length, m.payload_lt⟩

/-- The header that is written for a message. -/
def headerBytes (m : Message) : List Byte := toBytes m.type (.ofNat 32 m.payload.length)

/-- The bytes of a message on the wire. -/
def encode (m : Message) : List Byte := m.headerBytes ++ m.payload

@[simp] theorem headerBytes_length (m : Message) : m.headerBytes.length = 16 := rfl

theorem writes_headerBytes (m : Message) : headerLayout.Writes m.header m.headerBytes :=
  headerLayout_writes m.header

@[simp] theorem header_length (m : Message) : m.header.length = m.payload.length := rfl

@[simp] theorem encode_length (m : Message) : m.encode.length = 16 + m.payload.length := by
  simp [encode]

/-- The first block of an encoded message is its header. -/
theorem fromBytes_take_encode (m : Message) (bs : List Byte) :
    fromBytes ((m.encode ++ bs).take 16) 0 16 = .ok m.header := by
  have h : (m.encode ++ bs).take 16 = m.headerBytes := by
    rw [encode, List.append_assoc]
    exact List.take_left' rfl
  rw [h]
  exact fromBytes_toBytes m.header

end Message

/-- Messages one after another on the wire. -/
def encodeAll (ms : List Message) : List Byte := ms.flatMap Message.encode

@[simp] theorem encodeAll_nil : encodeAll [] = [] := rfl

@[simp] theorem encodeAll_cons (m : Message) (ms : List Message) :
    encodeAll (m :: ms) = m.encode ++ encodeAll ms := rfl

theorem encodeAll_append (ms ns : List Message) :
    encodeAll (ms ++ ns) = encodeAll ms ++ encodeAll ns := List.flatMap_append

/-- The frames of a stream of messages whose first byte is at `pos`. -/
def framesOf : ℕ → List Message → List (Frame Byte MessageHeader)
  | _, [] => []
  | pos, m :: ms => ⟨pos, m.header, m.payload⟩ :: framesOf (pos + m.encode.length) ms

/-- A beginning of the frames of a list of messages is the frames of a beginning
of the list. -/
theorem exists_of_append_eq_framesOf {xs ys : List (Frame Byte MessageHeader)} {pos : ℕ}
    {ms : List Message} (h : xs ++ ys = framesOf pos ms) :
    ∃ done rest, ms = done ++ rest ∧ xs = framesOf pos done ∧
      ys = framesOf (pos + (encodeAll done).length) rest := by
  induction xs generalizing pos ms with
  | nil => exact ⟨[], ms, rfl, rfl, h⟩
  | cons x xs ih =>
      cases ms with
      | nil => simp [framesOf] at h
      | cons m ms =>
          rw [framesOf, List.cons_append] at h
          obtain ⟨hx, hxs⟩ := List.cons.inj h
          obtain ⟨done, rest, hms, hdone, hrest⟩ := ih hxs
          refine ⟨m :: done, rest, by rw [hms, List.cons_append], by rw [framesOf, hx, hdone], ?_⟩
          rw [hrest, encodeAll_cons, List.length_append, Nat.add_assoc]

@[simp] theorem framesOf_length (pos : ℕ) (ms : List Message) :
    (framesOf pos ms).length = ms.length := by
  induction ms generalizing pos with
  | nil => rfl
  | cons m ms ih => rw [framesOf, List.length_cons, List.length_cons, ih]

theorem framesOf_append (pos : ℕ) (ms ns : List Message) :
    framesOf pos (ms ++ ns) = framesOf pos ms ++ framesOf (pos + (encodeAll ms).length) ns := by
  induction ms generalizing pos with
  | nil => rfl
  | cons m ms ih =>
      rw [List.cons_append, framesOf, framesOf, ih, List.cons_append, encodeAll_cons,
        List.length_append, Nat.add_assoc]

/-- The frames of a list of messages carry their headers and payloads. -/
theorem framesOf_map {α : Type*} (g : MessageHeader → List Byte → α) (pos : ℕ)
    (ms : List Message) :
    (framesOf pos ms).map (fun f => g f.header f.payload) =
      ms.map fun m => g m.header m.payload := by
  induction ms generalizing pos with
  | nil => rfl
  | cons m ms ih => rw [framesOf, List.map_cons, List.map_cons, ih]

theorem le_pos_of_mem_framesOf {f : Frame Byte MessageHeader} {pos : ℕ} {ms : List Message}
    (hf : f ∈ framesOf pos ms) : pos ≤ f.pos := by
  induction ms generalizing pos with
  | nil => simp [framesOf] at hf
  | cons m ms ih =>
      rcases List.mem_cons.1 hf with rfl | hf
      · exact Nat.le_refl _
      · exact Nat.le_trans (Nat.le_add_right _ _) (ih hf)

/-- Two beginnings of a list of messages that are equally long on the wire are
the same. -/
theorem append_inj_of_encodeAll {as as' bs bs' : List Message} (h : as ++ bs = as' ++ bs')
    (hlen : (encodeAll as).length = (encodeAll as').length) : as = as' ∧ bs = bs' := by
  induction as generalizing as' with
  | nil =>
      cases as' with
      | nil => exact ⟨rfl, h⟩
      | cons a as' => simp at hlen; omega
  | cons a as ih =>
      cases as' with
      | nil => simp at hlen
      | cons a' as' =>
          obtain ⟨rfl, htl⟩ := List.cons.inj h
          simp only [encodeAll_cons, List.length_append, Nat.add_left_cancel_iff] at hlen
          obtain ⟨rfl, rfl⟩ := ih htl hlen
          exact ⟨rfl, rfl⟩

/-- **A stream of whole messages scans to these messages**, each at its place,
and whatever follows is scanned from the end of the last one. -/
theorem scan_encodeAll_append (pos : ℕ) (ms : List Message) (bs : List Byte) :
    headerLayout.scan pos (encodeAll ms ++ bs) =
      framesOf pos ms ++ headerLayout.scan (pos + (encodeAll ms).length) bs := by
  induction ms generalizing pos with
  | nil => simp [framesOf]
  | cons m ms ih =>
      have hblk : encodeAll (m :: ms) ++ bs =
          m.headerBytes ++ (m.payload ++ (encodeAll ms ++ bs)) := by
        simp [Message.encode]
      rw [hblk, Layout.scan_encode m.writes_headerBytes rfl, ih]
      simp [framesOf, Nat.add_assoc]

theorem scan_encodeAll (pos : ℕ) (ms : List Message) :
    headerLayout.scan pos (encodeAll ms) = framesOf pos ms := by
  have h := scan_encodeAll_append pos ms []
  rwa [List.append_nil, Layout.scan_nil, List.append_nil] at h

end Protocol
end Carlinkit
