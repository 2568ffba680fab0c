/-
# The bench session

`tools/session.py` starts the dongle from a laptop, and what is measured there is compared
with the car.  It writes the same twelve messages as `CarlinkitDriver.sendInitSequence`, in
Python: `struct.pack` in place of a `ByteBuffer`, `"%d"` in place of string concatenation,
`encode("ascii")`, which throws where Java writes a question mark.  `init_eq` says that the
bytes are the same, whatever the size of the screen, the frame rate and the time.

Python integers have no width, so `struct.pack` may fail; that it does not is part of it.
-/

import Carlinkit.Driver.InitSequence
import Mathlib.Data.Int.Bitwise

namespace Carlinkit
namespace Bench

open Framing Protocol

/-! ### `struct.pack`, `encode` and the methods of `Session` -/

/-- `struct.pack("<I", v)`; `none` is the error of a number that has no such form. -/
def packInt (v : ℤ) : Option (List Byte) :=
  if 0 ≤ v ∧ v < 2 ^ 32 then
    some ((List.range 4).map fun i => .ofNat 8 (v.toNat / 256 ^ i))
  else none

/-- `struct.pack` of several words. -/
def pack : List ℤ → Option (List Byte)
  | [] => some []
  | v :: vs => (packInt v).bind fun bytes => (pack vs).map (bytes ++ ·)

/-- `s.encode("ascii")`; `none` is the `UnicodeEncodeError`. -/
def encodeAscii (s : String) : Option (List Byte) :=
  if s.toList.all fun c => c.toNat < 128 then some (s.toList.map fun c => .ofNat 8 c.toNat)
  else none

/-- `hdr(t, n)`. -/
def hdr (t n : ℤ) : Option (List Byte) :=
  pack [0x55AA55AA, n, t, Int.land (Int.xor t (-1)) 0xFFFFFFFF]

/-- `Session.send`, with the bytes that it writes. -/
def send (t : ℤ) (payload : List Byte) : Option (List Byte) :=
  (hdr t payload.length).map (· ++ payload)

/-- `Session.send_file`. -/
def sendFile (name : String) (content : List Byte) : Option (List Byte) :=
  (encodeAscii (name ++ "\x00")).bind fun nb =>
    (pack [nb.length]).bind fun nameLength =>
      (pack [content.length]).bind fun contentLength =>
        send 0x99 (nameLength ++ nb ++ contentLength ++ content)

/-- `Session.send_int_file`. -/
def sendIntFile (name : String) (v : ℤ) : Option (List Byte) := (pack [v]).bind (sendFile name)

/-- The text of the box settings. -/
def settings (now w h : ℤ) : String :=
  "\x7b\"mediaDelay\":1000,\"syncTime\":" ++ toString now ++ ",\"androidAutoSizeW\":" ++
    toString w ++ ",\"androidAutoSizeH\":" ++ toString h ++ "\x7d"

/-- `self.send(0x08, struct.pack("<I", c))`. -/
def sendCommand (c : ℤ) : Option (List Byte) := (pack [c]).bind (send 0x08)

/-- One call after another; what one of them throws, the whole throws. -/
def inOrder : List (Option (List Byte)) → Option (List Byte)
  | [] => some []
  | call :: calls => call.bind fun bytes => (inOrder calls).map (bytes ++ ·)

/-- `Session.init`; `now` is `int(time.time() * 1000)`. -/
def init (w h fps dpi now : ℤ) : Option (List Byte) :=
  inOrder
    [sendIntFile "/tmp/screen_dpi" dpi,
      (pack [w, h, fps, 5, 49152, 2, 2]).bind (send 0x01),
      sendIntFile "/tmp/night_mode" 0,
      sendIntFile "/tmp/hand_drive_mode" 0,
      sendIntFile "/tmp/charge_mode" 1,
      -- `b"HondaHRV\0"`
      sendFile "/etc/box_name" [0x48, 0x6F, 0x6E, 0x64, 0x61, 0x48, 0x52, 0x56, 0],
      sendIntFile "/etc/android_work_mode" 1,
      (encodeAscii (settings now w h)).bind (send 0x19),
      sendCommand 1000,
      sendCommand 25,
      sendCommand 7,
      sendCommand 23]

/-! ### Words and text -/

/-- A word is packed as its four bytes. -/
theorem packInt_word (w : BitVec 32) : packInt w.toNat = some (le32 w) := by
  have hlt := w.isLt
  rw [packInt, if_pos (by omega)]
  simp [List.range_succ, le32]

theorem pack_words (ws : List (BitVec 32)) :
    pack (ws.map fun w => (w.toNat : ℤ)) = some (ws.flatMap le32) := by
  induction ws with
  | nil => rfl
  | cons w ws ih =>
      rw [List.map_cons, pack, packInt_word, ih, List.flatMap_cons]
      rfl

/-- `(t ^ -1) & 0xFFFFFFFF` is the check field. -/
theorem check_eq (w : BitVec 32) :
    Int.land (Int.xor (w.toNat : ℤ) (-1)) 0xFFFFFFFF = ((typeCheck w).toNat : ℤ) := by
  have hxor : Int.xor (w.toNat : ℤ) (-1) = Int.negSucc (w.toNat ^^^ 0) := rfl
  have hand : Int.land (Int.negSucc (w.toNat ^^^ 0)) 0xFFFFFFFF =
      ((Nat.ldiff 0xFFFFFFFF (w.toNat ^^^ 0) : ℕ) : ℤ) := rfl
  rw [hxor, hand, Nat.xor_zero, typeCheck, BitVec.toNat_xor]
  congr 1
  apply Nat.eq_of_testBit_eq
  intro i
  have hones : Nat.testBit 0xFFFFFFFF i = decide (i < 32) := Nat.testBit_two_pow_sub_one 32 i
  have hhigh : ¬ i < 32 → w.toNat.testBit i = false := by
    intro hi
    exact Nat.testBit_lt_two_pow (Nat.lt_of_lt_of_le w.isLt
      (Nat.pow_le_pow_right Nat.two_pos (Nat.not_lt.1 hi)))
  rw [Nat.testBit_ldiff, Nat.testBit_xor, hones, show (0xFFFFFFFF : BitVec 32).toNat = 0xFFFFFFFF
    from rfl, hones]
  by_cases hi : i < 32
  · simp [hi]
  · simp [hi, hhigh hi]

theorem all_ascii_iff {s : String} :
    (s.toList.all fun c => c.toNat < 128) = true ↔ ∀ c ∈ s.toList, c.toNat < 128 := by
  simp only [List.all_eq_true, decide_eq_true_eq]

theorem encodeAscii_eq {s : String} (h : ∀ c ∈ s.toList, c.toNat < 128) :
    encodeAscii s = some (Driver.asciiBytes s) := by
  rw [encodeAscii, if_pos (all_ascii_iff.2 h), Driver.asciiBytes]
  congr 1
  exact List.map_congr_left fun c hc => (if_pos (h c hc)).symm

/-- The digits of a number are ASCII. -/
theorem ascii_repr (n : ℕ) : ∀ c ∈ n.repr.toList, c.toNat < 128 := by
  intro c hc
  rw [Nat.toList_repr] at hc
  have hdigit := Nat.isDigit_of_mem_toDigits (by decide) (by decide) hc
  have hnine : '9'.toNat = 57 := rfl
  have := (Char.isDigit_iff_toNat.1 hdigit).2
  omega

/-- `"%d"` and the string of a Java integer. -/
theorem toString_eq_decimal {n : ℤ} (h : 0 ≤ n) : toString n = Driver.decimal n := by
  obtain ⟨k, rfl⟩ := Int.eq_ofNat_of_zero_le h
  rw [Driver.decimal, if_neg (Int.not_lt.2 h)]
  rfl

/-! ### The messages -/

theorem hdr_eq (m : Message) :
    hdr m.type.toNat m.payload.length = some m.headerBytes := by
  have hlength : (BitVec.ofNat 32 m.payload.length).toNat = m.payload.length := by
    have := m.payload_lt
    rw [BitVec.toNat_ofNat]
    omega
  have hwords := pack_words [magic, .ofNat 32 m.payload.length, m.type, typeCheck m.type]
  simp only [List.map_cons, List.map_nil, hlength] at hwords
  rw [hdr, check_eq]
  exact hwords

/-- `Session.send` writes a message as the driver does. -/
theorem send_eq (m : Message) : send m.type.toNat m.payload = some m.encode := by
  rw [send, hdr_eq]
  rfl

theorem pack_length {n : ℕ} (h : n < 2 ^ 31) : pack [(n : ℤ)] = some (le32 (.ofNat 32 n)) := by
  have hnat : (BitVec.ofNat 32 n).toNat = n := by
    rw [BitVec.toNat_ofNat]
    omega
  have hword := pack_words [.ofNat 32 n]
  simp only [List.map_cons, List.map_nil, hnat] at hword
  exact hword

theorem sendFile_eq {name : String} {content : List Byte}
    (hascii : ∀ c ∈ (name ++ "\x00").toList, c.toNat < 128)
    (h : name.length + content.length < 2 ^ 31 - 9) :
    sendFile name content = some (Driver.sendFile name content h).encode := by
  have hname : (Driver.asciiBytes (name ++ "\x00")).length < 2 ^ 31 := by
    have : "\x00".length = 1 := rfl
    rw [Driver.asciiBytes_length, String.length_append]
    omega
  have hcontent : content.length < 2 ^ 31 := by omega
  have hpayload : le32 (.ofNat 32 (Driver.asciiBytes (name ++ "\x00")).length) ++
      Driver.asciiBytes (name ++ "\x00") ++ le32 (.ofNat 32 content.length) ++ content =
        (Driver.sendFile name content h).payload := by
    rw [Driver.sendFile]
    simp only [List.append_assoc]
  rw [sendFile, encodeAscii_eq hascii, Option.bind_some, pack_length hname, Option.bind_some,
    pack_length hcontent, Option.bind_some, hpayload]
  exact send_eq (Driver.sendFile name content h)

theorem sendIntFile_eq {name : String} (v : BitVec 32)
    (hascii : ∀ c ∈ (name ++ "\x00").toList, c.toNat < 128) (h : name.length < 2 ^ 30) :
    sendIntFile name v.toNat = some (Driver.sendIntFile name v h).encode := by
  have hpack : pack [(v.toNat : ℤ)] = some (Driver.int32 v) := pack_words [v]
  rw [sendIntFile, hpack, Option.bind_some, Driver.sendIntFile]
  exact sendFile_eq hascii _

theorem sendCommand_eq (c : BitVec 32) :
    sendCommand c.toNat = some (Driver.sendCommand c).encode := by
  have hpack : pack [(c.toNat : ℤ)] = some (Driver.int32 c) := pack_words [c]
  rw [sendCommand, hpack, Option.bind_some]
  exact send_eq (Driver.sendCommand c)

/-! ### The whole sequence -/

theorem boxName_lt : "HondaHRV".length < 2 ^ 30 := by decide

/-- The default `Config` with these values. -/
def config (w h fps dpi : BitVec 32) : Driver.Config :=
  { width := w, height := h, fps := fps, dpi := dpi, boxName_lt := boxName_lt }

/-- The default delay, as text before the time. -/
theorem settings_head :
    "\x7b\"mediaDelay\":" ++ Driver.decimal (1000 : BitVec 32).toInt ++ ",\"syncTime\":" =
      "\x7b\"mediaDelay\":1000,\"syncTime\":" := by
  have hdelay : Driver.decimal (1000 : BitVec 32).toInt = "1000" := by decide
  rw [hdelay]
  decide

/-- The text of the box settings is the one of the driver. -/
theorem settings_eq (w h fps dpi : BitVec 32) (now : BitVec 64) (hw : 0 ≤ w.toInt)
    (hh : 0 ≤ h.toInt) (hnow : 0 ≤ now.toInt) :
    settings now.toInt w.toInt h.toInt = Driver.boxSettingsJson (config w h fps dpi) now := by
  delta settings Driver.boxSettingsJson config
  rw [toString_eq_decimal hw, toString_eq_decimal hh, toString_eq_decimal hnow, ← settings_head]

/-- A digit string is ASCII, as is every text in front of one. -/
theorem ascii_append_decimal {s : String} {n : ℤ} (hs : ∀ c ∈ s.toList, c.toNat < 128)
    (hn : 0 ≤ n) : ∀ c ∈ (s ++ toString n).toList, c.toNat < 128 := by
  obtain ⟨k, rfl⟩ := Int.eq_ofNat_of_zero_le hn
  intro c hc
  rw [String.toList_append] at hc
  rcases List.mem_append.1 hc with hc | hc
  · exact hs c hc
  · exact ascii_repr k c hc

theorem ascii_append {s t : String} (hs : ∀ c ∈ s.toList, c.toNat < 128)
    (ht : ∀ c ∈ t.toList, c.toNat < 128) : ∀ c ∈ (s ++ t).toList, c.toNat < 128 := by
  intro c hc
  rw [String.toList_append] at hc
  rcases List.mem_append.1 hc with hc | hc
  · exact hs c hc
  · exact ht c hc

theorem ascii_settings {now w h : ℤ} (hnow : 0 ≤ now) (hw : 0 ≤ w) (hh : 0 ≤ h) :
    ∀ c ∈ (settings now w h).toList, c.toNat < 128 := by
  delta settings
  refine ascii_append (ascii_append_decimal (ascii_append (ascii_append_decimal
    (ascii_append (ascii_append_decimal ?_ hnow) ?_) hw) ?_) hh) ?_
  all_goals exact all_ascii_iff.1 (by decide)

/-- Calls that write one message each write them all, in order. -/
theorem inOrder_eq {calls : List (Option (List Byte))} {ms : List Message}
    (h : List.Forall₂ (fun call m => call = some m.encode) calls ms) :
    inOrder calls = some (encodeAll ms) := by
  induction h with
  | nil => rfl
  | cons hcall _ ih =>
      rw [inOrder, hcall, Option.bind_some, ih]
      rfl

/-- A word that is not negative as an `int` is its own Python integer. -/
theorem toInt_eq_toNat {w : BitVec 32} (hw : 0 ≤ w.toInt) : w.toInt = (w.toNat : ℤ) := by
  have hlt := length_lt_of_not_neg (Int.not_lt.2 hw)
  rw [BitVec.toInt_eq_toNat_of_lt]
  omega

theorem sendOpen_eq (w h fps dpi : BitVec 32) (hw : 0 ≤ w.toInt) (hh : 0 ≤ h.toInt)
    (hfps : 0 ≤ fps.toInt) :
    (pack [w.toInt, h.toInt, fps.toInt, 5, 49152, 2, 2]).bind (send 0x01) =
      some (Driver.sendOpen (config w h fps dpi)).encode := by
  have hpack : pack [(w.toNat : ℤ), h.toNat, fps.toNat, 5, 49152, 2, 2] =
      some ([w, h, fps, 5, 49152, 2, 2].flatMap le32) := pack_words [w, h, fps, 5, 49152, 2, 2]
  rw [toInt_eq_toNat hw, toInt_eq_toNat hh, toInt_eq_toNat hfps, hpack, Option.bind_some]
  exact send_eq (Driver.sendOpen (config w h fps dpi))

theorem sendBoxSettings_eq (w h fps dpi : BitVec 32) (now : BitVec 64) (hw : 0 ≤ w.toInt)
    (hh : 0 ≤ h.toInt) (hnow : 0 ≤ now.toInt) :
    (encodeAscii (settings now.toInt w.toInt h.toInt)).bind (send 0x19) =
      some (Driver.sendBoxSettings (config w h fps dpi) now).encode := by
  rw [encodeAscii_eq (ascii_settings hnow hw hh), Option.bind_some,
    settings_eq w h fps dpi now hw hh hnow, ← Driver.sendBoxSettings_payload]
  exact send_eq (Driver.sendBoxSettings (config w h fps dpi) now)

/-- The twelve messages of the default `Config`. -/
theorem initSequence_config (w h fps dpi : BitVec 32) (now : BitVec 64) :
    Driver.initSequence (config w h fps dpi) now =
      [Driver.sendIntFile "/tmp/screen_dpi" dpi (by decide),
        Driver.sendOpen (config w h fps dpi),
        Driver.sendIntFile "/tmp/night_mode" 0 (by decide),
        Driver.sendIntFile "/tmp/hand_drive_mode" 0 (by decide),
        Driver.sendIntFile "/tmp/charge_mode" 1 (by decide),
        Driver.sendFile "/etc/box_name" (Driver.asciiBytes ("HondaHRV" ++ "\x00")) (by decide),
        Driver.sendIntFile "/etc/android_work_mode" 1 (by decide),
        Driver.sendBoxSettings (config w h fps dpi) now,
        Driver.sendCommand Command.wifiEnable,
        Driver.sendCommand Command.wifi5G,
        Driver.sendCommand Command.mic,
        Driver.sendCommand Command.audioTransferOff] := by
  rw [Driver.initSequence]
  rfl

/-- **A bench run starts the dongle as the app does.**  For every size, frame rate and density
that is not negative as an `int`, and every time: `Session.init` throws nothing, and the bytes
that it writes are those of `sendInitSequence` with the default `Config` and these values. -/
theorem init_eq (w h fps dpi : BitVec 32) (now : BitVec 64) (hw : 0 ≤ w.toInt)
    (hh : 0 ≤ h.toInt) (hfps : 0 ≤ fps.toInt) (hdpi : 0 ≤ dpi.toInt) (hnow : 0 ≤ now.toInt) :
    init w.toInt h.toInt fps.toInt dpi.toInt now.toInt =
      some (encodeAll (Driver.initSequence (config w h fps dpi) now)) := by
  have hdpi : sendIntFile "/tmp/screen_dpi" dpi.toInt =
      some (Driver.sendIntFile "/tmp/screen_dpi" dpi (by decide)).encode := by
    rw [toInt_eq_toNat hdpi]
    exact sendIntFile_eq dpi (all_ascii_iff.1 (by decide)) _
  have hnight : sendIntFile "/tmp/night_mode" 0 =
      some (Driver.sendIntFile "/tmp/night_mode" 0 (by decide)).encode :=
    sendIntFile_eq 0 (all_ascii_iff.1 (by decide)) _
  have hdrive : sendIntFile "/tmp/hand_drive_mode" 0 =
      some (Driver.sendIntFile "/tmp/hand_drive_mode" 0 (by decide)).encode :=
    sendIntFile_eq 0 (all_ascii_iff.1 (by decide)) _
  have hcharge : sendIntFile "/tmp/charge_mode" 1 =
      some (Driver.sendIntFile "/tmp/charge_mode" 1 (by decide)).encode :=
    sendIntFile_eq 1 (all_ascii_iff.1 (by decide)) _
  have hname : sendFile "/etc/box_name" [0x48, 0x6F, 0x6E, 0x64, 0x61, 0x48, 0x52, 0x56, 0] =
      some (Driver.sendFile "/etc/box_name" (Driver.asciiBytes ("HondaHRV" ++ "\x00"))
        (by decide)).encode := sendFile_eq (all_ascii_iff.1 (by decide)) _
  have hwork : sendIntFile "/etc/android_work_mode" 1 =
      some (Driver.sendIntFile "/etc/android_work_mode" 1 (by decide)).encode :=
    sendIntFile_eq 1 (all_ascii_iff.1 (by decide)) _
  rw [initSequence_config]
  exact inOrder_eq (.cons hdpi (.cons (sendOpen_eq w h fps dpi hw hh hfps) (.cons hnight
    (.cons hdrive (.cons hcharge (.cons hname (.cons hwork (.cons
      (sendBoxSettings_eq w h fps dpi now hw hh hnow) (.cons (sendCommand_eq Command.wifiEnable)
        (.cons (sendCommand_eq Command.wifi5G) (.cons (sendCommand_eq Command.mic)
          (.cons (sendCommand_eq Command.audioTransferOff) .nil))))))))))))

/-- 800 by 480 at 20 frames a second. -/
theorem init_eq_default :
    init (800 : BitVec 32).toInt (480 : BitVec 32).toInt (20 : BitVec 32).toInt
        (140 : BitVec 32).toInt (1756000000000 : BitVec 64).toInt =
      some (encodeAll (Driver.initSequence (config 800 480 20 140) 1756000000000)) :=
  init_eq 800 480 20 140 1756000000000 (by decide) (by decide) (by decide) (by decide) (by decide)

end Bench
end Carlinkit
