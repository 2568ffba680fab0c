/-
# The init sequence

`CarlinkitDriver.sendInitSequence` and what it is made of: `int32`, `asciiBytes`,
`sendFile`, `sendIntFile` and `sendCommand`, here as the messages that these
methods pass to `send`, and `Config` with its defaults.  The order is the one the
dongle expects, so `initSequence` is a list.
-/

import Carlinkit.Protocol.Header
import Mathlib.Data.Int.Notation

namespace Carlinkit
namespace Driver

open Framing Protocol

/-- `int32`: a word as four bytes. -/
def int32 (value : BitVec 32) : List Byte := le32 value

/-- `asciiBytes`: a character outside US-ASCII becomes a question mark. -/
def asciiBytes (s : String) : List Byte :=
  s.toList.map fun c => if c.toNat < 128 then .ofNat 8 c.toNat else 0x3F

@[simp] theorem asciiBytes_length (s : String) : (asciiBytes s).length = s.length := by
  rw [asciiBytes, List.length_map, String.length_toList]

/-- The decimal digits of a Java integer, with its sign. -/
def decimal (n : ℤ) : String := if n < 0 then "-" ++ n.natAbs.repr else n.natAbs.repr

theorem decimal_length_le {n : ℤ} {k : ℕ} (hk : 0 < k) (h : n.natAbs < 10 ^ k) :
    (decimal n).length ≤ k + 1 := by
  have hrepr : n.natAbs.repr.length ≤ k := (Nat.length_repr_le_iff hk).2 h
  unfold decimal
  split_ifs
  · rw [String.length_append]
    have : "-".length = 1 := rfl
    omega
  · omega

/-- `CarlinkitDriver.Config`. -/
structure Config where
  width : BitVec 32 := 800
  height : BitVec 32 := 480
  fps : BitVec 32 := 20
  format : BitVec 32 := 5
  packetMax : BitVec 32 := 49152
  iBoxVersion : BitVec 32 := 2
  phoneWorkMode : BitVec 32 := 2
  mediaDelay : BitVec 32 := 1000
  dpi : BitVec 32 := 140
  androidWorkMode : Bool := true
  handDriveMode : BitVec 32 := 0
  boxName : String := "HondaHRV"
  wifi5g : Bool := true
  boxMic : Bool := false
  /-- The name fits a SEND_FILE message. -/
  boxName_lt : boxName.length < 2 ^ 30 := by decide

/-- `sendFile`: the length of the name with its NUL, the name, the length of the
content, the content. -/
def sendFile (name : String) (content : List Byte)
    (h : name.length + content.length < 2 ^ 31 - 9) : Message where
  type := MessageType.sendFile
  payload :=
    le32 (.ofNat 32 (asciiBytes (name ++ "\x00")).length) ++
      (asciiBytes (name ++ "\x00") ++ (le32 (.ofNat 32 content.length) ++ content))
  payload_lt := by
    have : "\x00".length = 1 := rfl
    simp only [List.length_append, le32_length, asciiBytes_length, String.length_append]
    omega

/-- `sendIntFile`. -/
def sendIntFile (name : String) (value : BitVec 32) (h : name.length < 2 ^ 30) : Message :=
  sendFile name (int32 value) (by
    have : (int32 value).length = 4 := rfl
    omega)

/-- `sendCommand`. -/
def sendCommand (command : BitVec 32) : Message where
  type := MessageType.command
  payload := int32 command
  payload_lt := by
    rw [int32, le32_length]
    decide

/-- The OPEN message: width, height, fps, format, packetMax, iBoxVersion,
phoneWorkMode. -/
def sendOpen (c : Config) : Message where
  type := MessageType.openDongle
  payload := [c.width, c.height, c.fps, c.format, c.packetMax, c.iBoxVersion,
    c.phoneWorkMode].flatMap int32
  payload_lt := by simp [int32]

/-- The text of BoxSettings; `now` is `System.currentTimeMillis()`. -/
def boxSettingsJson (c : Config) (now : BitVec 64) : String :=
  "\x7b\"mediaDelay\":" ++ decimal c.mediaDelay.toInt ++
    ",\"syncTime\":" ++ decimal now.toInt ++
    ",\"androidAutoSizeW\":" ++ decimal c.width.toInt ++
    ",\"androidAutoSizeH\":" ++ decimal c.height.toInt ++ "\x7d"

/-- Four short numbers between five short pieces of text. -/
theorem length_append_nine_lt {s₁ s₂ s₃ s₄ s₅ s₆ s₇ s₈ s₉ : String}
    (hfixed : s₁.length + s₃.length + s₅.length + s₇.length + s₉.length ≤ 100)
    (h₂ : s₂.length ≤ 20) (h₄ : s₄.length ≤ 20) (h₆ : s₆.length ≤ 20) (h₈ : s₈.length ≤ 20) :
    (s₁ ++ s₂ ++ s₃ ++ s₄ ++ s₅ ++ s₆ ++ s₇ ++ s₈ ++ s₉).length < 2 ^ 31 := by
  simp only [String.length_append]
  omega

theorem boxSettingsJson_length_lt (c : Config) (now : BitVec 64) :
    (boxSettingsJson c now).length < 2 ^ 31 := by
  have hword : ∀ w : BitVec 32, (decimal w.toInt).length ≤ 20 := by
    intro w
    have := w.isLt
    refine decimal_length_le (k := 19) (by decide) ?_
    rw [BitVec.toInt_eq_toNat_cond]
    split <;> omega
  have hnow : (decimal now.toInt).length ≤ 20 := by
    have := now.isLt
    refine decimal_length_le (k := 19) (by decide) ?_
    rw [BitVec.toInt_eq_toNat_cond]
    split <;> omega
  exact length_append_nine_lt (by decide) (hword _) hnow (hword _) (hword _)

/-- The BOX_SETTINGS message. -/
def sendBoxSettings (c : Config) (now : BitVec 64) : Message where
  type := MessageType.boxSettings
  payload := asciiBytes (boxSettingsJson c now)
  payload_lt := by
    rw [asciiBytes_length]
    exact boxSettingsJson_length_lt c now

theorem sendBoxSettings_payload (c : Config) (now : BitVec 64) :
    (sendBoxSettings c now).payload = asciiBytes (boxSettingsJson c now) := by
  rw [sendBoxSettings]

/-- `sendInitSequence`: the messages in their order. -/
def initSequence (c : Config) (now : BitVec 64) : List Message :=
  [sendIntFile "/tmp/screen_dpi" c.dpi (by decide),
    sendOpen c,
    sendIntFile "/tmp/night_mode" 0 (by decide),
    sendIntFile "/tmp/hand_drive_mode" c.handDriveMode (by decide),
    sendIntFile "/tmp/charge_mode" 1 (by decide),
    sendFile "/etc/box_name" (asciiBytes (c.boxName ++ "\x00")) (by
      have h₁ : "/etc/box_name".length = 13 := by decide
      have h₂ : "\x00".length = 1 := rfl
      have h₃ := c.boxName_lt
      rw [asciiBytes_length, String.length_append]
      omega)] ++
    (if c.androidWorkMode then [sendIntFile "/etc/android_work_mode" 1 (by decide)] else []) ++
    [sendBoxSettings c now,
      sendCommand Command.wifiEnable,
      sendCommand (if c.wifi5g then Command.wifi5G else Command.wifi24G),
      sendCommand (if c.boxMic then Command.boxMic else Command.mic),
      sendCommand Command.audioTransferOff]

theorem initSequence_map_type (c : Config) (now : BitVec 64) :
    (initSequence c now).map Message.type =
      [MessageType.sendFile, MessageType.openDongle, MessageType.sendFile, MessageType.sendFile,
          MessageType.sendFile, MessageType.sendFile] ++
        (if c.androidWorkMode then [MessageType.sendFile] else []) ++
        [MessageType.boxSettings, MessageType.command, MessageType.command, MessageType.command,
          MessageType.command] := by
  simp only [initSequence, List.map_append, List.map_cons, List.map_nil, sendIntFile, sendFile,
    sendOpen, sendBoxSettings, sendCommand]
  split_ifs <;> rfl

/-- None of the init messages is audio, so none of them can be evicted from the
send queue. -/
theorem type_ne_audioData_of_mem_initSequence {c : Config} {now : BitVec 64} {m : Message}
    (hm : m ∈ initSequence c now) : m.type ≠ MessageType.audioData := by
  have htypes : ∀ t ∈ (initSequence c now).map Message.type, t ≠ MessageType.audioData := by
    rw [initSequence_map_type]
    cases c.androidWorkMode <;>
      simp [MessageType.sendFile, MessageType.openDongle, MessageType.boxSettings,
        MessageType.command, MessageType.audioData]
  exact htypes _ (List.mem_map_of_mem hm)

/-- There are at most twelve init messages. -/
theorem initSequence_length_le (c : Config) (now : BitVec 64) :
    (initSequence c now).length ≤ 12 := by
  rw [← List.length_map Message.type, initSequence_map_type]
  cases c.androidWorkMode <;> simp

end Driver
end Carlinkit
