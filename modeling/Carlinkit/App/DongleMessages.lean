/-
# What the dongle says of itself

`CarlinkitSession` writes the firmware of the dongle and the settings it applied to its log, once
each, and every type of message that nothing handles, once per type: the log "is capped at
512 KB and a repeating message would fill it".  The texts are buffers padded with NUL;
`asciiOf` cuts them there.

`lines_run` is the rule: a message that the read thread dispatches has a line exactly when it is
the first of its kind.  A text that `asciiOf` finds empty is of no kind, and does not spend the
line of the next one.  `echo_logged` is why it is done: a dongle that answers with the
BOX_SETTINGS it was sent has them in the log as they were, whatever the padding.

The words around the texts in the log are left out.
-/

import Carlinkit.Driver.Dispatch
import Carlinkit.Driver.InitSequence
import Carlinkit.Machine.Run
import Mathlib.Data.List.DropRight

namespace Carlinkit
namespace App
namespace DongleMessages

open Framing Machine Protocol Driver

/-- `CarlinkitProtocol.Type.SOFTWARE_VERSION`. -/
def softwareVersion : BitVec 32 := 0xCC

/-! ### Texts -/

/-- A printable character, or a dot. -/
def textOf (c : Byte) : Char :=
  if 0x20 ≤ c.toNat ∧ c.toNat < 0x7F then .ofNat c.toNat else '.'

/-- What `String.trim` takes away. -/
def blank (c : Char) : Bool := c.toNat ≤ 0x20

/-- `String.trim`. -/
def trim (cs : List Char) : List Char := (cs.dropWhile blank).rdropWhile blank

/-- `asciiOf`. -/
def asciiOf (payload : Option (List Byte)) : Option String :=
  match payload with
  | none => none
  | some p =>
      if p = [] then none
      else
        let s := trim ((p.takeWhile (· ≠ 0)).map textOf)
        if s = [] then none else some (.ofList s)

/-- A character that `asciiOf` keeps. -/
def Printable (c : Char) : Prop := 0x20 ≤ c.toNat ∧ c.toNat < 0x7F

theorem textOf_ofNat {c : Char} (h : Printable c) : textOf (.ofNat 8 c.toNat) = c := by
  have hlt : c.toNat < 2 ^ 8 := by
    have := h.2
    omega
  unfold textOf
  rw [BitVec.toNat_ofNat, Nat.mod_eq_of_lt hlt]
  exact (if_pos h).trans (Char.ofNat_toNat c)

theorem ofNat_ne_zero {c : Char} (h : Printable c) : BitVec.ofNat 8 c.toNat ≠ 0 := by
  intro hzero
  have hmod := congrArg BitVec.toNat hzero
  rw [BitVec.toNat_ofNat, Nat.mod_eq_of_lt (by have := h.2; omega)] at hmod
  exact absurd hmod (by have := h.1; simp; omega)

theorem trim_eq_self {cs : List Char} (hfirst : ∀ c ∈ cs.head?, blank c = false)
    (hlast : ∀ c ∈ cs.getLast?, blank c = false) : trim cs = cs := by
  have hdrop : cs.dropWhile blank = cs := by
    cases cs with
    | nil => rfl
    | cons c cs => rw [List.dropWhile_cons, hfirst c rfl, if_neg Bool.false_ne_true]
  rw [trim, hdrop]
  rcases List.eq_nil_or_concat cs with rfl | ⟨init, c, rfl⟩
  · rfl
  · rw [List.concat_eq_append, List.rdropWhile_concat_neg]
    rw [hlast c (by simp)]
    exact Bool.false_ne_true

/-- **A text comes back from its padded bytes.** -/
theorem asciiOf_pad {s : String} (hs : ∀ c ∈ s.toList, Printable c) (hne : s ≠ "")
    (hfirst : ∀ c ∈ s.toList.head?, blank c = false)
    (hlast : ∀ c ∈ s.toList.getLast?, blank c = false) (n : ℕ) :
    asciiOf (some (asciiBytes s ++ List.replicate n 0)) = some s := by
  have hbytes : asciiBytes s = s.toList.map fun c => .ofNat 8 c.toNat :=
    List.map_congr_left fun c hc => if_pos (by have := (hs c hc).2; omega)
  have hcut : (asciiBytes s ++ List.replicate n 0).takeWhile (· ≠ 0) = asciiBytes s := by
    rw [List.takeWhile_append_of_pos, List.takeWhile_replicate]
    · simp
    · intro b hb
      rw [hbytes] at hb
      obtain ⟨c, hc, rfl⟩ := List.mem_map.1 hb
      exact decide_eq_true (ofNat_ne_zero (hs c hc))
  have htext : (asciiBytes s).map textOf = s.toList := by
    rw [hbytes, List.map_map]
    exact (List.map_congr_left fun c hc => textOf_ofNat (hs c hc)).trans (List.map_id _)
  have hnil : s.toList ≠ [] := fun h => hne (String.toList_eq_nil_iff.1 h)
  have hlong : asciiBytes s ++ List.replicate n 0 ≠ [] := by
    rw [hbytes]
    simp [hnil]
  unfold asciiOf
  dsimp only
  rw [if_neg hlong, hcut, htext, trim_eq_self hfirst hlast, if_neg hnil, String.ofList_toList]

/-! ### Lines -/

/-- A line of the log. -/
inductive Line
  | firmware (v : String)
  | settings (v : String)
  /-- With the number of bytes. -/
  | notHandled (type : BitVec 32) (bytes : ℕ)
deriving DecidableEq, Repr

/-- What the session keeps of the messages, and the lines so far. -/
structure Heard where
  receivedData : Bool
  dongleVersionLogged : Bool
  boxSettingsLogged : Bool
  /-- A set. -/
  unhandledTypesSeen : List (BitVec 32)
  lines : List Line
deriving DecidableEq, Repr

namespace Heard

/-- A new session. -/
def new : Heard := ⟨false, false, false, [], []⟩

/-- `onMessage`. -/
def onMessage (type : BitVec 32) (payload : Option (List Byte)) (x : Heard) : Heard :=
  let x := { x with receivedData := true }
  if type = softwareVersion then
    match asciiOf payload with
    | some v =>
        if x.dongleVersionLogged = false then
          { x with dongleVersionLogged := true, lines := x.lines ++ [.firmware v] }
        else x
    | none => x
  else if type = MessageType.boxSettings then
    match asciiOf payload with
    | some v =>
        if x.boxSettingsLogged = false then
          { x with boxSettingsLogged := true, lines := x.lines ++ [.settings v] }
        else x
    | none => x
  else if type ∈ x.unhandledTypesSeen then x
  else
    { x with
      unhandledTypesSeen := type :: x.unhandledTypesSeen
      lines := x.lines ++ [.notHandled type (payload.elim 0 List.length)] }

/-- What a call of the `Listener` means to the log, and to `receivedData`. -/
def listen (x : Heard) : Callback → Heard
  | .onVideoFrame .. | .onAudio .. => { x with receivedData := true }
  | .onMessage type payload => x.onMessage type payload
  | .onPhoneConnected _ | .onPhoneDisconnected | .onDongleCommand _ => x

end Heard

/-- A message as the read loop hands it to `dispatch`. -/
abbrev Message := MessageHeader × Option (List Byte)

/-- The read thread dispatches a message, and the session listens. -/
def step (s : Reader × Heard) (m : Message) : Reader × Heard :=
  ((dispatch s.1 m.1 m.2).1, (dispatch s.1 m.1 m.2).2.elim s.2 s.2.listen)

/-- A new driver and a new session. -/
def start : Reader × Heard := (.init, .new)

/-! ### Kinds -/

/-- What is logged once. -/
inductive Kind
  | firmware
  | settings
  | notHandled (type : BitVec 32)
deriving DecidableEq, Repr

/-- The types that the driver handles. -/
def handled (type : BitVec 32) : Prop :=
  type = MessageType.videoData ∨ type = MessageType.audioData ∨ type = MessageType.plugged ∨
    type = MessageType.unplugged ∨ type = MessageType.command

instance (type : BitVec 32) : Decidable (handled type) :=
  inferInstanceAs (Decidable (_ ∨ _))

/-- The payload of a message. -/
def content (m : Message) : Option (List Byte) := m.2.map (·.take m.1.length)

/-- The line of a message, if it gets one. -/
def line (m : Message) : Option (Kind × Line) :=
  if handled m.1.type then none
  else if m.1.type = softwareVersion then
    (asciiOf (content m)).map fun v => (.firmware, .firmware v)
  else if m.1.type = MessageType.boxSettings then
    (asciiOf (content m)).map fun v => (.settings, .settings v)
  else some (.notHandled m.1.type, .notHandled m.1.type ((content m).elim 0 List.length))

/-- The kinds among some messages. -/
def kinds (ms : List Message) : List Kind := (ms.filterMap line).map Prod.fst

/-- What the session has logged is what it remembers. -/
structure Remembers (x : Heard) (ks : List Kind) : Prop where
  firmware : x.dongleVersionLogged = true ↔ .firmware ∈ ks
  settings : x.boxSettingsLogged = true ↔ .settings ∈ ks
  notHandled : ∀ type, type ∈ x.unhandledTypesSeen ↔ .notHandled type ∈ ks

theorem remembers_new : Remembers .new [] :=
  ⟨by simp [Heard.new], by simp [Heard.new], by simp [Heard.new]⟩

variable {x : Heard} {ks : List Kind} {m : Message}

/-- The line that a message adds, after messages of the kinds `ks`. -/
def news (ks : List Kind) (m : Message) : List Line :=
  (line m).elim [] fun kl => if kl.1 ∈ ks then [] else [kl.2]

/-- A message that the driver handles does not come to `onMessage`. -/
theorem dispatch_of_handled (d : Reader) (x : Heard) (hm : handled m.1.type) :
    ∃ b, (dispatch d m.1 m.2).2.elim x x.listen = { x with receivedData := b } := by
  unfold dispatch
  split_ifs with hvideo haudio hplugged hunplugged hcommand
  · cases VideoMessage.parse m.2 m.1.length with
    | none => exact ⟨_, rfl⟩
    | some vm => exact ⟨true, rfl⟩
  · cases AudioMessage.parse m.2 m.1.length with
    | none => exact ⟨_, rfl⟩
    | some am => exact ⟨true, rfl⟩
  · exact ⟨_, rfl⟩
  · exact ⟨_, rfl⟩
  · cases firstInt m.2 m.1.length <;> exact ⟨_, rfl⟩
  · simp_all [handled]

theorem dispatch_of_not_handled (d : Reader) (x : Heard) (hm : ¬ handled m.1.type) :
    (dispatch d m.1 m.2).2.elim x x.listen = x.onMessage m.1.type (content m) := by
  simp only [handled, not_or] at hm
  obtain ⟨hvideo, haudio, hplugged, hunplugged, hcommand⟩ := hm
  rw [dispatch, if_neg hvideo, if_neg haudio, if_neg hplugged, if_neg hunplugged, if_neg hcommand]
  rfl

theorem kinds_snoc (ms : List Message) (m : Message) :
    kinds (ms ++ [m]) = kinds ms ++ ((line m).map Prod.fst).toList := by
  rw [kinds, List.filterMap_append, List.map_append, kinds]
  cases hline : line m <;> simp [hline]

/-- What `onMessage` does with a message of a kind: the first one gets its line. -/
theorem onMessage_spec (h : Remembers x ks) (hm : ¬ handled m.1.type) :
    (x.onMessage m.1.type (content m)).lines = x.lines ++ news ks m ∧
      Remembers (x.onMessage m.1.type (content m)) (ks ++ ((line m).map Prod.fst).toList) := by
  obtain ⟨hfirmware, hsettings, hnotHandled⟩ := h
  unfold Heard.onMessage news line
  rw [if_neg hm]
  by_cases hversion : m.1.type = softwareVersion
  · rw [if_pos hversion, if_pos hversion]
    cases asciiOf (content m) with
    | none => exact ⟨by simp, by constructor <;> simp [hfirmware, hsettings, hnotHandled]⟩
    | some v =>
        cases hlogged : x.dongleVersionLogged <;> rw [hlogged] at hfirmware <;>
          exact ⟨by simp_all, by constructor <;> simp_all⟩
  · rw [if_neg hversion, if_neg hversion]
    by_cases hbox : m.1.type = MessageType.boxSettings
    · rw [if_pos hbox, if_pos hbox]
      cases asciiOf (content m) with
      | none => exact ⟨by simp, by constructor <;> simp [hfirmware, hsettings, hnotHandled]⟩
      | some v =>
          cases hlogged : x.boxSettingsLogged <;> rw [hlogged] at hsettings <;>
            exact ⟨by simp_all, by constructor <;> simp_all⟩
    · rw [if_neg hbox, if_neg hbox]
      have hseen := hnotHandled m.1.type
      by_cases hmem : m.1.type ∈ x.unhandledTypesSeen
      · have hk := hseen.1 hmem
        rw [if_pos hmem]
        exact ⟨by simp [hk], by constructor <;> simp_all⟩
      · have hk := mt hseen.2 hmem
        rw [if_neg hmem]
        refine ⟨by simp [hk], by simp [hfirmware], by simp [hsettings], fun type => ?_⟩
        simp [hnotHandled, or_comm]

theorem step_heard {s : Reader × Heard} (h : Remembers s.2 ks) (m : Message) :
    (step s m).2.lines = s.2.lines ++ news ks m ∧
      Remembers (step s m).2 (ks ++ ((line m).map Prod.fst).toList) := by
  by_cases hm : handled m.1.type
  · obtain ⟨b, hb⟩ := dispatch_of_handled s.1 s.2 hm
    have hline : line m = none := if_pos hm
    rw [step, hb, news, hline]
    simpa using ⟨h.firmware, h.settings, h.notHandled⟩
  · rw [step, dispatch_of_not_handled s.1 s.2 hm]
    exact onMessage_spec h hm

theorem remembers_run (ms : List Message) : Remembers (run step start ms).2 (kinds ms) := by
  induction ms using List.reverseRecOn with
  | nil => exact remembers_new
  | append_singleton ms m ih =>
      rw [run_append, kinds_snoc]
      exact (step_heard ih m).2

/-- **A message has a line exactly when it is the first of its kind.** -/
theorem lines_run (ms : List Message) (m : Message) :
    (run step start (ms ++ [m])).2.lines = (run step start ms).2.lines ++ news (kinds ms) m := by
  rw [run_append]
  exact (step_heard (remembers_run ms) m).1

/-! ### The echo of the settings -/

theorem printable_append {s t : String} (hs : ∀ c ∈ s.toList, Printable c)
    (ht : ∀ c ∈ t.toList, Printable c) : ∀ c ∈ (s ++ t).toList, Printable c := by
  intro c hc
  rw [String.toList_append] at hc
  rcases List.mem_append.1 hc with hc | hc
  · exact hs c hc
  · exact ht c hc

theorem printable_repr (n : ℕ) : ∀ c ∈ n.repr.toList, Printable c := by
  intro c hc
  rw [Nat.toList_repr] at hc
  have hdigit := Nat.isDigit_of_mem_toDigits (by decide) (by decide) hc
  have hzero : '0'.toNat = 48 := rfl
  have hnine : '9'.toNat = 57 := rfl
  have hbounds := Char.isDigit_iff_toNat.1 hdigit
  exact ⟨by omega, by omega⟩

instance (c : Char) : Decidable (Printable c) := inferInstanceAs (Decidable (_ ∧ _))

/-- A text is checked along itself, and not along all characters. -/
theorem printable_of_all {s : String} (h : s.toList.all (decide <| Printable ·) = true) :
    ∀ c ∈ s.toList, Printable c :=
  fun c hc => of_decide_eq_true (List.all_eq_true.1 h c hc)

theorem printable_decimal (n : ℤ) : ∀ c ∈ (decimal n).toList, Printable c := by
  unfold decimal
  split_ifs
  · exact printable_append (printable_of_all (by decide)) (printable_repr _)
  · exact printable_repr _

theorem printable_boxSettings (c : Config) (now : BitVec 64) :
    ∀ ch ∈ (boxSettingsJson c now).toList, Printable ch := by
  unfold boxSettingsJson
  refine printable_append (printable_append (printable_append (printable_append (printable_append
    (printable_append (printable_append (printable_append ?_ (printable_decimal _)) ?_)
      (printable_decimal _)) ?_) (printable_decimal _)) ?_) (printable_decimal _)) ?_
  all_goals exact printable_of_all (by decide)

theorem head_append {s t : String} {ch : Char} (h : s.toList.head? = some ch) :
    (s ++ t).toList.head? = some ch := by
  rw [String.toList_append, List.head?_append, h, Option.some_or]

theorem last_append {s t : String} {ch : Char} (h : t.toList = [ch]) :
    (s ++ t).toList.getLast? = some ch := by
  rw [String.toList_append, h, List.getLast?_concat]

/-- The text of the settings is in braces. -/
theorem boxSettings_braces (c : Config) (now : BitVec 64) :
    (boxSettingsJson c now).toList.head? = some (.ofNat 0x7B) ∧
      (boxSettingsJson c now).toList.getLast? = some (.ofNat 0x7D) := by
  unfold boxSettingsJson
  constructor
  · refine head_append (head_append (head_append (head_append (head_append (head_append
      (head_append (head_append ?_)))))))
    decide
  · refine last_append ?_
    decide

theorem asciiOf_boxSettings (c : Config) (now : BitVec 64) (n : ℕ) :
    asciiOf (some ((sendBoxSettings c now).payload ++ List.replicate n 0)) =
      some (boxSettingsJson c now) := by
  rw [sendBoxSettings_payload]
  obtain ⟨hopen, hclose⟩ := boxSettings_braces c now
  refine asciiOf_pad (printable_boxSettings c now) ?_ ?_ ?_ n
  · intro hempty
    rw [hempty] at hopen
    cases hopen
  · rw [hopen]
    rintro _ ⟨⟩
    decide
  · rw [hclose]
    rintro _ ⟨⟩
    decide

/-- **The settings that the dongle sends back are in the log as they were sent**, whatever the
padding and whatever else is in the buffer, if they are the first. -/
theorem echo_logged (c : Config) (now : BitVec 64) (ms : List Message) (h : MessageHeader) (n : ℕ)
    (rest : List Byte) (htype : h.type = MessageType.boxSettings)
    (hlength : h.length = (sendBoxSettings c now).payload.length + n)
    (hfirst : .settings ∉ kinds ms) :
    (run step start (ms ++
        [(h, some ((sendBoxSettings c now).payload ++ List.replicate n 0 ++ rest))])).2.lines =
      (run step start ms).2.lines ++ [.settings (boxSettingsJson c now)] := by
  rw [run_append]
  have hcontent : content (h, some ((sendBoxSettings c now).payload ++ List.replicate n 0 ++
      rest)) = some ((sendBoxSettings c now).payload ++ List.replicate n 0) := by
    rw [content, Option.map_some, List.take_left' (by simp [hlength])]
  have hline : line (h, some ((sendBoxSettings c now).payload ++ List.replicate n 0 ++ rest)) =
      some (.settings, .settings (boxSettingsJson c now)) := by
    rw [line, hcontent, asciiOf_boxSettings, if_neg, if_neg, if_pos htype, Option.map_some]
    · simp only [htype]
      decide
    · simp only [htype]
      decide
  refine (step_heard (remembers_run ms) _).1.trans ?_
  rw [news, hline, Option.elim_some, if_neg hfirst]

/-- An empty BOX_SETTINGS, and a type that nothing handles, twice. -/
def before : List Message :=
  [(⟨MessageType.boxSettings, 2, by decide⟩, some [0, 0]),
    (⟨0x12, 0, by decide⟩, none), (⟨0x12, 1, by decide⟩, some [1])]

theorem echo_logged_padded :
    (run step start (before ++ [(⟨MessageType.boxSettings, 80, by decide⟩,
        some ((sendBoxSettings {} 0).payload ++ List.replicate 2 0 ++ [1, 2, 3]))])).2.lines =
      [.notHandled 0x12 0, .settings (boxSettingsJson {} 0)] := by
  have hlength : (sendBoxSettings {} 0).payload.length = 78 := by
    rw [sendBoxSettings_payload, asciiBytes_length]
    decide +kernel
  have hbefore : (run step start before).2.lines = [.notHandled 0x12 0] := by decide +kernel
  rw [echo_logged {} 0 before _ 2 [1, 2, 3] rfl (congrArg (· + 2) hlength.symm)
    (by decide +kernel), hbefore]
  rfl

end DongleMessages
end App
end Carlinkit
