/-
# The log file

`CarlinkitFileLog`: the singleton `instance`, its writer, and the buffer of lines
that were logged while there was no instance.  `init` makes an instance only when
there is none, `close` takes the writer from the instance but leaves the instance,
and `reevaluateTarget` replaces an instance that is not on a flash drive if it
finds one.

What the file system answers is part of the event (`Target`): the directory that
`chooseTarget` picked with its kind and its notes, and whether the file could be
opened.  `disk` is everything written by this process, in order, each line with
the path of its file.  `phase` records whether `init` or `close` came last.

`keeps_iff` says when a line is not lost: an instance without a writer swallows
what it is given, and nothing but a flash drive that turns up later gets rid of it.
-/

import Mathlib.Data.List.TakeDrop
import Carlinkit.Machine.Run

namespace Carlinkit
namespace App
namespace FileLog

open Machine

/-- `MAX_SIZE_BYTES`. -/
def maxSizeBytes : ℕ := 512 * 1024

/-- `MAX_PENDING_LINES`. -/
def maxPendingLines : ℕ := 100

/-- The `targetKind` of a flash drive. -/
def usbFlashDrive : String := "USB flash drive"

/-- What the constructor finds: the result of `chooseTarget`, what was pruned and
rescued in it, the clock, and whether the new file can be opened. -/
structure Target where
  kind : String
  dir : Option String
  diag : List String
  pruned : ℕ
  rescued : ℕ
  rescuedBytes : ℕ
  device : String
  /-- The clock as `yyyyMMdd-HHmmss`. -/
  date : String
  /-- The clock as `HH:mm:ss.SSS`. -/
  now : String
  opens : Bool
deriving DecidableEq, Repr

/-- A `Throwable`. -/
structure Thrown where
  name : String
  message : String
  stackTrace : List String
deriving DecidableEq, Repr

/-- A line of a file: the path and the text. -/
structure Line where
  path : String
  text : String
deriving DecidableEq, Repr

/-- A `CarlinkitFileLog`; the writer is the path that it writes to. -/
structure Instance where
  targetKind : String
  file : Option String
  writer : Option String
deriving DecidableEq, Repr

/-- Which of `init` and `close` came last. -/
inductive Phase
  | fresh
  | opened
  | closed
deriving DecidableEq, Repr

/-- The class and the disk. -/
structure State where
  instance_ : Option Instance
  pendingLines : List String
  droppedPendingLines : ℕ
  disk : List Line
  phase : Phase
deriving DecidableEq, Repr

/-- A call of the class. -/
inductive Event
  | init (target : Target)
  | log (now tag message : String) (thrown : Option Thrown)
  | reevaluateTarget (target : Target)
  | close (now : String)
deriving DecidableEq, Repr

/-- The class when the process starts. -/
def start (disk : List Line) : State := ⟨none, [], 0, disk, .fresh⟩

/-- `File.length`: every line takes its bytes and the end of the line. -/
def fileLength (disk : List Line) (path : String) : ℕ :=
  ((disk.filter (·.path == path)).map fun l => l.text.utf8ByteSize + 1).sum

/-- `writeLine` puts the time before the line. -/
def stamp (now line : String) : String := now ++ " " ++ line

/-- `writeStamped`. -/
def writeStamped (i : Instance) (disk : List Line) (line : String) : Instance × List Line :=
  match i.writer with
  | none => (i, disk)
  | some path =>
      if maxSizeBytes < fileLength (disk ++ [⟨path, line⟩]) path then
        ({ i with writer := none },
          disk ++ [⟨path, line⟩, ⟨path, "=== size limit reached (" ++
            toString (maxSizeBytes / 1024) ++ " KB) ==="⟩])
      else (i, disk ++ [⟨path, line⟩])

/-- Several lines one after another. -/
def writeAll (i : Instance) (disk : List Line) : List String → Instance × List Line
  | [] => (i, disk)
  | line :: lines => writeAll (writeStamped i disk line).1 (writeStamped i disk line).2 lines

/-- The constructor's own lines. -/
def banner (t : Target) (file : Option String) : List String :=
  ["=== log started ===", "device: " ++ t.device,
      "log written to: " ++ file.getD "NONE" ++ " (" ++ t.kind ++ ")"] ++
    (if 0 < t.pruned then ["pruned " ++ toString t.pruned ++ " old log file(s)"] else []) ++
    (if 0 < t.rescued then
      ["rescued " ++ toString t.rescued ++ " log file(s), " ++ toString t.rescuedBytes ++
        " B, from storage this head unit does not expose"] else []) ++
    (if t.kind = usbFlashDrive then []
      else ["--- storage diagnostics (unexpected target) ---"] ++ t.diag.map ("  " ++ ·) ++
        ["--- end of diagnostics ---"])

/-- `flushPending`: the buffered lines, which carry their time already. -/
def flushPending (now : String) (pendingLines : List String) (dropped : ℕ) : List String :=
  if pendingLines = [] ∧ dropped = 0 then []
  else
    [stamp now ("--- " ++ toString pendingLines.length ++
        " line(s) logged before the log file existed ---")] ++
      pendingLines ++
      (if 0 < dropped then
        [stamp now ("--- " ++ toString dropped ++ " earlier line(s) dropped: buffer holds " ++
          toString maxPendingLines ++ " ---")] else []) ++
      [stamp now "--- end of the pre-init lines ---"]

/-- The path of the file that the constructor makes. -/
def Target.file (t : Target) : Option String :=
  t.dir.map fun dir => dir ++ "/carlinkit-" ++ t.date ++ ".log"

/-- The instance before its first line. -/
def Target.instance_ (t : Target) : Instance :=
  ⟨t.kind, t.file, if t.opens then t.file else none⟩

/-- `new CarlinkitFileLog(ctx)`. -/
def construct (s : State) (t : Target) : Instance × List Line :=
  writeAll t.instance_ s.disk
    ((banner t t.file).map (stamp t.now) ++
      flushPending t.now s.pendingLines s.droppedPendingLines)

/-- `init`. -/
def initStep (s : State) (t : Target) : State :=
  match s.instance_ with
  | some _ => { s with phase := .opened }
  | none => ⟨some (construct s t).1, [], 0, (construct s t).2, .opened⟩

/-- The first lines of a call of `log`, the ones that the buffer keeps too. -/
def shortLines (tag message : String) (thrown : Option Thrown) : List String :=
  (tag ++ ": " ++ message) ::
    match thrown with
    | none => []
    | some t => ["  " ++ t.name ++ ": " ++ t.message]

/-- The lines that a call of `log` writes to a file. -/
def fullLines (tag message : String) (thrown : Option Thrown) : List String :=
  shortLines tag message thrown ++
    match thrown with
    | none => []
    | some t => (t.stackTrace.take 8).map ("    at " ++ ·)

/-- `buffer`. -/
def buffer (now : String) (s : State) (line : String) : State :=
  if maxPendingLines ≤ s.pendingLines.length then
    { s with droppedPendingLines := s.droppedPendingLines + 1 }
  else { s with pendingLines := s.pendingLines ++ [stamp now line] }

/-- `log`. -/
def logStep (s : State) (now tag message : String) (thrown : Option Thrown) : State :=
  match s.instance_ with
  | some i =>
      let r := writeAll i s.disk ((fullLines tag message thrown).map (stamp now))
      { s with instance_ := some r.1, disk := r.2 }
  | none => (shortLines tag message thrown).foldl (buffer now) s

/-- `reevaluateTarget`. -/
def reevaluateStep (s : State) (t : Target) : State :=
  match s.instance_ with
  | none => initStep s t
  | some i =>
      if i.targetKind = usbFlashDrive then s
      else
        let old := writeStamped i s.disk (stamp t.now "re-evaluating the log target...")
        let fresh := construct { s with disk := old.2 } t
        if fresh.1.targetKind = usbFlashDrive then
          let moved := writeStamped old.1 fresh.2
            (stamp t.now ("log moved to " ++ fresh.1.file.getD "null"))
          let cont := writeStamped fresh.1 moved.2
            (stamp t.now ("(continuation; previous log at " ++ i.file.getD "none" ++ ")"))
          ⟨some cont.1, [], 0, cont.2, s.phase⟩
        else
          let kept := writeStamped old.1 fresh.2 (stamp t.now "no better target found")
          ⟨some kept.1, [], 0, kept.2, s.phase⟩

/-- `close`. -/
def closeStep (s : State) (now : String) : State :=
  match s.instance_ with
  | none => { s with phase := .closed }
  | some i =>
      let r := writeStamped i s.disk (stamp now "=== log closed ===")
      { s with instance_ := some { r.1 with writer := none }, disk := r.2, phase := .closed }

/-- One call. -/
def step (s : State) : Event → State
  | .init t => initStep s t
  | .log now tag message thrown => logStep s now tag message thrown
  | .reevaluateTarget t => reevaluateStep s t
  | .close now => closeStep s now

/-- No file has outgrown the cap. -/
def Fits (disk : List Line) : Prop := ∀ l ∈ disk, fileLength disk l.path ≤ maxSizeBytes

instance (disk : List Line) : Decidable (Fits disk) := List.decidableBAll _ disk

/-- The directory is there and the file opens. -/
def Target.Usable (t : Target) : Prop := t.dir ≠ none ∧ t.opens = true

instance (t : Target) : Decidable t.Usable := inferInstanceAs (Decidable (_ ∧ _))

/-- Storage is writable at this call, and below the size cap after it. -/
def Fine (s : State) (e : Event) : Prop :=
  (match e with
    | .init t => t.Usable
    | .reevaluateTarget t => t.Usable
    | _ => True) ∧
    Fits (step s e).disk

instance (s : State) : ∀ e, Decidable (Fine s e)
  | .init t => inferInstanceAs (Decidable (t.Usable ∧ Fits _))
  | .reevaluateTarget t => inferInstanceAs (Decidable (t.Usable ∧ Fits _))
  | .log .. => inferInstanceAs (Decidable (True ∧ Fits _))
  | .close _ => inferInstanceAs (Decidable (True ∧ Fits _))

/-- The path of the current log. -/
def State.file (s : State) : Option String := s.instance_.bind (·.file)

/-- The lines went to the current log file, one after another. -/
def Written (s s' : State) (lines : List String) : Prop :=
  ∃ file ∈ s'.file, s'.disk = s.disk ++ lines.map (Line.mk file)

instance (s s' : State) (lines : List String) : Decidable (Written s s' lines) :=
  inferInstanceAs (Decidable (∃ file ∈ s'.file, _))

/-- Every line that was in the buffer still is, or is in the current log file. -/
def Survives (s s' : State) : Prop :=
  ∀ line ∈ s.pendingLines, line ∈ s'.pendingLines ∨ ∃ file ∈ s'.file, ⟨file, line⟩ ∈ s'.disk

/-- What is promised of a call: nothing leaves the buffer but to the log file; a
line logged while the log is open is in the file; one logged after a `close` is in
the file or in the buffer. -/
def Keeps (s : State) (e : Event) : Prop :=
  Survives s (step s e) ∧
    match e with
    | .log now tag message thrown =>
        (s.phase = .opened →
          Written s (step s e) ((fullLines tag message thrown).map (stamp now))) ∧
        (s.phase = .closed →
          Written s (step s e) ((fullLines tag message thrown).map (stamp now)) ∨
          (step s e).pendingLines =
            s.pendingLines ++ (shortLines tag message thrown).map (stamp now))
    | _ => True

/-- When `log` comes after an `init` or a `close`, the instance has its writer, or
there is no instance and the buffer has room for the line. -/
def Writable (s : State) : Event → Prop
  | .log _ tag message thrown => s.phase ≠ .fresh →
      (∃ i ∈ s.instance_, i.writer ≠ none) ∨
      (s.instance_ = none ∧
        s.pendingLines.length + (shortLines tag message thrown).length ≤ maxPendingLines)
  | _ => True

instance (s : State) : ∀ e, Decidable (Writable s e)
  | .log _ tag message thrown => inferInstanceAs (Decidable (s.phase ≠ .fresh →
      (∃ i ∈ s.instance_, i.writer ≠ none) ∨ (s.instance_ = none ∧
        s.pendingLines.length + (shortLines tag message thrown).length ≤ maxPendingLines)))
  | .init _ => .isTrue trivial
  | .reevaluateTarget _ => .isTrue trivial
  | .close _ => .isTrue trivial

theorem fileLength_append (disk more : List Line) (path : String) :
    fileLength (disk ++ more) path = fileLength disk path + fileLength more path := by
  simp [fileLength]

/-- The cap holds of every path, written to or not. -/
theorem Fits.le {disk : List Line} (h : Fits disk) (path : String) :
    fileLength disk path ≤ maxSizeBytes := by
  by_cases hp : ∃ l ∈ disk, l.path = path
  · obtain ⟨l, hl, rfl⟩ := hp
    exact h l hl
  · have hnil : disk.filter (·.path == path) = [] := by
      rw [List.filter_eq_nil_iff]
      intro l hl hlp
      exact hp ⟨l, hl, by simpa using hlp⟩
    simp [fileLength, hnil]

/-- What fits now fitted before. -/
theorem Fits.of_prefix {disk more : List Line} (h : Fits more) (hd : disk <+: more) :
    Fits disk := by
  obtain ⟨ls, rfl⟩ := hd
  intro l _
  have hle := h.le l.path
  rw [fileLength_append] at hle
  omega

/-! ## Writing -/

theorem writeStamped_none {i : Instance} (h : i.writer = none) (disk : List Line)
    (line : String) : writeStamped i disk line = (i, disk) := by
  simp [writeStamped, h]

/-- A line that leaves its file below the cap is just appended. -/
theorem writeStamped_of_fits {i : Instance} {path : String} (h : i.writer = some path)
    {disk : List Line} {line : String} (hfits : Fits (writeStamped i disk line).2) :
    writeStamped i disk line = (i, disk ++ [⟨path, line⟩]) := by
  simp only [writeStamped, h] at hfits ⊢
  split_ifs at hfits ⊢ with hbig
  · -- the second line would only make the file longer
    have hle := hfits.le path
    rw [fileLength_append] at hbig
    simp only [fileLength_append] at hle
    have hcons : fileLength [⟨path, line⟩] path ≤ fileLength
        [⟨path, line⟩, ⟨path, "=== size limit reached (" ++
          toString (maxSizeBytes / 1024) ++ " KB) ==="⟩] path := by
      simp [fileLength]
    omega
  · rfl

/-- The disk only grows. -/
theorem prefix_writeStamped (i : Instance) (disk : List Line) (line : String) :
    disk <+: (writeStamped i disk line).2 := by
  unfold writeStamped
  split
  · exact List.prefix_refl _
  · split_ifs <;> exact List.prefix_append ..

theorem prefix_writeAll (i : Instance) (disk : List Line) (lines : List String) :
    disk <+: (writeAll i disk lines).2 := by
  induction lines generalizing i disk with
  | nil => exact List.prefix_refl _
  | cons line lines ih => exact (prefix_writeStamped i disk line).trans (ih _ _)

theorem writeAll_none {i : Instance} (h : i.writer = none) (disk : List Line)
    (lines : List String) : writeAll i disk lines = (i, disk) := by
  induction lines with
  | nil => rfl
  | cons line lines ih => rw [writeAll, writeStamped_none h, ih]

/-- **Below the cap every line goes to the file.** -/
theorem writeAll_of_fits {i : Instance} {path : String} (h : i.writer = some path)
    {disk : List Line} {lines : List String} (hfits : Fits (writeAll i disk lines).2) :
    writeAll i disk lines = (i, disk ++ lines.map (Line.mk path)) := by
  induction lines generalizing disk with
  | nil => simp [writeAll]
  | cons line lines ih =>
      rw [writeAll] at hfits ⊢
      have hline := writeStamped_of_fits h (hfits.of_prefix (prefix_writeAll _ _ _))
      rw [hline] at hfits ⊢
      rw [ih hfits]
      simp

/-- A writer writes to the file of its instance. -/
def Instance.Sound (i : Instance) : Prop := ∀ path, i.writer = some path → i.file = some path

theorem Instance.Sound.writeStamped {i : Instance} (h : i.Sound) (disk : List Line)
    (line : String) : (FileLog.writeStamped i disk line).1.Sound := by
  unfold FileLog.writeStamped
  split
  · exact h
  · split_ifs
    · intro path hpath
      simp at hpath
    · exact h

theorem Instance.Sound.writeAll {i : Instance} (h : i.Sound) (disk : List Line)
    (lines : List String) : (FileLog.writeAll i disk lines).1.Sound := by
  induction lines generalizing i disk with
  | nil => exact h
  | cons line lines ih => exact ih (h.writeStamped disk line) _

theorem Target.sound_instance_ (t : Target) : t.instance_.Sound := by
  intro path hpath
  unfold Target.instance_ at hpath ⊢
  split_ifs at hpath
  exact hpath

theorem sound_construct (s : State) (t : Target) : (construct s t).1.Sound :=
  t.sound_instance_.writeAll _ _

/-- With a directory and an open file the constructor has a writer. -/
theorem Target.Usable.writer {t : Target} (h : t.Usable) :
    ∃ path, t.instance_.writer = some path := by
  obtain ⟨hdir, hopens⟩ := h
  apply Option.ne_none_iff_exists'.1
  simpa [Target.instance_, Target.file, hopens] using hdir

/-! ## The buffer -/

/-- The buffer takes the lines that still have room. -/
theorem pendingLines_buffer (now : String) (s : State) (lines : List String) :
    (lines.foldl (buffer now) s).pendingLines = s.pendingLines ++
      (lines.map (stamp now)).take (maxPendingLines - s.pendingLines.length) := by
  induction lines generalizing s with
  | nil => simp
  | cons line lines ih =>
      rw [List.foldl_cons, ih, List.map_cons]
      unfold buffer
      split_ifs with hfull
      · simp [Nat.sub_eq_zero_of_le hfull]
      · have hroom : maxPendingLines - s.pendingLines.length =
            maxPendingLines - (s.pendingLines.length + 1) + 1 := by omega
        simp [hroom]

/-- Buffering changes the buffer and its counter. -/
theorem buffer_frame (now : String) (s : State) (lines : List String) :
    (lines.foldl (buffer now) s).instance_ = s.instance_ ∧
      (lines.foldl (buffer now) s).disk = s.disk ∧
      (lines.foldl (buffer now) s).phase = s.phase := by
  induction lines generalizing s with
  | nil => simp
  | cons line lines ih =>
      obtain ⟨hi, hd, hp⟩ := ih (buffer now s line)
      rw [List.foldl_cons, hi, hd, hp]
      unfold buffer
      split_ifs <;> simp

/-! ## What every call keeps -/

/-- Writers write to the file of their instance, nothing is pending beside an
instance, and after `init` there is an instance. -/
structure State.Sane (s : State) : Prop where
  sound : ∀ i ∈ s.instance_, i.Sound
  pendingLines_eq_nil : ∀ i ∈ s.instance_, s.pendingLines = []
  instance_ne_none : s.phase = .opened → s.instance_ ≠ none

theorem sane_start (disk : List Line) : (start disk).Sane where
  sound := by simp [start]
  pendingLines_eq_nil := by simp [start]
  instance_ne_none := by simp [start]

theorem State.Sane.initStep {s : State} (h : s.Sane) (t : Target) : (initStep s t).Sane := by
  unfold FileLog.initStep
  split
  case h_1 i hi => exact ⟨h.sound, h.pendingLines_eq_nil, fun _ => by simp [hi]⟩
  case h_2 => exact ⟨by simpa using sound_construct s t, by simp, by simp⟩

theorem State.Sane.reevaluateStep {s : State} (h : s.Sane) (t : Target) :
    (reevaluateStep s t).Sane := by
  unfold FileLog.reevaluateStep
  split
  case h_1 => exact h.initStep t
  case h_2 i hi =>
      have hold : (FileLog.writeStamped i s.disk
          (stamp t.now "re-evaluating the log target...")).1.Sound :=
        (h.sound i hi).writeStamped _ _
      dsimp only
      split_ifs
      · exact h
      · exact ⟨by simpa using (sound_construct _ t).writeStamped _ _, by simp, by simp⟩
      · exact ⟨by simpa using hold.writeStamped _ _, by simp, by simp⟩

/-- Every call keeps the class sane. -/
theorem State.Sane.step {s : State} (h : s.Sane) (e : Event) : (step s e).Sane := by
  cases e with
  | init t => exact h.initStep t
  | reevaluateTarget t => exact h.reevaluateStep t
  | log now tag message thrown =>
      simp only [FileLog.step, logStep]
      split
      case h_1 i hi =>
        refine ⟨?_, ?_, ?_⟩
        · simpa using (h.sound i hi).writeAll _ _
        · simpa using h.pendingLines_eq_nil i hi
        · simp
      case h_2 hnone =>
        obtain ⟨hi, -, hphase⟩ := buffer_frame now s (shortLines tag message thrown)
        refine ⟨?_, ?_, ?_⟩
        · simp [hi, hnone]
        · simp [hi, hnone]
        · rw [hi, hphase]
          exact h.instance_ne_none
  | close now =>
      simp only [FileLog.step, closeStep]
      split
      case h_1 hnone => exact ⟨h.sound, h.pendingLines_eq_nil, by simp⟩
      case h_2 i hi =>
        refine ⟨?_, ?_, ?_⟩
        · simp [Instance.Sound]
        · simpa using h.pendingLines_eq_nil i hi
        · simp

/-! ## What is lost -/

/-- The first instance takes over the whole buffer. -/
theorem survives_initStep {s : State} {t : Target} (ht : t.Usable)
    (hfits : Fits (initStep s t).disk) : Survives s (initStep s t) := by
  unfold initStep at hfits ⊢
  split at hfits
  case h_1 => exact fun line hline => .inl hline
  case h_2 =>
    obtain ⟨path, hwriter⟩ := ht.writer
    have hfile := t.sound_instance_ path hwriter
    have hall : construct s t = _ := writeAll_of_fits hwriter hfits
    intro line hline
    refine .inr ⟨path, ?_, ?_⟩
    · simp [State.file, hall, hfile]
    · have hne : s.pendingLines ≠ [] := List.ne_nil_of_mem hline
      simp [hall, flushPending, hne, hline]

/-- Beside an instance nothing waits in the buffer. -/
theorem survives_of_instance {s s' : State} (h : s.Sane) {i : Instance}
    (hi : s.instance_ = some i) : Survives s s' := by
  intro line hline
  rw [h.pendingLines_eq_nil i hi] at hline
  cases hline

theorem survives_step {s : State} {e : Event} (h : s.Sane) (hfine : Fine s e) :
    Survives s (step s e) := by
  rcases hi : s.instance_ with _ | i
  · cases e with
    | init t => exact survives_initStep hfine.1 hfine.2
    | reevaluateTarget t =>
        have hstep : step s (.reevaluateTarget t) = initStep s t := by
          simp [step, reevaluateStep, hi]
        rw [hstep]
        exact survives_initStep hfine.1 (hstep ▸ hfine.2)
    | log now tag message thrown =>
        intro line hline
        left
        simp [step, logStep, hi, pendingLines_buffer, hline]
    | close now =>
        intro line hline
        left
        simpa [step, closeStep, hi] using hline
  · exact survives_of_instance h hi

/-- With an instance a line is in the file exactly when there is a writer. -/
theorem written_log_iff {s : State} (h : s.Sane) {i : Instance} (hi : s.instance_ = some i)
    {now tag message : String} {thrown : Option Thrown}
    (hfits : Fits (logStep s now tag message thrown).disk) :
    Written s (logStep s now tag message thrown)
        ((fullLines tag message thrown).map (stamp now)) ↔ i.writer ≠ none := by
  simp only [logStep, hi] at hfits ⊢
  constructor
  · rintro ⟨file, -, hdisk⟩ hnone
    rw [writeAll_none hnone] at hdisk
    simp [fullLines, shortLines] at hdisk
  · intro hwriter
    obtain ⟨path, hpath⟩ := Option.ne_none_iff_exists'.1 hwriter
    have hall := writeAll_of_fits hpath hfits
    refine ⟨path, ?_, ?_⟩
    · simpa [State.file, hall] using h.sound i hi path hpath
    · simp [hall]

/-- Without an instance a line is in the buffer exactly when there was room. -/
theorem buffered_log_iff {s : State} (hi : s.instance_ = none) {now tag message : String}
    {thrown : Option Thrown} :
    (logStep s now tag message thrown).pendingLines =
        s.pendingLines ++ (shortLines tag message thrown).map (stamp now) ↔
      s.pendingLines.length + (shortLines tag message thrown).length ≤ maxPendingLines := by
  have hpos : 0 < (shortLines tag message thrown).length := by simp [shortLines]
  simp only [logStep, hi, pendingLines_buffer, List.append_cancel_left_eq,
    List.take_eq_self_iff, List.length_map]
  omega

theorem keeps_step_iff {s : State} {e : Event} (h : s.Sane) (hfine : Fine s e) :
    Keeps s e ↔ Writable s e := by
  unfold Keeps
  rw [and_iff_right (survives_step h hfine)]
  cases e with
  | log now tag message thrown =>
      simp only [step, Writable]
      rcases hi : s.instance_ with _ | i
      · have hlost : ¬ Written s (logStep s now tag message thrown)
            ((fullLines tag message thrown).map (stamp now)) := by
          rintro ⟨file, hfile, -⟩
          simp [State.file, logStep, hi, (buffer_frame now s _).1] at hfile
        have hopened : s.phase ≠ .opened := fun hphase => h.instance_ne_none hphase hi
        cases hphase : s.phase with
        | fresh => simp
        | opened => exact absurd hphase hopened
        | closed => simp [hlost, buffered_log_iff hi]
      · have hsame : (logStep s now tag message thrown).pendingLines ≠
            s.pendingLines ++ (shortLines tag message thrown).map (stamp now) := by
          simp [logStep, hi, shortLines]
        have hwritten := written_log_iff h hi hfine.2
        cases hphase : s.phase with
        | fresh => simp
        | opened => simp [hwritten]
        | closed => simp [hwritten, hsame]
  | _ => simp [Writable]

/-- A flash drive. -/
def flashDrive : Target where
  kind := usbFlashDrive
  dir := some "/mnt/usb/carlinkit"
  diag := []
  pruned := 0
  rescued := 0
  rescuedBytes := 0
  device := "Honda"
  date := "20260101-120000"
  now := "12:00:00.000"
  opens := true

/-- The storage of the head unit, before there is a flash drive. -/
def innerStorage : Target :=
  { flashDrive with
    kind := "INTERNAL storage (hard to extract)"
    dir := some "/data/data/it.smg.hu/files/carlinkit"
    diag := ["no usb"] }

end FileLog
end App
end Carlinkit
