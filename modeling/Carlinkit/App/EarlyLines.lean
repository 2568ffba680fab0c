/-
# What is logged before the log is open

"Without this buffer they are handed to a log file that does not exist yet and are lost
without a trace": the lines of the first `log` calls wait in `pendingLines` for the first
instance, and `flushPending` writes them with the times that they carry.  But the constructor
calls `flushPending` also where it found no place to write, and then the buffer is cleared
all the same.  The next instance, which may have a file, finds nothing.

Here are `log` calls followed by `init` and `reevaluateTarget` calls.  `delivers_iff` says
when the first file that is opened has the lines: when it is opened by the first of those
calls, and the lines fit below `MAX_SIZE_BYTES`.
-/

import Carlinkit.App.LogCap

namespace Carlinkit
namespace App
namespace FileLog

open Machine

/-! ## The texts -/

/-- The line before the buffered ones. -/
def headerLine (now : String) (count : ℕ) : String :=
  stamp now ("--- " ++ toString count ++ " line(s) logged before the log file existed ---")

/-- The line that reports what the buffer had no room for. -/
def droppedLine (now : String) (count : ℕ) : String :=
  stamp now ("--- " ++ toString count ++ " earlier line(s) dropped: buffer holds " ++
    toString maxPendingLines ++ " ---")

/-- The line after the buffered ones. -/
def endLine (now : String) : String := stamp now "--- end of the pre-init lines ---"

/-- What the first file has to have of the lines that were logged: with the lines of the
constructor before them, as many as the buffer holds, and how many it does not. -/
def reported (t : Target) (lines : List String) : List String :=
  if lines = [] then []
  else
    (banner t t.file).map (stamp t.now) ++
      headerLine t.now (lines.take maxPendingLines).length :: lines.take maxPendingLines ++
      (if 0 < lines.length - maxPendingLines then
        [droppedLine t.now (lines.length - maxPendingLines)] else [])

theorem flushPending_reported (t : Target) {lines : List String} (h : lines ≠ []) :
    (banner t t.file).map (stamp t.now) ++ flushPending t.now (lines.take maxPendingLines)
      (lines.length - maxPendingLines) = reported t lines ++ [endLine t.now] := by
  have htake : lines.take maxPendingLines ≠ [] := by
    simpa [maxPendingLines] using h
  simp [flushPending, reported, h, htake, headerLine, droppedLine, endLine]

/-- Pieces of text that the limit line does not have. -/
def marks : List (List Char) :=
  [[':'], [' ', ' '], ['(', 's', ')'], ['r', 't', 'e', 'd'], ['-', '-', '-']]

theorem not_isInfix_limitLine : ∀ w ∈ marks, ¬ w <:+: limitLine.toList := by
  decide +kernel

/-- A text with one of the pieces. -/
def Marked (x : String) : Prop := ∃ w ∈ marks, w <:+: x.toList

theorem Marked.ne_limitLine {x : String} (h : Marked x) : x ≠ limitLine := by
  obtain ⟨w, hw, hx⟩ := h
  rintro rfl
  exact not_isInfix_limitLine w hw hx

theorem Marked.append_right {x : String} (h : Marked x) (y : String) : Marked (x ++ y) := by
  obtain ⟨w, hw, hx⟩ := h
  refine ⟨w, hw, ?_⟩
  rw [String.toList_append]
  exact hx.trans (List.prefix_append ..).isInfix

theorem Marked.append_left {x : String} (h : Marked x) (y : String) : Marked (y ++ x) := by
  obtain ⟨w, hw, hx⟩ := h
  refine ⟨w, hw, ?_⟩
  rw [String.toList_append]
  exact hx.trans (List.suffix_append ..).isInfix

theorem Marked.stamp {x : String} (h : Marked x) (now : String) : Marked (stamp now x) :=
  h.append_left _

theorem marked_colon : Marked ": " := ⟨[':'], by decide, [], [' '], rfl⟩

theorem marked_dashes : Marked "--- " := ⟨['-', '-', '-'], by decide, [], [' '], rfl⟩

/-- The lines of the constructor. -/
theorem marked_banner {t : Target} {file : Option String} {m : String} (h : m ∈ banner t file) :
    Marked m := by
  have hstarted : Marked "=== log started ===" :=
    ⟨['r', 't', 'e', 'd'], by decide, "=== log sta".toList, " ===".toList, rfl⟩
  have hdevice : Marked "device: " := ⟨[':'], by decide, "device".toList, " ".toList, rfl⟩
  have hwritten : Marked "log written to: " :=
    ⟨[':'], by decide, "log written to".toList, " ".toList, rfl⟩
  have hpruned : Marked " old log file(s)" :=
    ⟨['(', 's', ')'], by decide, " old log file".toList, [], rfl⟩
  have hrescued : Marked " log file(s), " :=
    ⟨['(', 's', ')'], by decide, " log file".toList, ", ".toList, rfl⟩
  have hdiag : Marked "  " := ⟨[' ', ' '], by decide, [], [], rfl⟩
  simp only [banner, List.mem_append, List.mem_cons, List.not_mem_nil, or_false,
    List.mem_ite_nil_right, List.mem_ite_nil_left, List.mem_map] at h
  rcases h with (((rfl | rfl | rfl) | ⟨-, rfl⟩) | ⟨-, rfl⟩) | ⟨-, (rfl | ⟨d, -, rfl⟩) | rfl⟩
  · exact hstarted
  · exact hdevice.append_right t.device
  · exact ((((hwritten.append_right _).append_right _).append_right _).append_right _)
  · exact hpruned.append_left _
  · exact ((hrescued.append_left _).append_right _).append_right _
  · exact marked_dashes.append_right "storage diagnostics (unexpected target) ---"
  · exact hdiag.append_right d
  · exact marked_dashes.append_right "end of diagnostics ---"

/-- The lines that are logged. -/
theorem marked_shortLines {tag message : String} {thrown : Option Thrown} {line : String}
    (h : line ∈ shortLines tag message thrown) : Marked line := by
  rcases List.mem_cons.1 h with rfl | h
  · exact (marked_colon.append_left tag).append_right message
  · cases thrown with
    | none => cases h
    | some t =>
        rw [List.mem_singleton.1 h]
        exact (marked_colon.append_left _).append_right t.message

/-- What the first file has to have. -/
theorem marked_reported {t : Target} {lines : List String} (hlines : ∀ x ∈ lines, Marked x)
    {x : String} (h : x ∈ reported t lines) : Marked x := by
  unfold reported at h
  split_ifs at h with hnil hdropped
  · cases h
  all_goals
    simp only [List.cons_append, List.append_assoc, List.mem_append, List.mem_map, List.mem_cons,
      List.not_mem_nil, or_false] at h
  · rcases h with ⟨m, hm, rfl⟩ | rfl | hx | rfl
    · exact (marked_banner hm).stamp t.now
    · exact ((marked_dashes.append_right _).append_right _).stamp t.now
    · exact hlines x (List.mem_of_mem_take hx)
    · exact ((((marked_dashes.append_right _).append_right _).append_right _).append_right
        _).stamp t.now
  · rcases h with ⟨m, hm, rfl⟩ | rfl | hx
    · exact (marked_banner hm).stamp t.now
    · exact ((marked_dashes.append_right _).append_right _).stamp t.now
    · exact hlines x (List.mem_of_mem_take hx)

/-! ## What a writer writes -/

/-- The bytes of lines. -/
def bytes (lines : List String) : ℕ := (lines.map lineBytes).sum

@[simp] theorem bytes_cons (line : String) (lines : List String) :
    bytes (line :: lines) = lineBytes line + bytes lines := rfl

variable {i : Instance} {path : String}

/-- A line that does not take the file over the cap. -/
theorem writeStamped_room (h : i.writer = some path) {disk : List Line} {line : String}
    (hroom : fileLength disk path + lineBytes line ≤ maxSizeBytes) :
    writeStamped i disk line = (i, disk ++ [⟨path, line⟩]) := by
  simp only [writeStamped, h]
  refine if_neg ?_
  rw [fileLength_append, fileLength_singleton, if_pos rfl]
  exact Nat.not_lt.2 hroom

/-- A line that does. -/
theorem writeStamped_full (h : i.writer = some path) {disk : List Line} {line : String}
    (hfull : maxSizeBytes < fileLength disk path + lineBytes line) :
    writeStamped i disk line =
      ({ i with writer := none }, disk ++ [⟨path, line⟩, ⟨path, limitLine⟩]) := by
  simp only [writeStamped, h]
  refine if_pos ?_
  rwa [fileLength_append, fileLength_singleton, if_pos rfl]

/-- What is written is given, or it is the limit line. -/
theorem writeAll_adds (i : Instance) (disk : List Line) (lines : List String) :
    ∃ rest, (writeAll i disk lines).2 = disk ++ rest ∧
      ∀ l ∈ rest, l.text = limitLine ∨ l.text ∈ lines := by
  induction lines generalizing i disk with
  | nil => exact ⟨[], by simp [writeAll], by simp⟩
  | cons line lines ih =>
      obtain ⟨rest, hrest, htexts⟩ := ih (writeStamped i disk line).1 (writeStamped i disk line).2
      obtain ⟨first, hfirst, hline⟩ : ∃ first, (writeStamped i disk line).2 = disk ++ first ∧
          ∀ l ∈ first, l.text = limitLine ∨ l.text = line := by
        cases hwriter : i.writer with
        | none => exact ⟨[], by rw [writeStamped_none hwriter, List.append_nil], by simp⟩
        | some path =>
            rcases Nat.lt_or_ge maxSizeBytes (fileLength disk path + lineBytes line) with
              hfull | hfits
            · exact ⟨_, congrArg Prod.snd (writeStamped_full hwriter hfull), by simp⟩
            · exact ⟨_, congrArg Prod.snd (writeStamped_room hwriter hfits), by simp⟩
      refine ⟨first ++ rest, ?_, fun l hl => ?_⟩
      · rw [writeAll, hrest, hfirst, List.append_assoc]
      · rcases List.mem_append.1 hl with hl | hl
        · exact (hline l hl).imp_right fun h => by rw [h]; exact List.mem_cons_self ..
        · exact (htexts l hl).imp_right fun h => List.mem_cons_of_mem _ h

/-- **Where all but the last of the lines fit, all of them are written.** -/
theorem writeAll_room (h : i.writer = some path) {line : String} {lines : List String}
    {disk : List Line}
    (hroom : fileLength disk path + bytes (line :: lines).dropLast ≤ maxSizeBytes)
    (more : List String) :
    ∃ rest, (writeAll i disk (line :: lines ++ more)).2 =
        disk ++ (line :: lines).map (Line.mk path) ++ rest ∧
      ∀ l ∈ rest, l.text = limitLine ∨ l.text ∈ more := by
  induction lines generalizing disk line with
  | nil =>
      rw [List.cons_append, List.nil_append, writeAll]
      rcases Nat.lt_or_ge maxSizeBytes (fileLength disk path + lineBytes line) with hfull | hfits
      · rw [writeStamped_full h hfull, writeAll_none rfl]
        exact ⟨[⟨path, limitLine⟩], by simp, by simp⟩
      · rw [writeStamped_room h hfits]
        exact writeAll_adds i _ more
  | cons next lines ih =>
      rw [List.dropLast_cons_cons, bytes_cons, ← Nat.add_assoc] at hroom
      rw [List.cons_append, writeAll,
        writeStamped_room h (Nat.le_trans (Nat.le_add_right ..) hroom)]
      have hlength : fileLength (disk ++ [⟨path, line⟩]) path =
          fileLength disk path + lineBytes line := by
        rw [fileLength_append, fileLength_singleton, if_pos rfl]
      obtain ⟨rest, hrest, htexts⟩ := ih (hlength ▸ hroom)
      exact ⟨rest, by rw [hrest]; simp, htexts⟩

/-- **Where they do not, the limit line comes in the place of one of them.** -/
theorem writeAll_full (h : i.writer = some path) {line next : String} {lines : List String}
    {disk : List Line}
    (hfull : maxSizeBytes < fileLength disk path + bytes (line :: next :: lines).dropLast)
    (more : List String) :
    ∃ written left, line :: next :: lines = written ++ left ∧ left ≠ [] ∧
      (writeAll i disk (line :: next :: lines ++ more)).2 =
        disk ++ written.map (Line.mk path) ++ [⟨path, limitLine⟩] := by
  induction lines generalizing disk line next with
  | nil =>
      have hline : maxSizeBytes < fileLength disk path + lineBytes line := hfull
      rw [List.cons_append, writeAll, writeStamped_full h hline, writeAll_none rfl]
      exact ⟨[line], [next], rfl, by simp, by simp⟩
  | cons third lines ih =>
      rw [List.dropLast_cons_cons, bytes_cons, ← Nat.add_assoc] at hfull
      rw [List.cons_append, writeAll]
      rcases Nat.lt_or_ge maxSizeBytes (fileLength disk path + lineBytes line) with hline | hfits
      · rw [writeStamped_full h hline, writeAll_none rfl]
        exact ⟨[line], next :: third :: lines, rfl, by simp, by simp⟩
      · have hlength : fileLength (disk ++ [⟨path, line⟩]) path =
            fileLength disk path + lineBytes line := by
          rw [fileLength_append, fileLength_singleton, if_pos rfl]
        obtain ⟨written, left, hsplit, hleft, hdisk⟩ := ih (hlength ▸ hfull)
        rw [writeStamped_room h hfits]
        exact ⟨line :: written, left, by rw [hsplit]; rfl, hleft, by rw [hdisk]; simp⟩

/-! ## The calls -/

/-- A call of `log` before the log is open. -/
structure Logged where
  now : String
  tag : String
  message : String
  thrown : Option Thrown
deriving DecidableEq, Repr

/-- It is a call of the class. -/
def Logged.event (l : Logged) : Event := .log l.now l.tag l.message l.thrown

/-- Its lines, with the time at which they were logged. -/
def Logged.lines (l : Logged) : List String :=
  (shortLines l.tag l.message l.thrown).map (stamp l.now)

/-- The lines of all calls. -/
def earlyLines (ls : List Logged) : List String := ls.flatMap Logged.lines

/-- A call of `init` or of `reevaluateTarget`. -/
structure Opening where
  reevaluates : Bool
  target : Target
deriving DecidableEq, Repr

/-- It is a call of the class. -/
def Opening.event (c : Opening) : Event :=
  if c.reevaluates then .reevaluateTarget c.target else .init c.target

/-- One call of `init` or of `reevaluateTarget`. -/
def call (s : State) (c : Opening) : State := step s c.event

/-- The class after `log` calls alone. -/
def early (disk : List Line) (ls : List Logged) : State :=
  run step (start disk) (ls.map Logged.event)

/-- The call runs the constructor, and the constructor opens a file. -/
def OpensFile (s : State) (c : Opening) : Prop :=
  (∀ i ∈ s.instance_, c.reevaluates = true ∧ i.targetKind ≠ usbFlashDrive) ∧ c.target.Usable

/-- The class holds lines that were logged: the first ones, and how many came after them. -/
def held (disk : List Line) (lines : List String) : State :=
  ⟨none, lines.take maxPendingLines, lines.length - maxPendingLines, disk, .fresh⟩

theorem buffer_held (disk : List Line) (lines : List String) (now line : String) :
    buffer now (held disk lines) line = held disk (lines ++ [stamp now line]) := by
  unfold buffer held
  rcases Nat.lt_or_ge lines.length maxPendingLines with hroom | hfull
  · rw [if_neg (by simp [hroom])]
    simp only [List.length_append, List.length_singleton, State.mk.injEq, true_and, and_true]
    refine ⟨?_, by omega⟩
    rw [List.take_of_length_le (Nat.le_of_lt hroom),
      List.take_of_length_le (by simpa using Nat.succ_le_of_lt hroom)]
  · rw [if_pos (by simp [hfull])]
    simp only [List.length_append, List.length_singleton, State.mk.injEq, true_and, and_true]
    exact ⟨(List.take_append_of_le_length hfull).symm, by omega⟩

theorem foldl_buffer_held (disk : List Line) (now : String) (lines more : List String) :
    more.foldl (buffer now) (held disk lines) = held disk (lines ++ more.map (stamp now)) := by
  induction more generalizing lines with
  | nil => simp
  | cons line more ih => rw [List.foldl_cons, buffer_held, ih]; simp

/-- **The buffer.**  It holds the first `MAX_PENDING_LINES` lines, and counts the others. -/
theorem early_eq (disk : List Line) (ls : List Logged) :
    early disk ls = held disk (earlyLines ls) := by
  have hrun : ∀ lines, run step (held disk lines) (ls.map Logged.event) =
      held disk (lines ++ earlyLines ls) := by
    induction ls with
    | nil => simp [earlyLines]
    | cons l ls ih =>
        intro lines
        have hlog : step (held disk lines) l.event = held disk (lines ++ l.lines) :=
          foldl_buffer_held disk l.now lines (shortLines l.tag l.message l.thrown)
        rw [List.map_cons, run_cons, hlog, ih]
        simp [earlyLines]
  simpa [held, start, early] using hrun []

/-! ## The property -/

/-- What the class says of itself when a target is looked for. -/
def Target.Says (t : Target) (m : String) : Prop :=
  m ∈ banner t t.file ∨ m = "--- end of the pre-init lines ---" ∨
  m = "re-evaluating the log target..." ∨ m = "no better target found" ∨
  (∃ file, m = "log moved to " ++ file) ∨
  ∃ file, m = "(continuation; previous log at " ++ file ++ ")"

/-- A line of the class itself. -/
def Own (cs : List Opening) (text : String) : Prop :=
  text = limitLine ∨ ∃ c ∈ cs, ∃ m, c.target.Says m ∧ text = stamp c.target.now m

/-- Only such lines were written. -/
def Adds (cs : List Opening) (disk more : List Line) : Prop :=
  ∃ rest, more = disk ++ rest ∧ ∀ l ∈ rest, Own cs l.text

/-- **What is promised of the lines that were logged.**  As long as no file is opened the buffer
keeps them.  The first file that is opened begins with the lines of the constructor, and then
has the first `MAX_PENDING_LINES` of them, in order and with their times, and says how many
were dropped; all that is written after that, to whatever file, is the class's own. -/
structure Delivers (disk : List Line) (ls : List Logged) (cs : List Opening) : Prop where
  kept : ∀ before, before <+: cs → Along call (fun s c => ¬ OpensFile s c) (early disk ls) before →
    (run call (early disk ls) before).pendingLines = (earlyLines ls).take maxPendingLines ∧
    (run call (early disk ls) before).droppedPendingLines = (earlyLines ls).length - maxPendingLines
  written : ∀ before c after, cs = before ++ c :: after →
    Along call (fun s c => ¬ OpensFile s c) (early disk ls) before →
    OpensFile (run call (early disk ls) before) c →
    ∃ path ∈ c.target.file,
      Adds cs (disk ++ (reported c.target (earlyLines ls)).map (Line.mk path))
        (run call (early disk ls) cs).disk

/-- Where lines were logged, the first call opens a file, and all of what it has to have but
the last line fits. -/
def Received (disk : List Line) (ls : List Logged) (cs : List Opening) : Prop :=
  earlyLines ls = [] ∨ ∀ c ∈ cs.head?, c.target.Usable ∧ ∀ path ∈ c.target.file,
    fileLength disk path + bytes (reported c.target (earlyLines ls)).dropLast ≤ maxSizeBytes

theorem Own.mono {cs more : List Opening} {text : String} (h : Own cs text) (hsub : cs ⊆ more) :
    Own more text :=
  h.imp_right fun ⟨c, hc, hsays⟩ => ⟨c, hsub hc, hsays⟩

theorem Opening.own {c : Opening} {m : String} (h : c.target.Says m) :
    Own [c] (stamp c.target.now m) :=
  .inr ⟨c, by simp, m, h, rfl⟩

namespace Adds

variable {cs more : List Opening} {a b d : List Line}

theorem refl (cs : List Opening) (a : List Line) : Adds cs a a := ⟨[], by simp, by simp⟩

theorem trans (hab : Adds cs a b) (hbd : Adds cs b d) : Adds cs a d := by
  obtain ⟨first, rfl, hfirst⟩ := hab
  obtain ⟨second, rfl, hsecond⟩ := hbd
  refine ⟨first ++ second, List.append_assoc .., fun l hl => ?_⟩
  rcases List.mem_append.1 hl with hl | hl
  · exact hfirst l hl
  · exact hsecond l hl

theorem mono (h : Adds cs a b) (hsub : cs ⊆ more) : Adds more a b := by
  obtain ⟨rest, hrest, hown⟩ := h
  exact ⟨rest, hrest, fun l hl => (hown l hl).mono hsub⟩

end Adds

/-- Lines of the class are written. -/
theorem adds_writeAll (i : Instance) (disk : List Line) {lines : List String} {cs : List Opening}
    (h : ∀ x ∈ lines, Own cs x) : Adds cs disk (writeAll i disk lines).2 := by
  obtain ⟨rest, hrest, htexts⟩ := writeAll_adds i disk lines
  refine ⟨rest, hrest, fun l hl => ?_⟩
  rcases htexts l hl with hlimit | hmem
  · exact .inl hlimit
  · exact h _ hmem

theorem adds_writeStamped (i : Instance) (disk : List Line) {c : Opening} {m : String}
    (h : c.target.Says m) : Adds [c] disk (writeStamped i disk (stamp c.target.now m)).2 := by
  show Adds [c] disk (writeAll i disk [stamp c.target.now m]).2
  exact adds_writeAll i disk (by simpa using Opening.own h)

/-- Nothing is in the buffer. -/
def State.Drained (s : State) : Prop := s.pendingLines = [] ∧ s.droppedPendingLines = 0

variable {s : State}

/-- A constructor that finds an empty buffer. -/
theorem adds_construct (h : s.Drained) (c : Opening) :
    Adds [c] s.disk (construct s c.target).2 := by
  refine adds_writeAll _ _ fun x hx => ?_
  rw [h.1, h.2, flushPending, if_pos ⟨rfl, rfl⟩, List.append_nil] at hx
  obtain ⟨m, hm, rfl⟩ := List.mem_map.1 hx
  exact Opening.own (.inl hm)

theorem State.Drained.init (h : s.Drained) (c : Opening) :
    (initStep s c.target).Drained ∧ Adds [c] s.disk (initStep s c.target).disk := by
  unfold initStep
  split
  · exact ⟨h, Adds.refl ..⟩
  · exact ⟨⟨rfl, rfl⟩, adds_construct h c⟩

/-- The old instance has a line, then the new one, and then one of them has another. -/
theorem State.Drained.reevaluate (h : s.Drained) (c : Opening) :
    (reevaluateStep s c.target).Drained ∧ Adds [c] s.disk (reevaluateStep s c.target).disk := by
  unfold reevaluateStep
  split
  · exact h.init c
  next i hi =>
    have hasked := adds_writeStamped (c := c) i s.disk
      (m := "re-evaluating the log target...") (.inr (.inr (.inl rfl)))
    dsimp only
    generalize writeStamped i s.disk (stamp c.target.now "re-evaluating the log target...") = old
      at hasked ⊢
    have hfresh := hasked.trans (adds_construct (s := { s with disk := old.2 }) h c)
    generalize construct { s with disk := old.2 } c.target = fresh at hfresh ⊢
    split_ifs
    · exact ⟨h, Adds.refl ..⟩
    · refine ⟨⟨rfl, rfl⟩, hfresh.trans ?_⟩
      exact (adds_writeStamped _ _ (.inr (.inr (.inr (.inr (.inl ⟨_, rfl⟩)))))).trans
        (adds_writeStamped _ _ (.inr (.inr (.inr (.inr (.inr ⟨_, rfl⟩))))))
    · refine ⟨⟨rfl, rfl⟩, hfresh.trans ?_⟩
      exact adds_writeStamped _ _ (.inr (.inr (.inr (.inl rfl))))

/-- **One call with an empty buffer** writes lines of the class alone, and the buffer stays
empty. -/
theorem State.Drained.call (h : s.Drained) (c : Opening) :
    (FileLog.call s c).Drained ∧ Adds [c] s.disk (FileLog.call s c).disk := by
  unfold FileLog.call Opening.event
  split_ifs
  · exact h.reevaluate c
  · exact h.init c

/-- The same of a run. -/
theorem State.Drained.run (h : s.Drained) (cs : List Opening) :
    (Machine.run FileLog.call s cs).Drained ∧
      Adds cs s.disk (Machine.run FileLog.call s cs).disk := by
  induction cs generalizing s with
  | nil => exact ⟨h, Adds.refl ..⟩
  | cons c cs ih =>
      obtain ⟨hdrained, hadds⟩ := h.call c
      obtain ⟨hrest, hmore⟩ := ih hdrained
      refine ⟨hrest, (hadds.mono ?_).trans (hmore.mono (List.subset_cons_self ..))⟩
      simp

/-! ## The first call -/

variable {disk : List Line} {lines : List String}

/-- Both calls make the first instance. -/
theorem call_held (disk : List Line) (lines : List String) (c : Opening) :
    call (held disk lines) c = initStep (held disk lines) c.target := by
  unfold call Opening.event
  split_ifs <;> rfl

theorem drained_call_held (disk : List Line) (lines : List String) (c : Opening) :
    (call (held disk lines) c).Drained := by
  rw [call_held]
  exact ⟨rfl, rfl⟩

theorem opensFile_held_iff (disk : List Line) (lines : List String) (c : Opening) :
    OpensFile (held disk lines) c ↔ c.target.Usable :=
  and_iff_right fun _ hi => absurd hi (by simp [held])

/-- The first instance is given the lines of its file. -/
theorem disk_call_held (disk : List Line) (h : lines ≠ []) (c : Opening) :
    (call (held disk lines) c).disk = (writeAll c.target.instance_ disk
      (reported c.target lines ++ [endLine c.target.now])).2 := by
  rw [call_held, ← flushPending_reported c.target h]
  rfl

/-- There are at least two. -/
theorem reported_eq_cons (t : Target) (h : lines ≠ []) :
    ∃ line next more, reported t lines = line :: next :: more := by
  unfold reported
  rw [if_neg h]
  exact ⟨_, _, _, rfl⟩

/-- With a file and room for the lines they are all written. -/
theorem adds_call_held (h : lines ≠ []) {c : Opening} {path : String}
    (hwriter : c.target.instance_.writer = some path)
    (hroom : fileLength disk path + bytes (reported c.target lines).dropLast ≤ maxSizeBytes) :
    Adds [c] (disk ++ (reported c.target lines).map (Line.mk path))
      (call (held disk lines) c).disk := by
  rw [disk_call_held disk h]
  obtain ⟨line, next, more, hcons⟩ := reported_eq_cons c.target h
  rw [hcons] at hroom ⊢
  obtain ⟨rest, hrest, htexts⟩ := writeAll_room hwriter hroom [endLine c.target.now]
  refine ⟨rest, hrest, fun l hl => ?_⟩
  rcases htexts l hl with hlimit | hend
  · exact .inl hlimit
  · rw [List.mem_singleton.1 hend]
    exact Opening.own (.inr (.inl rfl))

/-- Without the room one of them is missing. -/
theorem not_adds_call_held (hmarked : ∀ x ∈ lines, Marked x) (h : lines ≠ []) {c : Opening}
    {path : String} (hwriter : c.target.instance_.writer = some path)
    (hfull : maxSizeBytes < fileLength disk path + bytes (reported c.target lines).dropLast)
    {own cs : List Opening} :
    ¬ Adds own (disk ++ (reported c.target lines).map (Line.mk path))
      (run call (call (held disk lines) c) cs).disk := by
  rintro ⟨rest, hrest, -⟩
  obtain ⟨after, hafter, -⟩ := ((drained_call_held disk lines c).run cs).2
  obtain ⟨line, next, more, hcons⟩ := reported_eq_cons c.target h
  obtain ⟨written, left, hsplit, hleft, hdisk⟩ :=
    writeAll_full hwriter (hcons ▸ hfull) [endLine c.target.now]
  rw [hafter, disk_call_held disk h, hcons, hdisk, hsplit] at hrest
  obtain ⟨x, left, rfl⟩ := List.exists_cons_of_ne_nil hleft
  have hsame : x = limitLine := by
    simp only [List.map_append, List.map_cons, List.append_assoc, List.append_cancel_left_eq,
      List.cons_append, List.cons.injEq, Line.mk.injEq] at hrest
    exact hrest.1.2.symm
  have hmem : x ∈ reported c.target lines := by
    rw [hcons, hsplit]
    simp
  exact (marked_reported hmarked hmem).ne_limitLine hsame

/-- Every line that is logged has a colon. -/
theorem marked_earlyLines {ls : List Logged} {x : String} (h : x ∈ earlyLines ls) : Marked x := by
  obtain ⟨l, -, hx⟩ := List.mem_flatMap.1 h
  obtain ⟨line, hline, rfl⟩ := List.mem_map.1 hx
  exact (marked_shortLines hline).stamp l.now

/-- A target with a writer has its file. -/
theorem Target.Usable.file {t : Target} (h : t.Usable) :
    ∃ path ∈ t.file, t.instance_.writer = some path := by
  obtain ⟨path, hwriter⟩ := h.writer
  exact ⟨path, t.sound_instance_ path hwriter, hwriter⟩

/-- Where nothing was logged there is nothing to deliver. -/
theorem delivers_of_nil (disk : List Line) {ls : List Logged} (h : earlyLines ls = [])
    (cs : List Opening) : Delivers disk ls cs := by
  have hearly : early disk ls = held disk [] := by rw [early_eq, h]
  have hdrained : (early disk ls).Drained := by rw [hearly]; exact ⟨rfl, rfl⟩
  refine ⟨fun before _ _ => ?_, fun before c after _ _ hopens => ?_⟩
  · obtain ⟨hpending, hdropped⟩ := (hdrained.run before).1
    rw [hpending, hdropped, h]
    exact ⟨rfl, rfl⟩
  · obtain ⟨path, hpath, -⟩ := hopens.2.file
    have hadds := (hdrained.run cs).2
    refine ⟨path, hpath, ?_⟩
    rw [h, reported, if_pos rfl]
    simpa [hearly, held] using hadds

/-- The first call does not lose the lines only if it opens a file with room for them. -/
theorem Delivers.received {ls : List Logged} {c : Opening} {cs : List Opening}
    (h : Delivers disk ls (c :: cs)) (hne : earlyLines ls ≠ []) : Received disk ls (c :: cs) := by
  have hopens := opensFile_held_iff disk (earlyLines ls) c
  rw [← early_eq] at hopens
  have husable : c.target.Usable := by
    by_contra hnot
    have hheld := (h.kept [c] ⟨cs, rfl⟩ ⟨mt hopens.1 hnot, trivial⟩).1
    rw [early_eq, run_cons, run_nil, (drained_call_held ..).1] at hheld
    exact hne (by simpa [maxPendingLines] using hheld.symm)
  refine .inr fun b hb => ?_
  obtain rfl : c = b := by simpa using hb
  refine ⟨husable, fun path hpath => Nat.not_lt.1 fun hfull => ?_⟩
  obtain ⟨file, hfile, hadds⟩ := h.written [] c cs rfl trivial (hopens.2 husable)
  obtain ⟨path', hpath', hwriter⟩ := husable.file
  obtain rfl : path = path' := Option.some.inj (hpath.symm.trans hpath')
  obtain rfl : path = file := Option.some.inj (hpath.symm.trans hfile)
  rw [early_eq, run_cons] at hadds
  exact not_adds_call_held (fun x hx => marked_earlyLines hx) hne hwriter hfull hadds

/-- The first call opens a file, and the lines fit. -/
theorem delivers_of_usable {ls : List Logged} {c : Opening} (cs : List Opening)
    (hne : earlyLines ls ≠ []) (husable : c.target.Usable)
    (hroom : ∀ path ∈ c.target.file, fileLength disk path +
      bytes (reported c.target (earlyLines ls)).dropLast ≤ maxSizeBytes) :
    Delivers disk ls (c :: cs) := by
  have hopens : OpensFile (early disk ls) c := by
    rw [early_eq]
    exact (opensFile_held_iff ..).2 husable
  refine ⟨fun before hbefore hquiet => ?_, fun before b after hcs hquiet _ => ?_⟩
  · cases before with
    | nil =>
        rw [run_nil, early_eq]
        exact ⟨rfl, rfl⟩
    | cons b before =>
        obtain rfl : b = c := (List.cons_prefix_cons.1 hbefore).1
        exact absurd hopens hquiet.1
  · cases before with
    | nil =>
        obtain ⟨rfl, rfl⟩ := List.cons.inj hcs
        obtain ⟨path, hpath, hwriter⟩ := husable.file
        have hfirst := adds_call_held hne hwriter (hroom path hpath)
        have hrest := ((drained_call_held disk (earlyLines ls) c).run cs).2
        rw [early_eq, run_cons]
        exact ⟨path, hpath, (hfirst.mono (by simp)).trans (hrest.mono (List.subset_cons_self ..))⟩
    | cons a before =>
        obtain ⟨rfl, -⟩ := List.cons.inj hcs
        exact absurd hopens hquiet.1

/-- **When the lines that were logged are delivered.**  For any `log` calls, and any calls of
`init` and `reevaluateTarget` after them with any targets: the buffer keeps the lines until a
file is opened, and the first file that is opened has them, exactly when nothing was logged, or
there is no such call, or the first of the calls opens a file and all of what it has to have
but the last line fits below `MAX_SIZE_BYTES`. -/
theorem delivers_iff (disk : List Line) (ls : List Logged) (cs : List Opening) :
    Delivers disk ls cs ↔ Received disk ls cs := by
  by_cases hnil : earlyLines ls = []
  · exact iff_of_true (delivers_of_nil disk hnil cs) (.inl hnil)
  cases cs with
  | nil =>
      refine iff_of_true ⟨fun before hbefore _ => ?_, fun before c after hcs => ?_⟩
        (.inr fun c hc => absurd hc (by simp))
      · rw [List.prefix_nil.1 hbefore, run_nil, early_eq]
        exact ⟨rfl, rfl⟩
      · exact absurd hcs.symm (by simp)
  | cons c cs =>
      refine ⟨fun h => h.received hnil, fun h => ?_⟩
      obtain ⟨husable, hroom⟩ := h.resolve_left hnil c rfl
      exact delivers_of_usable cs hnil husable hroom

/-- Storage that is there and cannot be written to. -/
def readOnly : Target :=
  { flashDrive with
    kind := "app external storage", dir := some "/sdcard/carlinkit", opens := false }

/-- **The entry of the whitelist is lost.**  `init` finds no file that it can open and clears
the buffer, and the flash drive that comes later has the class's own lines alone. -/
theorem not_delivers_readOnly :
    (run call (early [] [⟨"11:59:59.900", "ODA", "whitelist", none⟩])
      [⟨false, readOnly⟩, ⟨true, flashDrive⟩]).disk.map (·.text) =
      (banner flashDrive flashDrive.file ++
        ["(continuation; previous log at /sdcard/carlinkit/carlinkit-20260101-120000.log)"]).map
          (stamp flashDrive.now) ∧
    ¬ ∀ disk ls cs, Delivers disk ls cs := by
  refine ⟨by decide +kernel, fun h => ?_⟩
  have hkept := (h [] [⟨"11:59:59.900", "ODA", "whitelist", none⟩] [⟨false, readOnly⟩]).kept
    [⟨false, readOnly⟩] (List.prefix_refl _) ⟨fun hopens => absurd hopens.2.2 (by decide), trivial⟩
  exact absurd hkept.1 (by decide +kernel)

end FileLog
end App
end Carlinkit
