/-
# The cap of the log directory

`MAX_FILES` and `MAX_DIR_BYTES` are for the directory as `pruneOldLogs` leaves it.  It runs
before a file is created, and the file then grows, up to `MAX_SIZE_BYTES` and a line of its
own.  The count leaves room for that file and the size does not.

This follows one directory over the life of several processes.  Every log can be deleted,
and an instance whose file goes is left without a writer: what it writes from then on is
in no file of the directory (`reevaluate`; where nothing of the kind happens it is
`reevaluateTarget`, `reevaluate_eq`).  `bounded_iff` says when the cap holds: when all that
is written fits beside what the last pruning left.
-/

import Carlinkit.App.Pruning

namespace Carlinkit
namespace App

open Machine

/-- With every log deletable, the loop ends when the logs that stay have room. -/
theorem exists_kept_pruneLoop (length : Entry → ℕ) (es : List Entry) :
    ∃ kept, es = pruneLoop length (fun _ => true) es.length (totalLength length es) es ++ kept ∧
      kept.length < maxFiles ∧ totalLength length kept ≤ maxDirBytes := by
  have hloop : pruneLoop length (fun _ => true) es.length (totalLength length es) es =
      triesFull length (fun _ => true) [] es := by
    rw [← filter_triesLoop, ← triesLoop_eq]
    exact List.filter_eq_self.2 fun _ _ => rfl
  have hfirst : triesFull length (fun _ => true) [] es <+: es := triesFull_prefix [] es
  refine ⟨es.drop (triesFull length (fun _ => true) [] es).length, ?_, ?_⟩
  · rw [hloop]
    exact (List.prefix_iff_eq_append.1 hfirst).symm
  · have hstays : ∀ k, stayed (fun _ => true) [] es k = es.drop k :=
      stayed_of_forall fun _ _ => rfl
    rcases hasRoom_stayed [] es with hroom | hall
    · rwa [hstays] at hroom
    · rw [hall, List.drop_length]
      exact hasRoom_nil length

/-- Two files of a directory have different paths. -/
theorem Entry.eq_of_path {a b : Entry} (hdir : a.dir = b.dir) (h : a.path = b.path) : a = b := by
  obtain ⟨d, n⟩ := a
  obtain ⟨d', n'⟩ := b
  obtain rfl : d = d' := hdir
  exact congrArg (Entry.mk d) ((String.append_right_inj (d ++ "/")).1 h)

/-- One of the files grows. -/
theorem totalLength_add (length : Entry → ℕ) {es : List Entry} {a : Entry} (hes : es.Nodup)
    (ha : a ∈ es) (n : ℕ) : totalLength (fun e => length e + if e = a then n else 0) es =
      totalLength length es + n := by
  induction es with
  | nil => exact absurd ha List.not_mem_nil
  | cons e es ih =>
      obtain ⟨hnot, hrest⟩ := List.nodup_cons.1 hes
      rw [totalLength_cons, totalLength_cons]
      rcases List.mem_cons.1 ha with rfl | hmem
      · have hsame : totalLength (fun e => length e + if e = a then n else 0) es =
            totalLength length es := by
          refine congrArg List.sum (List.map_congr_left fun e he => ?_)
          have hne : e ≠ a := fun heq => hnot (heq ▸ he)
          rw [if_neg hne, Nat.add_zero]
        rw [hsame, if_pos rfl]
        omega
      · have hne : e ≠ a := fun heq => hnot (heq ▸ hmem)
        rw [ih hrest hmem, if_neg hne]
        omega

namespace FileLog

/-! ## What lines take -/

/-- A line with its end. -/
def lineBytes (line : String) : ℕ := line.utf8ByteSize + 1

/-- The last line of a file that reached `MAX_SIZE_BYTES`. -/
def limitLine : String :=
  "=== size limit reached (" ++ toString (maxSizeBytes / 1024) ++ " KB) ==="

/-- What lines add to a file of `n` bytes; the one that takes it over `MAX_SIZE_BYTES` is the
last. -/
def growth : ℕ → List String → ℕ
  | _, [] => 0
  | n, line :: lines =>
      if maxSizeBytes < n + lineBytes line then lineBytes line + lineBytes limitLine
      else lineBytes line + growth (n + lineBytes line) lines

/-- What lines add to the file of an instance. -/
def Instance.growth (i : Instance) (disk : List Line) (lines : List String) : ℕ :=
  match i.writer with
  | some path => FileLog.growth (fileLength disk path) lines
  | none => 0

/-- The file that an instance writes to is one of these. -/
def Instance.Linked (i : Instance) (files : List Entry) : Prop :=
  ∀ path, i.writer = some path → ∃ e ∈ files, e.path = path

variable {i : Instance} {disk : List Line} {path : String}

theorem fileLength_singleton (p line path : String) :
    fileLength [⟨p, line⟩] path = if p = path then lineBytes line else 0 := by
  by_cases hp : p = path <;> simp [fileLength, lineBytes, hp]

theorem le_growth (n : ℕ) (line : String) (lines : List String) :
    lineBytes line ≤ growth n (line :: lines) := by
  rw [growth]
  split_ifs <;> exact Nat.le_add_right ..

/-- **What writing does to the files.**  The one of the instance grows. -/
theorem fileLength_writeAll (i : Instance) (disk : List Line) (lines : List String)
    (path : String) : fileLength (writeAll i disk lines).2 path =
      fileLength disk path + if i.writer = some path then i.growth disk lines else 0 := by
  cases hwriter : i.writer with
  | none => simp [writeAll_none hwriter]
  | some p =>
      simp only [Instance.growth, hwriter, Option.some.injEq]
      induction lines generalizing disk with
      | nil => simp [writeAll, growth]
      | cons line lines ih =>
          have hnext : fileLength (disk ++ [⟨p, line⟩]) p = fileLength disk p + lineBytes line := by
            rw [fileLength_append, fileLength_singleton, if_pos rfl]
          rw [writeAll, writeStamped, hwriter]
          simp only [hnext, growth]
          split_ifs with hbig hp hp
          · subst hp
            have hlimit : fileLength [⟨p, line⟩, ⟨p, limitLine⟩] p =
                lineBytes line + lineBytes limitLine := by
              simp [fileLength, lineBytes]
            rw [writeAll_none rfl, fileLength_append]
            exact congrArg _ hlimit
          · rw [writeAll_none rfl, fileLength_append]
            simp [fileLength, hp]
          · subst hp
            rw [ih, if_pos rfl, hnext, Nat.add_assoc]
          · rw [ih, if_neg hp, fileLength_append, fileLength_singleton, if_neg hp]

/-- What is on the disk afterwards was there, or is in the file of the instance. -/
theorem mem_writeAll {lines : List String} {l : Line} (h : l ∈ (writeAll i disk lines).2) :
    l ∈ disk ∨ i.writer = some l.path := by
  cases hwriter : i.writer with
  | none =>
      rw [writeAll_none hwriter] at h
      exact .inl h
  | some p =>
      induction lines generalizing disk with
      | nil => exact .inl h
      | cons line lines ih =>
          rw [writeAll, writeStamped, hwriter] at h
          simp only at h
          split_ifs at h
          · rw [writeAll_none rfl] at h
            rcases List.mem_append.1 h with h | h
            · exact .inl h
            · have hpath : l.path = p := by
                rcases List.mem_cons.1 h with rfl | h
                · rfl
                · rw [List.mem_singleton.1 h]
              exact .inr (congrArg some hpath.symm)
          · rcases ih h with h | h
            · rcases List.mem_append.1 h with h | h
              · exact .inl h
              · rw [List.mem_singleton.1 h]
                exact .inr rfl
            · exact .inr h

/-- An instance goes on with its file, or has no writer any more. -/
theorem writer_writeAll (i : Instance) (disk : List Line) (lines : List String) :
    ((writeAll i disk lines).1.writer = i.writer ∨ (writeAll i disk lines).1.writer = none) ∧
      (writeAll i disk lines).1.targetKind = i.targetKind := by
  induction lines generalizing i disk with
  | nil => exact ⟨.inl rfl, rfl⟩
  | cons line lines ih =>
      rw [writeAll]
      obtain ⟨hwriter, hkind⟩ := ih (writeStamped i disk line).1 (writeStamped i disk line).2
      have hline : ((writeStamped i disk line).1.writer = i.writer ∨
          (writeStamped i disk line).1.writer = none) ∧
            (writeStamped i disk line).1.targetKind = i.targetKind := by
        unfold writeStamped
        split
        · exact ⟨.inl rfl, rfl⟩
        · split_ifs
          · exact ⟨.inr rfl, rfl⟩
          · exact ⟨.inl rfl, rfl⟩
      refine ⟨?_, hkind.trans hline.2⟩
      rcases hwriter with heq | hnone
      · rw [heq]
        exact hline.1
      · exact .inr hnone

theorem Instance.Linked.writeAll {files : List Entry} (h : i.Linked files) (disk : List Line)
    (lines : List String) : (FileLog.writeAll i disk lines).1.Linked files := by
  intro path hpath
  rcases (writer_writeAll i disk lines).1 with heq | hnone
  · exact h path (heq ▸ hpath)
  · rw [hnone] at hpath
    cases hpath

namespace Storage

/-! ## The files of one directory -/

/-- Every log can be deleted. -/
def sweep : Call where
  event := .close ""
  listFiles := true
  deletes _ := true
  noFlashDrive := by simp [Event.target]

/-- How long the logs of a directory are together. -/
def total (x : Storage) (dir : String) : ℕ := totalLength x.length (x.logs dir)

/-- An instance writes lines. -/
def write (x : Storage) (i : Instance) (lines : List String) : Storage :=
  { x with log := { x.log with disk := (writeAll i x.log.disk lines).2 } }

/-- The files are logs of one directory, and nothing is on the disk but in them. -/
structure Tidy (dir : String) (x : Storage) : Prop where
  files : ∀ e ∈ x.files, e.dir = dir ∧ isLogFile e.name = true
  disk : ∀ l ∈ x.log.disk, ∃ e ∈ x.files, e.path = l.path

variable {dir : String} {x : Storage} {t : Target} {gone : List Entry}

theorem Tidy.logs (h : x.Tidy dir) : x.logs dir = x.files :=
  List.filter_eq_self.2 fun e he => decide_eq_true (h.files e he)

theorem Tidy.eq_of_path (h : x.Tidy dir) {a b : Entry} (ha : a ∈ x.files) (hb : b ∈ x.files)
    (hpath : a.path = b.path) : a = b :=
  Entry.eq_of_path ((h.files a ha).1.trans (h.files b hb).1.symm) hpath

/-- The files and what is in them make the total. -/
theorem total_congr (dir : String) {y : Storage} (hfiles : x.files = y.files)
    (hdisk : x.log.disk = y.log.disk) :
    x.total dir = y.total dir ∧ x.logs dir = y.logs dir := by
  have hlogs : x.logs dir = y.logs dir := by rw [Storage.logs, Storage.logs, hfiles]
  refine ⟨?_, hlogs⟩
  rw [total, total, hlogs]
  exact congrArg List.sum (List.map_congr_left fun e _ => by rw [length, length, hdisk])

theorem Tidy.write (h : x.Tidy dir) {i : Instance} (hi : i.Linked x.files)
    (lines : List String) : (x.write i lines).Tidy dir where
  files := h.files
  disk l hl := (mem_writeAll hl).elim (h.disk l) (hi l.path)

/-- **What lines add to the directory.** -/
theorem Tidy.total_write (h : x.Tidy dir) {i : Instance} (hi : i.Linked x.files)
    (lines : List String) :
    (x.write i lines).total dir = x.total dir + i.growth x.log.disk lines := by
  have hlength : ∀ e, (x.write i lines).length e =
      x.length e + if i.writer = some e.path then i.growth x.log.disk lines else 0 := fun e =>
    fileLength_writeAll i x.log.disk lines e.path
  have hlogs : (x.write i lines).logs dir = x.files := (h.write hi lines).logs
  rw [total, total, hlogs, h.logs]
  cases hwriter : i.writer with
  | none =>
      simp only [hwriter] at hlength
      rw [Instance.growth, hwriter]
      exact congrArg List.sum (List.map_congr_left fun e _ => hlength e)
  | some path =>
      obtain ⟨a, ha, rfl⟩ := hi path hwriter
      rw [← totalLength_add x.length x.nodup ha]
      refine congrArg List.sum (List.map_congr_left fun e he => ?_)
      have hsame : i.writer = some e.path ↔ e = a := by
        rw [hwriter, Option.some.injEq]
        exact ⟨fun hpath => h.eq_of_path he ha hpath.symm, fun heq => by rw [heq]⟩
      simp only [hlength, hsame]

/-! ### Pruning -/

theorem Tidy.remove (h : x.Tidy dir) (gone : List Entry) : (x.remove gone).Tidy dir where
  files e he := h.files e (List.mem_filter.1 he).1
  disk l hl := by
    obtain ⟨hmem, hpath⟩ := List.mem_filter.1 hl
    obtain ⟨e, he, heq⟩ := h.disk l hmem
    refine ⟨e, List.mem_filter.2 ⟨he, decide_eq_true fun hgone => ?_⟩, heq⟩
    exact of_decide_eq_true hpath e hgone heq

/-- What stays keeps its length. -/
theorem Tidy.length_remove (h : x.Tidy dir) (hgone : ∀ g ∈ gone, g ∈ x.files) {e : Entry}
    (he : e ∈ (x.remove gone).files) : (x.remove gone).length e = x.length e := by
  obtain ⟨hmem, hnot⟩ := List.mem_filter.1 he
  have hpath : ∀ g ∈ gone, g.path ≠ e.path := fun g hg heq =>
    of_decide_eq_true hnot (h.eq_of_path (hgone g hg) hmem heq ▸ hg)
  have hfilter : (x.log.disk.filter fun l => ∀ g ∈ gone, g.path ≠ l.path).filter
      (·.path == e.path) = x.log.disk.filter (·.path == e.path) := by
    rw [List.filter_filter]
    refine List.filter_congr fun l _ => ?_
    by_cases hl : l.path = e.path
    · simpa [hl] using hpath
    · simp [hl]
  rw [length, length, fileLength, fileLength]
  exact congrArg (fun ls => (ls.map fun l : Line => l.text.utf8ByteSize + 1).sum) hfilter

/-- **What `pruneOldLogs` leaves.**  One file less than `MAX_FILES`, and `MAX_DIR_BYTES`. -/
theorem Tidy.room_remove (h : x.Tidy dir) :
    ((x.remove (x.pruneOldLogs sweep dir)).logs dir).length < maxFiles ∧
      (x.remove (x.pruneOldLogs sweep dir)).total dir ≤ maxDirBytes := by
  have hperm : (x.sortedLogs dir).Perm (x.logs dir) := List.perm_insertionSort _ _
  obtain ⟨kept, hsplit, hcount, htotal⟩ := exists_kept_pruneLoop x.length (x.sortedLogs dir)
  rw [hperm.length_eq, totalLength_perm x.length hperm] at hsplit
  replace hsplit : x.sortedLogs dir = x.pruneOldLogs sweep dir ++ kept := hsplit
  rw [h.logs] at hperm
  have hnodup : (x.pruneOldLogs sweep dir ++ kept).Nodup :=
    hsplit ▸ hperm.nodup_iff.2 x.nodup
  have hkept : ((x.remove (x.pruneOldLogs sweep dir)).logs dir).Perm kept := by
    rw [(h.remove _).logs]
    refine (hperm.symm.filter _).trans (List.Perm.of_eq ?_)
    rw [hsplit, List.filter_append, List.filter_eq_nil_iff.2 (by simp), List.nil_append]
    refine List.filter_eq_self.2 fun e he => decide_eq_true fun hgone => ?_
    exact (List.nodup_append.1 hnodup).2.2 e hgone e he rfl
  have hgone : ∀ g ∈ x.pruneOldLogs sweep dir, g ∈ x.files := fun g hg =>
    hperm.mem_iff.1 (hsplit ▸ List.mem_append_left _ hg)
  refine ⟨hkept.length_eq ▸ hcount, ?_⟩
  rw [total, totalLength_perm _ hkept]
  refine le_of_eq_of_le (congrArg List.sum (List.map_congr_left fun e he => ?_)) htotal
  exact h.length_remove hgone ((h.remove _).logs ▸ hkept.mem_iff.2 he)

/-! ### A new file -/

theorem Tidy.create (h : x.Tidy dir) (ht : ∀ d ∈ t.dir, d = dir) : (x.create t).Tidy dir := by
  unfold Storage.create
  cases hdir : t.dir with
  | none => exact h
  | some d =>
      obtain rfl := ht d hdir
      simp only
      split_ifs
      · constructor
        · intro e he
          rcases List.mem_insert_iff.1 he with rfl | he
          · exact ⟨rfl, isLogFile_logName t.date⟩
          · exact h.files e he
        · intro l hl
          obtain ⟨e, he, heq⟩ := h.disk l hl
          exact ⟨e, List.mem_insert_of_mem he, heq⟩
      · exact h

/-- A file that is not there has nothing in it. -/
theorem Tidy.length_eq_zero (h : x.Tidy dir) {e : Entry} (hdir : e.dir = dir)
    (he : e ∉ x.files) : x.length e = 0 := by
  have hnone : x.log.disk.filter (·.path == e.path) = [] := by
    refine List.filter_eq_nil_iff.2 fun l hl hpath => he ?_
    obtain ⟨a, ha, heq⟩ := h.disk l hl
    rwa [Entry.eq_of_path (hdir.trans (h.files a ha).1.symm) ((eq_of_beq hpath) ▸ heq.symm)]
  rw [length, fileLength, hnone]
  rfl

/-- A new file adds one to the count, and nothing to the total. -/
theorem Tidy.total_create (h : x.Tidy dir) (ht : ∀ d ∈ t.dir, d = dir) :
    (x.create t).total dir = x.total dir ∧
      ((x.create t).logs dir).length ≤ (x.logs dir).length + 1 := by
  have hcreate := h.create ht
  rw [total, total, hcreate.logs, h.logs]
  have hlength : (x.create t).length = x.length := funext fun e => by
    rw [length, length, log_create]
  rw [hlength]
  unfold Storage.create
  cases hdir : t.dir with
  | none => exact ⟨rfl, Nat.le_succ _⟩
  | some d =>
      obtain rfl := ht d hdir
      simp only
      split_ifs
      · simp only
        by_cases hmem : ⟨d, logName t.date⟩ ∈ x.files
        · rw [List.insert_of_mem hmem]
          exact ⟨rfl, Nat.le_succ _⟩
        · rw [List.insert_of_not_mem hmem, totalLength_cons, h.length_eq_zero rfl hmem]
          exact ⟨Nat.zero_add _, le_rfl⟩
      · exact ⟨rfl, Nat.le_succ _⟩

/-- The bounds of the directory. -/
def Small (dir : String) (x : Storage) : Prop :=
  (x.logs dir).length ≤ maxFiles ∧ x.total dir ≤ maxDirBytes

instance (dir : String) (x : Storage) : Decidable (x.Small dir) :=
  inferInstanceAs (Decidable (_ ∧ _))

theorem Tidy.prepare (h : x.Tidy dir) (ht : ∀ d ∈ t.dir, d = dir) :
    (x.prepare sweep t).Tidy dir := (h.remove _).create ht

/-- **The constructor starts from a directory that is small enough.** -/
theorem Tidy.room_prepare (h : x.Tidy dir) (ht : ∀ d ∈ t.dir, d = dir) :
    x.prepare sweep t = x ∨ (x.prepare sweep t).Small dir := by
  cases hdir : t.dir with
  | none =>
      have hsame : x.remove (x.pruned sweep t) = x := by
        simp [pruned, hdir, Storage.remove]
      exact .inl (by rw [Storage.prepare, hsame, Storage.create, hdir])
  | some d =>
      obtain rfl := ht d hdir
      obtain ⟨htotal, hcount⟩ := (h.remove (x.pruned sweep t)).total_create ht
      have hpruned : x.pruned sweep t = x.pruneOldLogs sweep d := by rw [pruned, hdir]
      obtain ⟨hroom, hleft⟩ := h.room_remove
      rw [hpruned] at htotal hcount
      rw [Storage.prepare, hpruned]
      exact .inr ⟨hcount.trans hroom, htotal.trans_le hleft⟩

theorem Tidy.small_prepare (h : x.Tidy dir) (hx : x.Small dir) (ht : ∀ d ∈ t.dir, d = dir) :
    (x.prepare sweep t).Small dir := by
  rcases h.room_prepare ht with heq | hsmall
  · rwa [heq]
  · exact hsmall

theorem Tidy.count_prepare (h : x.Tidy dir) (hx : (x.logs dir).length ≤ maxFiles)
    (ht : ∀ d ∈ t.dir, d = dir) : ((x.prepare sweep t).logs dir).length ≤ maxFiles := by
  rcases h.room_prepare ht with heq | hsmall
  · rwa [heq]
  · exact hsmall.1

/-- The new instance writes to a file of the directory. -/
theorem linked_prepare (x : Storage) (t : Target) :
    t.instance_.Linked (x.prepare sweep t).files := by
  intro path hpath
  unfold Target.instance_ at hpath
  split_ifs at hpath with hopens
  · unfold Target.file at hpath
    obtain ⟨d, hdir, rfl⟩ := Option.map_eq_some_iff.1 hpath
    refine ⟨⟨d, logName t.date⟩, ?_, ?_⟩
    · simp [prepare, create, hdir, hopens]
    · have hslash : ∀ s : String, "/" ++ ("carlinkit-" ++ s) = "/carlinkit-" ++ s := fun s => by
        rw [← String.append_assoc]
        rfl
      simp [Entry.path, logName, String.append_assoc, hslash]

end Storage

/-! ## The life of the directory -/

/-- An instance whose file is deleted has none that it writes to. -/
def Instance.unlink (gone : List Entry) (i : Instance) : Instance :=
  if ∃ e ∈ gone, i.writer = some e.path then { i with writer := none } else i

/-- What the constructor writes. -/
def firstLines (s : State) (t : Target) : List String :=
  (banner t t.file).map (stamp t.now) ++ flushPending t.now s.pendingLines s.droppedPendingLines

/-- The process ends and another one starts, or the class is called. -/
inductive Happening
  | newProcess
  | call (e : Event)

/-- The target that a constructor would find. -/
def Happening.target : Happening → Option Target
  | .newProcess => none
  | .call e => e.target

/-- There is one target. -/
def Happening.On (kind dir : String) (h : Happening) : Prop :=
  ∀ t ∈ h.target, t.kind = kind ∧ ∀ d ∈ t.dir, d = dir

instance (kind dir : String) (h : Happening) : Decidable (h.On kind dir) :=
  inferInstanceAs (Decidable (∀ t ∈ h.target, _ ∧ ∀ d ∈ t.dir, _))

/-- Lines for an instance, and the storage before they are written. -/
structure Hand where
  before : Storage
  writer : Instance
  lines : List String

namespace Storage

/-- The instance that is re-evaluated, after its first line and after the pruning. -/
def left (x : Storage) (i : Instance) (t : Target) : Instance :=
  (writeStamped i x.log.disk (stamp t.now "re-evaluating the log target...")).1.unlink
    ((x.announce i t).pruned sweep t)

/-- `reevaluateTarget`, with an instance that loses its file when it is pruned. -/
def reevaluate (x : Storage) (t : Target) : Storage :=
  match x.log.instance_ with
  | none => x.init sweep t
  | some i =>
      if i.targetKind = usbFlashDrive then x
      else
        let a := x.announce i t
        let old := x.left i t
        let y := a.prepare sweep t
        let fresh := construct y.log (a.target sweep t)
        if fresh.1.targetKind = usbFlashDrive then
          let moved := writeStamped old fresh.2
            (stamp t.now ("log moved to " ++ fresh.1.file.getD "null"))
          let cont := writeStamped fresh.1 moved.2
            (stamp t.now ("(continuation; previous log at " ++ i.file.getD "none" ++ ")"))
          { y with log := ⟨some cont.1, [], 0, cont.2, x.log.phase⟩ }
        else
          let kept := writeStamped old fresh.2 (stamp t.now "no better target found")
          { y with log := ⟨some kept.1, [], 0, kept.2, x.log.phase⟩ }

/-- What happens to the directory. -/
def happen (x : Storage) : Happening → Storage
  | .newProcess => { x with log := start x.log.disk }
  | .call (.init t) => x.init sweep t
  | .call (.reevaluateTarget t) => x.reevaluate t
  | .call e => { x with log := FileLog.step x.log e }

/-- What the constructor hands to the new instance, in the pruned directory. -/
def opening (x : Storage) (t : Target) : Hand :=
  ⟨x.prepare sweep t, t.instance_, firstLines (x.prepare sweep t).log (x.target sweep t)⟩

end Storage

/-- The storage after the lines. -/
def Hand.after (w : Hand) : Storage := w.before.write w.writer w.lines

/-- The lines fit beside what there is. -/
def Hand.Fits (dir : String) (w : Hand) : Prop :=
  w.writer.growth w.before.log.disk w.lines ≤ maxDirBytes - w.before.total dir

instance (dir : String) (w : Hand) : Decidable (w.Fits dir) := inferInstanceAs (Decidable (_ ≤ _))

namespace Storage

/-- All that is handed to instances, in order.  With one target no better one is found. -/
def handed (x : Storage) : Happening → List Hand
  | .newProcess => []
  | .call (.init t) =>
      match x.log.instance_ with
      | some _ => []
      | none => [x.opening t]
  | .call (.log now tag message thrown) =>
      x.log.instance_.toList.map fun i =>
        ⟨x, i, (fullLines tag message thrown).map (stamp now)⟩
  | .call (.reevaluateTarget t) =>
      match x.log.instance_ with
      | none => [x.opening t]
      | some i =>
          if i.targetKind = usbFlashDrive then []
          else
            let a := x.announce i t
            [⟨x, i, [stamp t.now "re-evaluating the log target..."]⟩, a.opening t,
              ⟨(a.opening t).after, x.left i t, [stamp t.now "no better target found"]⟩]
  | .call (.close now) =>
      x.log.instance_.toList.map fun i => ⟨x, i, [stamp now "=== log closed ==="]⟩

/-- The directory is small enough at any moment. -/
def Bounded (dir : String) (x : Storage) (h : Happening) : Prop :=
  (∀ w ∈ x.handed h, w.before.Small dir ∧ w.after.Small dir) ∧ (x.happen h).Small dir

/-- All that is written fits. -/
def Roomy (dir : String) (x : Storage) (h : Happening) : Prop := ∀ w ∈ x.handed h, w.Fits dir

instance (dir : String) (x : Storage) (h : Happening) : Decidable (x.Bounded dir h) :=
  inferInstanceAs (Decidable ((∀ w ∈ x.handed h, _ ∧ _) ∧ _))

instance (dir : String) (x : Storage) (h : Happening) : Decidable (x.Roomy dir h) :=
  inferInstanceAs (Decidable (∀ w ∈ x.handed h, _))

variable {kind dir : String} {x : Storage} {t : Target} {w : Hand} {h : Happening}

/-- **Where no file is pruned that is written to, it is `reevaluateTarget`.** -/
theorem reevaluate_eq (x : Storage) (t : Target)
    (hspared : ∀ i ∈ x.log.instance_, ∀ e ∈ (x.announce i t).pruned sweep t,
      i.writer ≠ some e.path) : x.reevaluate t = x.reevaluateTarget sweep t := by
  unfold reevaluate reevaluateTarget
  cases hinstance : x.log.instance_ with
  | none => rfl
  | some i =>
      have hsame : x.left i t =
          (writeStamped i x.log.disk (stamp t.now "re-evaluating the log target...")).1 := by
        refine if_neg ?_
        rintro ⟨e, he, hwriter⟩
        rcases (writer_writeAll i x.log.disk
          [stamp t.now "re-evaluating the log target..."]).1 with heq | hnone
        · exact hspared i hinstance e he (heq.symm.trans hwriter)
        · cases hnone.symm.trans hwriter
      simp only [hsame]

/-- The instance and the files that the class keeps of one target. -/
structure Only (kind dir : String) (x : Storage) : Prop where
  tidy : x.Tidy dir
  linked : ∀ i ∈ x.log.instance_, i.Linked x.files
  kind : ∀ i ∈ x.log.instance_, i.targetKind = kind

theorem small_after_iff (htidy : w.before.Tidy dir) (hlinked : w.writer.Linked w.before.files)
    (hsmall : w.before.Small dir) : w.after.Small dir ↔ w.Fits dir := by
  have htotal := htidy.total_write hlinked w.lines
  have hcount : (w.after.logs dir).length ≤ maxFiles := hsmall.1
  have hbefore := hsmall.2
  rw [Small, and_iff_right hcount, Hand.after, htotal, Hand.Fits]
  omega

theorem Tidy.congr {y : Storage} (htidy : x.Tidy dir) (hfiles : y.files = x.files)
    (hdisk : y.log.disk = x.log.disk) : y.Tidy dir where
  files := hfiles ▸ htidy.files
  disk := by
    rw [hfiles, hdisk]
    exact htidy.disk

theorem small_congr (dir : String) {y : Storage} (hfiles : y.files = x.files)
    (hdisk : y.log.disk = x.log.disk) : y.Small dir ↔ x.Small dir := by
  obtain ⟨htotal, hlogs⟩ := total_congr dir hfiles hdisk
  rw [Small, Small, htotal, hlogs]

/-- Nothing is written. -/
theorem bounded_iff_of_nil (hsmall : x.Small dir) (hhanded : x.handed h = [])
    (hfiles : (x.happen h).files = x.files) (hdisk : (x.happen h).log.disk = x.log.disk) :
    x.Bounded dir h ↔ x.Roomy dir h := by
  have hafter := (small_congr dir hfiles hdisk).2 hsmall
  simp [Bounded, Roomy, hhanded, hafter]

/-- One instance writes. -/
theorem bounded_iff_of_one (hhanded : x.handed h = [w]) (htidy : w.before.Tidy dir)
    (hlinked : w.writer.Linked w.before.files) (hsmall : w.before.Small dir)
    (hfiles : (x.happen h).files = w.after.files)
    (hdisk : (x.happen h).log.disk = w.after.log.disk) :
    x.Bounded dir h ↔ x.Roomy dir h := by
  have hafter := small_congr dir hfiles hdisk
  have hiff := small_after_iff htidy hlinked hsmall
  simp only [Bounded, Roomy, hhanded, List.mem_singleton, forall_eq, hafter, hsmall, true_and]
  rw [and_self_iff, hiff]

/-- A line to the instance. -/
theorem Only.write (hx : x.Only kind dir) {i : Instance} (hi : i ∈ x.log.instance_)
    (lines : List String) {y : Storage} (hfiles : y.files = x.files)
    (hdisk : y.log.disk = (writeAll i x.log.disk lines).2)
    (hinstance : ∀ j ∈ y.log.instance_, (j.writer = (writeAll i x.log.disk lines).1.writer ∨
      j.writer = none) ∧ j.targetKind = i.targetKind) : y.Only kind dir where
  tidy := (hx.tidy.write (hx.linked i hi) lines).congr hfiles hdisk
  linked j hj path hpath := by
    rw [hfiles]
    rcases (hinstance j hj).1 with heq | hnone
    · exact (hx.linked i hi).writeAll x.log.disk lines path (heq ▸ hpath)
    · cases hnone.symm.trans hpath
  kind j hj := (hinstance j hj).2.trans (hx.kind i hi)

/-- The constructor. -/
theorem Tidy.opening (htidy : x.Tidy dir) (ht : ∀ d ∈ t.dir, d = dir) :
    (x.opening t).before.Tidy dir ∧ (x.opening t).after.Tidy dir :=
  ⟨htidy.prepare ht, (htidy.prepare ht).write (linked_prepare x t) _⟩

theorem init_of_none (hnone : x.log.instance_ = none) (t : Target) :
    x.init sweep t =
      { x.prepare sweep t with
        log := ⟨some (construct (x.prepare sweep t).log (x.target sweep t)).1, [], 0,
          (construct (x.prepare sweep t).log (x.target sweep t)).2, .opened⟩ } := by
  have hprepare : (x.prepare sweep t).log.instance_ = none := by
    rw [prepare, log_create]
    exact hnone
  simp only [init, hnone, initStep, hprepare]

/-- With one target the instance stays, and gets two lines. -/
theorem reevaluate_of_some {i : Instance} (hinstance : x.log.instance_ = some i)
    (hkind : i.targetKind ≠ usbFlashDrive) (ht : t.kind = i.targetKind) :
    ∃ kept, x.reevaluate t =
        { (x.announce i t).prepare sweep t with
          log := ⟨some kept, [], 0, (Hand.mk ((x.announce i t).opening t).after (x.left i t)
            [stamp t.now "no better target found"]).after.log.disk, x.log.phase⟩ } ∧
      (kept.writer = (x.left i t).writer ∨ kept.writer = none) ∧
      kept.targetKind = i.targetKind := by
  have hfresh : (construct ((x.announce i t).prepare sweep t).log
      ((x.announce i t).target sweep t)).1.targetKind ≠ usbFlashDrive := by
    have hsame := (writer_writeAll t.instance_ ((x.announce i t).prepare sweep t).log.disk
      (firstLines ((x.announce i t).prepare sweep t).log ((x.announce i t).target sweep t))).2
    exact fun hdrive => hkind (ht.symm.trans (hsame.symm.trans hdrive))
  have hold := (writer_writeAll i x.log.disk [stamp t.now "re-evaluating the log target..."]).2
  have hlast := writer_writeAll (x.left i t) ((x.announce i t).opening t).after.log.disk
    [stamp t.now "no better target found"]
  refine ⟨_, ?_, hlast.1, hlast.2.trans ?_⟩
  · simp only [reevaluate, hinstance, if_neg hkind, if_neg hfresh]
    rfl
  · unfold left Instance.unlink
    split_ifs <;> exact hold

/-- The instance writes to a file that is still there. -/
theorem linked_left {i : Instance} (hi : i.Linked x.files) (t : Target) :
    (x.left i t).Linked ((x.announce i t).prepare sweep t).files := by
  intro path hpath
  unfold left Instance.unlink at hpath
  split_ifs at hpath with hgone
  obtain ⟨e, he, rfl⟩ := hi.writeAll x.log.disk
    [stamp t.now "re-evaluating the log target..."] path hpath
  have hstays : e ∈ ((x.announce i t).remove ((x.announce i t).pruned sweep t)).files :=
    List.mem_filter.2 ⟨he, decide_eq_true fun hmem => hgone ⟨e, hmem, hpath⟩⟩
  refine ⟨e, ?_, rfl⟩
  unfold prepare create
  split
  · split_ifs
    · exact List.mem_insert_of_mem hstays
    · exact hstays
  · exact hstays

theorem Only.init (hx : x.Only kind dir) (hnone : x.log.instance_ = none)
    (ht : t.kind = kind ∧ ∀ d ∈ t.dir, d = dir) : (x.init sweep t).Only kind dir := by
  have hwriter := writer_writeAll t.instance_ (x.prepare sweep t).log.disk
    (firstLines (x.prepare sweep t).log (x.target sweep t))
  rw [init_of_none hnone]
  refine ⟨(hx.tidy.opening ht.2).2.congr rfl rfl, ?_, ?_⟩
  · rintro j ⟨⟩
    exact (linked_prepare x t).writeAll _ _
  · rintro j ⟨⟩
    exact hwriter.2.trans ht.1

theorem Tidy.announce (htidy : x.Tidy dir) {i : Instance} (hi : i.Linked x.files) (t : Target) :
    (x.announce i t).Tidy dir :=
  (htidy.write hi [stamp t.now "re-evaluating the log target..."]).congr rfl rfl

/-- A re-evaluation leaves the instance of the target. -/
theorem Only.reevaluate (hx : x.Only kind dir) (ht : t.kind = kind ∧ ∀ d ∈ t.dir, d = dir) :
    (x.reevaluate t).Only kind dir := by
  cases hinstance : x.log.instance_ with
  | none =>
      have hsame : x.reevaluate t = x.init sweep t := by
        simp only [Storage.reevaluate, hinstance]
      rw [hsame]
      exact hx.init hinstance ht
  | some i =>
      by_cases hdrive : i.targetKind = usbFlashDrive
      · have hsame : x.reevaluate t = x := by
          simp only [Storage.reevaluate, hinstance, if_pos hdrive]
        rwa [hsame]
      · have hi := hx.kind i hinstance
        have hlinked := hx.linked i hinstance
        obtain ⟨kept, heq, hwriter, hkept⟩ :=
          reevaluate_of_some hinstance hdrive (ht.1.trans hi.symm)
        have htidy := ((hx.tidy.announce hlinked t).opening ht.2).2
        rw [heq]
        refine ⟨(htidy.write (linked_left hlinked t) _).congr rfl rfl, ?_, ?_⟩
        · rintro j ⟨⟩ path hpath
          rcases hwriter with hsame | hnone
          · exact linked_left hlinked t path (hsame ▸ hpath)
          · cases hnone.symm.trans hpath
        · rintro j ⟨⟩
          exact hkept.trans hi

/-- **One call keeps to the target.** -/
theorem Only.happen (hx : x.Only kind dir) (hon : h.On kind dir) : (x.happen h).Only kind dir := by
  cases h with
  | newProcess => exact ⟨hx.tidy.congr rfl rfl, by simp [Storage.happen, start], by
      simp [Storage.happen, start]⟩
  | call e =>
      cases e with
      | init t =>
          cases hinstance : x.log.instance_ with
          | none => exact hx.init hinstance (hon t rfl)
          | some i =>
              have hsame : x.happen (.call (.init t)) =
                  { x with log := { x.log with phase := .opened } } := by
                simp only [Storage.happen, Storage.init, hinstance, initStep]
              rw [hsame]
              exact ⟨hx.tidy.congr rfl rfl, hx.linked, hx.kind⟩
      | log now tag message thrown =>
          cases hinstance : x.log.instance_ with
          | none =>
              obtain ⟨hi, hd, -⟩ := buffer_frame now x.log (shortLines tag message thrown)
              have hlog : (x.happen (.call (.log now tag message thrown))).log =
                  (shortLines tag message thrown).foldl (buffer now) x.log := by
                simp only [Storage.happen, FileLog.step, logStep, hinstance]
              refine ⟨hx.tidy.congr rfl (by rw [hlog, hd]), ?_, ?_⟩ <;>
                simp [hlog, hi, hinstance]
          | some i =>
              refine hx.write hinstance ((fullLines tag message thrown).map (stamp now)) rfl ?_ ?_
              · simp only [Storage.happen, FileLog.step, logStep, hinstance]
              · simp only [Storage.happen, FileLog.step, logStep, hinstance]
                rintro j ⟨⟩
                exact ⟨.inl rfl, (writer_writeAll ..).2⟩
      | reevaluateTarget t => exact hx.reevaluate (hon t rfl)
      | close now =>
          cases hinstance : x.log.instance_ with
          | none =>
              have hsame : x.happen (.call (.close now)) =
                  { x with log := { x.log with phase := .closed } } := by
                simp only [Storage.happen, FileLog.step, closeStep, hinstance]
              rw [hsame]
              exact ⟨hx.tidy.congr rfl rfl, hx.linked, hx.kind⟩
          | some i =>
              refine hx.write hinstance [stamp now "=== log closed ==="] rfl ?_ ?_
              · simp only [Storage.happen, FileLog.step, closeStep, hinstance]
                rfl
              · simp only [Storage.happen, FileLog.step, closeStep, hinstance]
                rintro j ⟨⟩
                exact ⟨.inr rfl, (writer_writeAll i _ [_]).2⟩

/-- A directory that the constructor opens. -/
theorem bounded_iff_of_init (hx : x.Only kind dir) (hsmall : x.Small dir)
    (ht : ∀ d ∈ t.dir, d = dir) (hnone : x.log.instance_ = none)
    (hhanded : x.handed h = [x.opening t]) (hhappen : x.happen h = x.init sweep t) :
    x.Bounded dir h ↔ x.Roomy dir h := by
  refine bounded_iff_of_one hhanded (hx.tidy.prepare ht) (linked_prepare x t)
    (hx.tidy.small_prepare hsmall ht) ?_ ?_ <;>
  · rw [hhappen, init_of_none hnone]
    rfl

/-- The three steps of a re-evaluation. -/
theorem bounded_iff_of_some (hx : x.Only kind dir) (hsmall : x.Small dir) {i : Instance}
    (hinstance : x.log.instance_ = some i) (hkind : i.targetKind ≠ usbFlashDrive)
    (ht : t.kind = kind ∧ ∀ d ∈ t.dir, d = dir) :
    x.Bounded dir (.call (.reevaluateTarget t)) ↔ x.Roomy dir (.call (.reevaluateTarget t)) := by
  have hlinked := hx.linked i hinstance
  obtain ⟨kept, heq, -, -⟩ :=
    reevaluate_of_some hinstance hkind (ht.1.trans (hx.kind i hinstance).symm)
  have hannounce := hx.tidy.announce hlinked t
  have hopening := hannounce.opening ht.2
  -- each of them starts from a directory that is small enough when the one before left it so
  have hfirst := small_after_iff
    (w := ⟨x, i, [stamp t.now "re-evaluating the log target..."]⟩) hx.tidy hlinked hsmall
  have hbefore : (Hand.mk x i [stamp t.now "re-evaluating the log target..."]).after.Small dir →
      ((x.announce i t).opening t).before.Small dir := fun hafter =>
    hannounce.small_prepare ((small_congr dir rfl rfl).1 hafter) ht.2
  have hsecond := fun hafter => small_after_iff hopening.1
    (linked_prepare (x.announce i t) t) (hbefore hafter)
  have hthird := fun hafter => small_after_iff
    (w := ⟨((x.announce i t).opening t).after, x.left i t,
      [stamp t.now "no better target found"]⟩) hopening.2 (linked_left hlinked t) hafter
  have hend : (x.happen (.call (.reevaluateTarget t))).Small dir ↔
      (Hand.mk ((x.announce i t).opening t).after (x.left i t)
        [stamp t.now "no better target found"]).after.Small dir := by
    simp only [happen, heq]
    exact small_congr dir rfl rfl
  simp only [Bounded, Roomy, handed, hinstance, if_neg hkind, List.forall_mem_cons, hend]
  constructor
  · rintro ⟨⟨h1, h2, h3, -⟩, -⟩
    exact ⟨hfirst.1 h1.2, (hsecond h1.2).1 h2.2, (hthird h2.2).1 h3.2, by simp⟩
  · rintro ⟨h1, h2, h3, -⟩
    have hafter := hfirst.2 h1
    have hopened := (hsecond hafter).2 h2
    have hlast := (hthird hopened).2 h3
    exact ⟨⟨⟨hsmall, hafter⟩, ⟨hbefore hafter, hopened⟩, ⟨hopened, hlast⟩, by simp⟩, hlast⟩

/-- **One call keeps the bounds exactly when what it writes fits.** -/
theorem bounded_iff_roomy (hx : x.Only kind dir) (hsmall : x.Small dir) (hon : h.On kind dir) :
    x.Bounded dir h ↔ x.Roomy dir h := by
  cases h with
  | newProcess => exact bounded_iff_of_nil hsmall rfl rfl rfl
  | call e =>
      cases hinstance : x.log.instance_ with
      | none =>
          cases e with
          | init t =>
              exact bounded_iff_of_init hx hsmall (hon t rfl).2 hinstance
                (by simp only [handed, hinstance]) rfl
          | reevaluateTarget t =>
              exact bounded_iff_of_init hx hsmall (hon t rfl).2 hinstance
                (by simp only [handed, hinstance])
                (by simp only [happen, reevaluate, hinstance])
          | log now tag message thrown =>
              refine bounded_iff_of_nil hsmall (by simp [handed, hinstance]) rfl ?_
              simp only [happen, FileLog.step, logStep, hinstance]
              exact (buffer_frame now x.log (shortLines tag message thrown)).2.1
          | close now =>
              refine bounded_iff_of_nil hsmall (by simp [handed, hinstance]) rfl ?_
              simp only [happen, FileLog.step, closeStep, hinstance]
      | some i =>
          have hlinked := hx.linked i hinstance
          cases e with
          | init t =>
              refine bounded_iff_of_nil hsmall (by simp only [handed, hinstance]) ?_ ?_ <;>
                simp only [happen, init, hinstance, initStep]
          | reevaluateTarget t =>
              by_cases hdrive : i.targetKind = usbFlashDrive
              · refine bounded_iff_of_nil hsmall ?_ ?_ ?_ <;>
                  simp only [happen, handed, reevaluate, hinstance, if_pos hdrive]
              · exact bounded_iff_of_some hx hsmall hinstance hdrive (hon t rfl)
          | log now tag message thrown =>
              refine bounded_iff_of_one (w := ⟨x, i, _⟩) (by simp only [handed, hinstance]; rfl)
                hx.tidy hlinked hsmall rfl ?_
              simp only [happen, FileLog.step, logStep, hinstance]
              rfl
          | close now =>
              refine bounded_iff_of_one (w := ⟨x, i, _⟩) (by simp only [handed, hinstance]; rfl)
                hx.tidy hlinked hsmall rfl ?_
              simp only [happen, FileLog.step, closeStep, hinstance]
              rfl

/-- A call leaves the files alone, or its constructor prunes them and makes one. -/
theorem files_happen (hx : x.Only kind dir) (h : Happening) :
    (x.happen h).files = x.files ∨ ∃ y : Storage, ∃ t ∈ h.target, y.Tidy dir ∧
      y.files = x.files ∧ (x.happen h).files = (y.prepare sweep t).files := by
  cases h with
  | newProcess => exact .inl rfl
  | call e =>
      cases e with
      | log now tag message thrown | close now => exact .inl rfl
      | init t =>
          cases hinstance : x.log.instance_ with
          | none => exact .inr ⟨x, t, rfl, hx.tidy, rfl, by rw [happen, init_of_none hinstance]⟩
          | some i => exact .inl (by simp only [happen, init, hinstance])
      | reevaluateTarget t =>
          cases hinstance : x.log.instance_ with
          | none =>
              refine .inr ⟨x, t, rfl, hx.tidy, rfl, ?_⟩
              simp only [happen, reevaluate, hinstance, init_of_none hinstance]
          | some i =>
              by_cases hdrive : i.targetKind = usbFlashDrive
              · exact .inl (by simp only [happen, reevaluate, hinstance, if_pos hdrive])
              · refine .inr ⟨x.announce i t, t, rfl,
                  hx.tidy.announce (hx.linked i hinstance) t, rfl, ?_⟩
                simp only [happen, reevaluate, hinstance, if_neg hdrive]
                split_ifs <;> rfl

/-- **The count always holds.** -/
theorem count_happen (hx : x.Only kind dir) (hon : h.On kind dir)
    (hcount : (x.logs dir).length ≤ maxFiles) :
    ((x.happen h).logs dir).length ≤ maxFiles := by
  rw [(hx.happen hon).tidy.logs]
  rw [hx.tidy.logs] at hcount
  rcases files_happen hx h with hfiles | ⟨y, t, ht, hy, hfiles, hprepare⟩
  · rwa [hfiles]
  · rw [hprepare, ← (hy.prepare (hon t ht).2).logs]
    exact hy.count_prepare (by rwa [hy.logs, hfiles]) (hon t ht).2

/-- Before the first start. -/
def empty : Storage := ⟨start [], [], .nil⟩

theorem only_empty (kind dir : String) : empty.Only kind dir where
  tidy := ⟨by simp [empty], by simp [empty, start]⟩
  linked := by simp [empty, start]
  kind := by simp [empty, start]

/-- **There are never more than `MAX_FILES` logs**, whatever is written. -/
theorem counted_log_run (kind dir : String) (hs : List Happening)
    (hon : Along happen (fun _ h => h.On kind dir) empty hs) :
    ((run happen empty hs).logs dir).length ≤ maxFiles :=
  (hon.invariant (I := fun x => x.Only kind dir ∧ (x.logs dir).length ≤ maxFiles)
    (fun _ _ hx hon => ⟨hx.1.happen hon, count_happen hx.1 hon hx.2⟩)
    ⟨only_empty kind dir, Nat.zero_le _⟩).2

/-- **When the cap of the log directory holds.**  For every sequence of starts, calls and
lines over one target, with every log deletable: at any moment there are at most `MAX_FILES`
logs of at most `MAX_DIR_BYTES` together, exactly when whatever is written fits beside what
the last pruning left and what was written since. -/
theorem bounded_iff (kind dir : String) (hs : List Happening)
    (hon : Along happen (fun _ h => h.On kind dir) empty hs) :
    Along happen (Bounded dir) empty hs ↔ Along happen (Roomy dir) empty hs :=
  along_iff (I := fun x => x.Only kind dir ∧ x.Small dir)
    (fun _ _ hx hon => bounded_iff_roomy hx.1 hx.2 hon)
    (fun _ _ hx hon hroomy =>
      ⟨hx.1.happen hon, ((bounded_iff_roomy hx.1 hx.2 hon).2 hroomy).2⟩)
    ⟨only_empty kind dir, Nat.zero_le _, Nat.zero_le _⟩ hon

/-- Two starts and a re-evaluation, with a line each. -/
def ordinary : List Happening :=
  [.call (.init (appStorage 0)), .call (.log "12:00:01.000" "Carlinkit" "onCreate" none),
    .newProcess, .call (.log "12:00:02.000" "ODA" "whitelist" none),
    .call (.init (appStorage 2)), .call (.reevaluateTarget (appStorage 3)),
    .call (.close "12:00:04.000")]

theorem bounded_iff_ordinary :
    Along happen (fun _ h => h.On "app external storage" "/sdcard/carlinkit") empty ordinary ∧
      Along happen (Bounded "/sdcard/carlinkit") empty ordinary :=
  ⟨by decide +kernel,
    (bounded_iff "app external storage" "/sdcard/carlinkit" ordinary (by decide +kernel)).2
      (by decide +kernel)⟩

/-- A text of `n` characters. -/
def padding : ℕ → String
  | 0 => ""
  | n + 1 => (padding n).push 'x'

theorem utf8ByteSize_padding (n : ℕ) : (padding n).utf8ByteSize = n := by
  induction n with
  | zero => rfl
  | succ n ih =>
      rw [padding, String.utf8ByteSize_push, ih]
      rfl

/-- A line longer than the cap does not fit. -/
theorem not_fits_long (x : Storage) {i : Instance} {path : String}
    (hwriter : i.writer = some path) (now tag : String) {message : String}
    (hlong : maxDirBytes ≤ message.utf8ByteSize) (dir : String) :
    ¬ (Hand.mk x i ((fullLines tag message none).map (stamp now))).Fits dir := by
  intro hfits
  have hgrows := le_growth (fileLength x.log.disk path)
    (stamp now (tag ++ ": " ++ message)) []
  have hline : maxDirBytes < lineBytes (stamp now (tag ++ ": " ++ message)) := by
    simp only [lineBytes, stamp, String.utf8ByteSize_append]
    omega
  simp only [Hand.Fits, Instance.growth, hwriter] at hfits
  exact absurd (hline.trans_le (hgrows.trans (hfits.trans (Nat.sub_le ..)))) (lt_irrefl _)

/-- **The file outgrows the directory.**  Nothing prunes it while it is written to. -/
theorem not_bounded_grown :
    ¬ ∀ kind dir hs, Along happen (fun _ h => h.On kind dir) empty hs →
      Along happen (Bounded dir) empty hs := by
  intro hall
  obtain ⟨message, hmessage⟩ : ∃ message : String, message.utf8ByteSize = maxDirBytes :=
    ⟨padding maxDirBytes, utf8ByteSize_padding maxDirBytes⟩
  have hinit : (Happening.call (.init (appStorage 0))).On "app external storage"
      "/sdcard/carlinkit" := by decide +kernel
  have hlog : (Happening.call (.log "12:00:01.000" "Carlinkit" message none)).On
      "app external storage" "/sdcard/carlinkit" := fun t ht => by
    simp [Happening.target, Event.target] at ht
  obtain ⟨hfirst, hsecond, -⟩ := hall "app external storage" "/sdcard/carlinkit" [_, _]
    ⟨hinit, hlog, trivial⟩
  have hroomy := (bounded_iff_roomy ((only_empty _ _).happen hinit) hfirst.2 hlog).1 hsecond
  obtain ⟨i, hinstance, hwriter⟩ :
      ∃ i, (empty.happen (.call (.init (appStorage 0)))).log.instance_ = some i ∧
        i.writer = some "/sdcard/carlinkit/carlinkit-20260101-120010.log" :=
    Option.bind_eq_some_iff.1 (by decide +kernel)
  have hfits := hroomy ⟨_, i, (fullLines "Carlinkit" message none).map (stamp "12:00:01.000")⟩ (by
    simp only [handed, hinstance]
    exact List.mem_singleton_self _)
  exact not_fits_long _ hwriter _ _ hmessage.ge _ hfits

end Storage
end FileLog
end App
end Carlinkit
