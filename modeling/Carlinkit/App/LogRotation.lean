/-
# The rotation of the log files

`pruneOldLogs` runs whenever a `CarlinkitFileLog` is made, before its file is, and deletes
the oldest files of the directory until there is room.  `reevaluateTarget` makes a whole
new instance only to see where it would write, so the directory gets another file each
time, and the file that is written to comes to be the oldest one.

`Storage` puts the files beside the class of `Carlinkit.App.FileLog`; what the lines of a
file take is its length.  `spares_iff` says when the file of the instance survives a call:
when there is room without deleting a file that is not older.  What is written to a file
after it was deleted is not followed here.
-/

import Mathlib.Data.List.Sort
import Carlinkit.App.FileLog
import Carlinkit.App.LogFiles

namespace Carlinkit
namespace App

open Machine

/-- `MAX_FILES`. -/
def maxFiles : ℕ := 15

/-- `MAX_DIR_BYTES`. -/
def maxDirBytes : ℕ := 4 * 1024 * 1024

/-- A file in a directory. -/
structure Entry where
  dir : String
  name : String
deriving DecidableEq, Repr

/-- `getAbsolutePath`. -/
def Entry.path (e : Entry) : String := e.dir ++ "/" ++ e.name

/-- `BY_NAME`, on files. -/
def Entry.Before (a b : Entry) : Prop := byName a.name b.name = true

instance : DecidableRel Entry.Before := fun _ _ => inferInstanceAs (Decidable (_ = _))

instance : Std.Total Entry.Before where
  total a b := by
    rcases Bool.or_eq_true _ _ ▸ byName_total a.name b.name with h | h
    · exact .inl h
    · exact .inr h

instance : IsTrans Entry Entry.Before where
  trans a b c := byName_trans a.name b.name c.name

/-- The loop of `pruneOldLogs`, with how many files there are left and how long they are;
its result are the files that it deletes. -/
def pruneLoop (length : Entry → ℕ) (deletes : Entry → Bool) : ℕ → ℕ → List Entry → List Entry
  | _, _, [] => []
  | count, total, e :: es =>
      if maxFiles ≤ count ∨ maxDirBytes < total then
        if deletes e then e :: pruneLoop length deletes (count - 1) (total - length e) es
        else pruneLoop length deletes count total es
      else []

/-- How long the files are together. -/
def totalLength (length : Entry → ℕ) (es : List Entry) : ℕ := (es.map length).sum

namespace FileLog

/-- The class and the files on the disk. -/
structure Storage where
  log : State
  files : List Entry
  nodup : files.Nodup

/-- The target that the constructor would find in a call. -/
def Event.target : Event → Option Target
  | .init t | .reevaluateTarget t => some t
  | .log .. | .close _ => none

/-- A call of the class with no flash drive: `listFiles` says that the directory can be read,
and `deletes` which files can be deleted. -/
structure Call where
  event : Event
  listFiles : Bool
  deletes : Entry → Bool
  noFlashDrive : ∀ t ∈ event.target, t.kind ≠ usbFlashDrive

namespace Storage

/-- `File.length`. -/
def length (x : Storage) (e : Entry) : ℕ := fileLength x.log.disk e.path

/-- `listFiles(LOG_FILES)`. -/
def logs (x : Storage) (dir : String) : List Entry :=
  x.files.filter fun e => e.dir = dir ∧ isLogFile e.name = true

/-- The logs, the oldest first. -/
def sortedLogs (x : Storage) (dir : String) : List Entry :=
  (x.logs dir).insertionSort Entry.Before

/-- `pruneOldLogs`: what it deletes. -/
def pruneOldLogs (x : Storage) (c : Call) (dir : String) : List Entry :=
  if c.listFiles then
    pruneLoop x.length c.deletes (x.logs dir).length (totalLength x.length (x.logs dir))
      (x.sortedLogs dir)
  else []

/-- The files go, with what was written to them. -/
def remove (x : Storage) (gone : List Entry) : Storage where
  log := { x.log with disk := x.log.disk.filter fun l => ∀ e ∈ gone, e.path ≠ l.path }
  files := x.files.filter (· ∉ gone)
  nodup := x.nodup.filter _

/-- `new FileWriter(file, true)`. -/
def create (x : Storage) (t : Target) : Storage :=
  match t.dir with
  | some dir =>
      if t.opens then
        { x with files := x.files.insert ⟨dir, logName t.date⟩, nodup := x.nodup.insert }
      else x
  | none => x

/-- What the constructor deletes. -/
def pruned (x : Storage) (c : Call) (t : Target) : List Entry :=
  match t.dir with
  | some dir => x.pruneOldLogs c dir
  | none => []

/-- The files as the constructor leaves them. -/
def prepare (x : Storage) (c : Call) (t : Target) : Storage := (x.remove (x.pruned c t)).create t

/-- The target, with the number of files that were pruned. -/
def target (x : Storage) (c : Call) (t : Target) : Target :=
  { t with pruned := (x.pruned c t).length }

/-- `init`. -/
def init (x : Storage) (c : Call) (t : Target) : Storage :=
  match x.log.instance_ with
  | some _ => { x with log := initStep x.log t }
  | none =>
      { x.prepare c t with log := initStep (x.prepare c t).log (x.target c t) }

/-- The first line of `reevaluateTarget`. -/
def announce (x : Storage) (i : Instance) (t : Target) : Storage :=
  let old := writeStamped i x.log.disk (stamp t.now "re-evaluating the log target...")
  { x with log := { x.log with instance_ := some old.1, disk := old.2 } }

/-- `reevaluateTarget`. -/
def reevaluateTarget (x : Storage) (c : Call) (t : Target) : Storage :=
  match x.log.instance_ with
  | none => x.init c t
  | some i =>
      if i.targetKind = usbFlashDrive then x
      else
        let old := writeStamped i x.log.disk (stamp t.now "re-evaluating the log target...")
        let y := (x.announce i t).prepare c t
        let fresh := construct y.log ((x.announce i t).target c t)
        if fresh.1.targetKind = usbFlashDrive then
          let moved := writeStamped old.1 fresh.2
            (stamp t.now ("log moved to " ++ fresh.1.file.getD "null"))
          let cont := writeStamped fresh.1 moved.2
            (stamp t.now ("(continuation; previous log at " ++ i.file.getD "none" ++ ")"))
          { y with log := ⟨some cont.1, [], 0, cont.2, x.log.phase⟩ }
        else
          let kept := writeStamped old.1 fresh.2 (stamp t.now "no better target found")
          { y with log := ⟨some kept.1, [], 0, kept.2, x.log.phase⟩ }

/-- One call. -/
def step (x : Storage) (c : Call) : Storage :=
  match c.event with
  | .init t => x.init c t
  | .reevaluateTarget t => x.reevaluateTarget c t
  | e => { x with log := FileLog.step x.log e }

/-- Where a call runs the constructor: the storage and the target. -/
def constructing (x : Storage) (c : Call) : Option (Storage × Target) :=
  match c.event with
  | .init t => if x.log.instance_ = none then some (x, t) else none
  | .reevaluateTarget t =>
      match x.log.instance_ with
      | none => some (x, t)
      | some i => if i.targetKind = usbFlashDrive then none else some (x.announce i t, t)
  | _ => none

/-- The file that the instance is writing to. -/
def writing (x : Storage) : Option String := x.log.instance_.bind (·.writer)

/-- `pruneOldLogs` does not delete the file that the instance is writing to. -/
def Spares (x : Storage) (c : Call) : Prop :=
  ∀ y ∈ x.constructing c, ∀ path ∈ y.1.writing, ∀ e ∈ y.1.pruned c y.2, e.path ≠ path

instance (x : Storage) (c : Call) : Decidable (x.Spares c) :=
  inferInstanceAs (Decidable (∀ y ∈ x.constructing c, ∀ path ∈ y.1.writing, ∀ e ∈ _, _))

/-- The logs that stay when those go that are older than a file and can be deleted. -/
def staying (x : Storage) (c : Call) (a : Entry) : List Entry :=
  (x.logs a.dir).filter fun e => ¬ (codeUnits e.name < codeUnits a.name ∧ c.deletes e = true)

/-- Without the older logs there is room for one more file. -/
def Room (x : Storage) (c : Call) (a : Entry) : Prop :=
  (x.staying c a).length < maxFiles ∧ totalLength x.length (x.staying c a) ≤ maxDirBytes

instance (x : Storage) (c : Call) (a : Entry) : Decidable (x.Room c a) :=
  inferInstanceAs (Decidable (_ ∧ _))

/-- Where the constructor finds the file that the instance is writing to and could delete
it, there is room without it. -/
def Young (x : Storage) (c : Call) : Prop :=
  ∀ y ∈ x.constructing c, ∀ path ∈ y.1.writing, ∀ dir ∈ y.2.dir, ∀ e ∈ y.1.logs dir,
    e.path = path → c.listFiles = true → c.deletes e = true → y.1.Room c e

instance (x : Storage) (c : Call) : Decidable (x.Young c) :=
  inferInstanceAs (Decidable (∀ y ∈ x.constructing c, ∀ path ∈ y.1.writing, ∀ dir ∈ y.2.dir,
    ∀ e ∈ y.1.logs dir, _ → _ → _ → _))

end Storage
end FileLog

/-! ## The class beside its files -/

namespace FileLog

/-- The target of a call, with another number of pruned files. -/
def Event.withPruned (n : ℕ) : Event → Event
  | .init t => .init { t with pruned := n }
  | .reevaluateTarget t => .reevaluateTarget { t with pruned := n }
  | e => e

namespace Storage

variable {x : Storage} {c : Call} {t : Target}

@[simp] theorem log_create (x : Storage) (t : Target) : (x.create t).log = x.log := by
  unfold create
  split
  · split_ifs <;> rfl
  · rfl

theorem log_prepare (h : x.pruned c t = []) : (x.prepare c t).log = x.log := by
  simp [prepare, h, remove]

theorem log_init (h : x.log.instance_ = none → x.pruned c t = []) :
    (x.init c t).log = initStep x.log { t with pruned := 0 } := by
  unfold init
  cases hinstance : x.log.instance_ with
  | none =>
      have hpruned := h hinstance
      simp only [log_prepare hpruned, target, hpruned, List.length_nil]
  | some i => simp only [initStep, hinstance]

/-- **Where nothing is pruned, the class is the one of `Carlinkit.App.FileLog`.** -/
theorem log_step (h : ∀ y ∈ x.constructing c, y.1.pruned c y.2 = []) :
    (x.step c).log = FileLog.step x.log (c.event.withPruned 0) := by
  unfold step constructing at *
  cases hevent : c.event with
  | init t =>
      rw [hevent] at h
      refine log_init fun hnone => ?_
      exact h (x, t) (by simp [hnone])
  | reevaluateTarget t =>
      rw [hevent] at h
      simp only [FileLog.step, Event.withPruned, reevaluateStep, reevaluateTarget]
      cases hinstance : x.log.instance_ with
      | none =>
          refine log_init fun hnone => ?_
          exact h (x, t) (by simp [hnone])
      | some i =>
          dsimp only
          by_cases hdrive : i.targetKind = usbFlashDrive
          · rw [if_pos hdrive, if_pos hdrive]
          · rw [if_neg hdrive, if_neg hdrive]
            have hpruned : (x.announce i t).pruned c t = [] := by
              refine h (x.announce i t, t) ?_
              simp [hinstance, hdrive]
            have hfresh : construct ((x.announce i t).prepare c t).log
                  ((x.announce i t).target c t) =
                construct
                  { x.log with
                    disk := (writeStamped i x.log.disk
                      (stamp t.now "re-evaluating the log target...")).2 }
                  { t with pruned := 0 } := by
              rw [log_prepare hpruned, target, hpruned]
              rfl
            rw [hfresh, apply_ite Storage.log]
            rfl
  | log now tag message thrown => rfl
  | close now => rfl

end Storage
end FileLog

/-! ## The loop -/

section Loop

variable {length : Entry → ℕ} {deletes : Entry → Bool} {older newer es : List Entry} {a : Entry}

@[simp] theorem totalLength_cons (e : Entry) (es : List Entry) :
    totalLength length (e :: es) = length e + totalLength length es := by simp [totalLength]

@[simp] theorem totalLength_append (es fs : List Entry) :
    totalLength length (es ++ fs) = totalLength length es + totalLength length fs := by
  simp [totalLength]

theorem totalLength_perm (length : Entry → ℕ) {fs : List Entry} (h : es.Perm fs) :
    totalLength length es = totalLength length fs := (h.map length).sum_nat

/-- What can be deleted and what cannot. -/
theorem totalLength_filter_add (length : Entry → ℕ) (p : Entry → Bool) (es : List Entry) :
    totalLength length (es.filter p) + totalLength length (es.filter fun e => !p e) =
      totalLength length es := by
  induction es with
  | nil => rfl
  | cons e es ih =>
      cases he : p e <;> simp [he] <;> omega

theorem deletes_of_mem_pruneLoop {count total : ℕ}
    (h : a ∈ pruneLoop length deletes count total es) : a ∈ es ∧ deletes a = true := by
  induction es generalizing count total with
  | nil => simp [pruneLoop] at h
  | cons e es ih =>
      rw [pruneLoop] at h
      split_ifs at h with hfull hdeletes
      · obtain rfl | h := List.mem_cons.1 h
        · exact ⟨List.mem_cons_self .., hdeletes⟩
        · exact ⟨List.mem_cons_of_mem _ (ih h).1, (ih h).2⟩
      · exact ⟨List.mem_cons_of_mem _ (ih h).1, (ih h).2⟩
      · simp at h

/-- **When the loop comes to a file.**  By then the older ones that can be deleted are
gone. -/
theorem mem_pruneLoop_append (ha : a ∉ older) (count total : ℕ) :
    a ∈ pruneLoop length deletes count total (older ++ a :: newer) ↔
      deletes a = true ∧ (maxFiles ≤ count - (older.filter deletes).length ∨
        maxDirBytes < total - totalLength length (older.filter deletes)) := by
  induction older generalizing count total with
  | nil =>
      simp only [List.nil_append, pruneLoop, List.filter_nil, List.length_nil, Nat.sub_zero]
      split_ifs with hfull hdeletes
      · exact iff_of_true (List.mem_cons_self ..) ⟨hdeletes, hfull⟩
      · refine iff_of_false (fun hmem => hdeletes (deletes_of_mem_pruneLoop hmem).2) ?_
        exact fun h => hdeletes h.1
      · refine iff_of_false (by simp) fun h => hfull ?_
        simpa [totalLength] using h.2
  | cons e older ih =>
      have hne := List.ne_of_not_mem_cons ha
      have hrest := List.not_mem_of_not_mem_cons ha
      rw [List.cons_append, pruneLoop]
      split_ifs with hfull hdeletes
      · rw [List.mem_cons, or_iff_right hne, ih hrest, List.filter_cons_of_pos hdeletes,
          List.length_cons, totalLength_cons, Nat.sub_sub, Nat.sub_sub, Nat.add_comm 1]
      · rw [ih hrest, List.filter_cons_of_neg hdeletes]
      · -- the loop has ended, and what comes later would not have made it go on
        refine iff_of_false (by simp) ?_
        rintro ⟨-, hcount | htotal⟩
        · exact hfull (.inl (Nat.le_trans hcount (Nat.sub_le ..)))
        · exact hfull (.inr (Nat.lt_of_lt_of_le htotal (Nat.sub_le ..)))

end Loop

namespace FileLog
namespace Storage

variable {x : Storage} {c : Call} {a : Entry}

theorem mem_logs {dir : String} :
    a ∈ x.logs dir ↔ a ∈ x.files ∧ a.dir = dir ∧ isLogFile a.name = true := by
  simp [logs]

/-- The older logs come before a file, and the others behind it. -/
theorem sortedLogs_split {dir : String} (ha : a ∈ x.logs dir) :
    ∃ older newer, x.sortedLogs dir = older ++ a :: newer ∧ a ∉ older ∧
      (∀ e ∈ older, codeUnits e.name < codeUnits a.name) ∧
      ∀ e ∈ newer, ¬ codeUnits e.name < codeUnits a.name := by
  have hperm : (x.sortedLogs dir).Perm (x.logs dir) := List.perm_insertionSort _ _
  obtain ⟨older, newer, hsplit⟩ := List.append_of_mem (hperm.mem_iff.2 ha)
  have hnodup : (older ++ a :: newer).Nodup := hsplit ▸ hperm.nodup_iff.2 (x.nodup.filter _)
  have hsorted : (older ++ a :: newer).Pairwise Entry.Before :=
    hsplit ▸ List.pairwise_insertionSort _ _
  have hdir : ∀ e ∈ older ++ a :: newer, e.dir = dir := by
    intro e he
    exact (mem_logs.1 (hperm.mem_iff.1 (hsplit ▸ he))).2.1
  obtain ⟨-, hcons, hcross⟩ := List.pairwise_append.1 hsorted
  have hnotMem : a ∉ older := fun hmem =>
    (List.nodup_append.1 hnodup).2.2 a hmem a (List.mem_cons_self ..) rfl
  refine ⟨older, newer, hsplit, hnotMem, fun e he => ?_, fun e he => ?_⟩
  · have hle := of_decide_eq_true (hcross e he a (List.mem_cons_self ..))
    refine lt_of_le_of_ne hle fun heq => hnotMem ?_
    have hname := codeUnits_injective heq
    have hsame : e.dir = a.dir :=
      (hdir e (List.mem_append_left _ he)).trans
        (hdir a (List.mem_append_right _ (List.mem_cons_self ..))).symm
    obtain ⟨d, n⟩ := e
    obtain ⟨d', n'⟩ := a
    obtain rfl : d = d' := hsame
    obtain rfl : n = n' := hname
    exact he
  · exact not_lt.2 (of_decide_eq_true ((List.pairwise_cons.1 hcons).1 e he))

/-- **When `pruneOldLogs` deletes a file.**  It can, and there is no room without it. -/
theorem mem_pruneOldLogs (ha : a ∈ x.logs a.dir) :
    a ∈ x.pruneOldLogs c a.dir ↔
      c.listFiles = true ∧ c.deletes a = true ∧ ¬ x.Room c a := by
  unfold pruneOldLogs
  split_ifs with hlist
  · obtain ⟨older, newer, hsplit, hnotMem, holder, hnewer⟩ := sortedLogs_split ha
    have hperm : (older ++ a :: newer).Perm (x.logs a.dir) :=
      hsplit ▸ List.perm_insertionSort _ _
    have hstay : (x.staying c a).Perm ((older.filter fun e => !c.deletes e) ++ a :: newer) := by
      refine (hperm.symm.filter _).trans (List.Perm.of_eq ?_)
      rw [List.filter_append, List.filter_cons_of_pos (by simp)]
      congr 1
      · exact List.filter_congr fun e he => by simp [holder e he]
      · rw [List.filter_eq_self.2 fun e he => by simp [hnewer e he]]
    have hlength := hstay.length_eq
    have htotal := totalLength_perm x.length hstay
    have hall := hperm.length_eq
    have hallTotal := totalLength_perm x.length hperm
    have hparts := List.length_eq_length_filter_add (l := older) c.deletes
    have hpartsTotal := totalLength_filter_add x.length c.deletes older
    simp only [List.length_append, List.length_cons, totalLength_append, totalLength_cons]
      at hlength htotal hall hallTotal
    rw [hsplit, mem_pruneLoop_append hnotMem, and_iff_right hlist, Room]
    refine and_congr_right fun _ => ?_
    omega
  · simp [hlist]

theorem mem_logs_of_mem_pruneOldLogs {dir : String} (ha : a ∈ x.pruneOldLogs c dir) :
    a ∈ x.logs dir := by
  unfold pruneOldLogs at ha
  split_ifs at ha
  · exact (List.mem_insertionSort _).1 (deletes_of_mem_pruneLoop ha).1
  · simp at ha

/-- **One call.**  The file of the instance goes exactly when it is no longer young. -/
theorem spares_iff_young (x : Storage) (c : Call) : x.Spares c ↔ x.Young c := by
  constructor
  · intro hspares y hy path hpath dir hdir e he hepath hlist hdeletes
    by_contra hroom
    obtain rfl : e.dir = dir := (mem_logs.1 he).2.1
    refine hspares y hy path hpath e ?_ hepath
    rw [pruned, Option.mem_def.1 hdir]
    exact (mem_pruneOldLogs he).2 ⟨hlist, hdeletes, hroom⟩
  · intro hyoung y hy path hpath e he hepath
    unfold pruned at he
    cases hdir : y.2.dir with
    | none => simp [hdir] at he
    | some dir =>
        rw [hdir] at he
        have hlogs := mem_logs_of_mem_pruneOldLogs he
        obtain rfl : e.dir = dir := (mem_logs.1 hlogs).2.1
        obtain ⟨hlist, hdeletes, hroom⟩ := (mem_pruneOldLogs hlogs).1 he
        exact hroom (hyoung y hy path hpath e.dir hdir e hlogs hepath hlist hdeletes)

/-- **When the log file is safe from the rotation.**  For every sequence of calls without a
flash drive, over any files: `pruneOldLogs` never deletes the file that the instance is
writing to, exactly when at each construction that finds it and could delete it there are
few and short enough logs without the older ones. -/
theorem spares_iff (x : Storage) (cs : List Call) :
    Along step Spares x cs ↔ Along step Young x cs :=
  along_iff_of_invariant (I := fun _ => True) (fun x c _ => spares_iff_young x c)
    (fun _ _ _ _ => trivial) trivial cs

/-- The app storage, at some second. -/
def appStorage (second : ℕ) : Target where
  kind := "app external storage"
  dir := some "/sdcard/carlinkit"
  diag := []
  pruned := 0
  rescued := 0
  rescuedBytes := 0
  device := "Honda"
  date := "20260101-1200" ++ toString (10 + second)
  now := "12:00"
  opens := true

theorem noFlashDrive_appStorage (second : ℕ) : (appStorage second).kind ≠ usbFlashDrive := by
  show "app external storage" ≠ usbFlashDrive
  decide

/-- The first call, with nothing to prune. -/
def firstInit : Call where
  event := .init (appStorage 0)
  listFiles := true
  deletes _ := true
  noFlashDrive := by
    rintro t ⟨⟩
    exact noFlashDrive_appStorage 0

/-- The re-evaluation at a second; every log can be deleted. -/
def reevaluation (second : ℕ) : Call where
  event := .reevaluateTarget (appStorage second)
  listFiles := true
  deletes _ := true
  noFlashDrive := by
    rintro t ⟨⟩
    exact noFlashDrive_appStorage second

/-- **Fifteen re-evaluations.**  Each one leaves a newer file, and the last one deletes the
file that is written to. -/
theorem not_spares_reevaluated :
    ¬ Along step Spares ⟨start [], [], .nil⟩
      (firstInit :: (List.range 15).map fun i => reevaluation (i + 1)) := by
  decide +kernel

end Storage
end FileLog
end App
end Carlinkit
