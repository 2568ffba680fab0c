/-
# Where the log goes

"This head unit has no documented path for the flash drive", so `chooseTarget` asks the kernel:
it reads `/proc/mounts`, takes the writable mount points that look like USB, adds the paths where
head units mount their drives, and keeps the first place that has its directory or lets it be
made.  After the flash drives come the storage of the app, the external one, other mount points
and the internal storage.  `reevaluateTarget` asks again when a drive may have come.

`mountOf_eq_some_iff` is the format of a line.  `chooseTarget_eq` says that the choice is the
first of `preferences` that is available.  `place_run` is the whole class: whatever is logged in
between, the log of a process is where the first call that found a flash drive put it, for good,
and before any did, where the first call put it.
-/

import Carlinkit.App.FileLog
import Carlinkit.Framing.Fields
import Mathlib.Data.List.Infix

namespace Carlinkit
namespace App
namespace LogTarget

open Framing Machine FileLog

/-! ### The mount points -/

/-- The characters of `\s`. -/
def space (c : Char) : Bool :=
  c = ' ' || c = '\t' || c = '\n' || c = '\x0B' || c = '\x0C' || c = '\r'

/-- A line of `/proc/mounts`. -/
structure Mount where
  device : String
  path : String
  type : String
deriving DecidableEq, Repr

/-- One line of `readMounts`. -/
def mountOf (line : String) : Option Mount :=
  match fields space line.toList with
  | device :: path :: type :: _ => some ⟨.ofList device, .ofList path, .ofList type⟩
  | _ => none

/-- `readMounts`, of the lines that can be read. -/
def readMounts (lines : List String) : List Mount := lines.filterMap mountOf

/-- **The format of a line.**  A line is a mount exactly when its device, path and type are
separated by runs of spaces and followed by one or by the end.  The device is empty where the
line begins with a space; the path and the type never are, and none of them has a space. -/
theorem mountOf_eq_some_iff {line : String} {m : Mount} :
    mountOf line = some m ↔ ∃ r₁ r₂ rest,
      line.toList = m.device.toList ++ r₁ ++ (m.path.toList ++ r₂ ++ (m.type.toList ++ rest)) ∧
        Plain space m.device.toList ∧ (m.path.toList ≠ [] ∧ Plain space m.path.toList) ∧
        (m.type.toList ≠ [] ∧ Plain space m.type.toList) ∧ Run space r₁ ∧ Run space r₂ ∧
        ∀ c ∈ rest.head?, space c = true := by
  rw [← fields_eq_iff, mountOf]
  constructor
  · intro h
    split at h
    · rename_i device path type more hfields
      cases h
      exact ⟨more, by simpa using hfields⟩
    · cases h
  · rintro ⟨more, hfields⟩
    rw [hfields]
    simp

/-! ### The storage -/

/-- `new File(path)`: one slash for several, and none at the end. -/
def squeeze : Bool → List Char → List Char
  | _, [] => []
  | lastWasSlash, c :: cs =>
      if c = '/' then if lastWasSlash then squeeze true cs else c :: squeeze true cs
      else c :: squeeze false cs

/-- The path of `new File(path)`. -/
def file (path : String) : String :=
  let cs := squeeze false path.toList
  .ofList (if 1 < cs.length ∧ cs.getLast? = some '/' then cs.dropLast else cs)

/-- The path of `new File(dir, name)`. -/
def child (dir name : String) : String := file (dir ++ "/" ++ name)

/-- What `chooseTarget` can find. -/
structure Storage where
  /-- the lines of `/proc/mounts` -/
  mounts : List String
  isDirectory : String → Bool
  canWrite : String → Bool
  mkdirs : String → Bool
  /-- `Environment.getExternalStorageDirectory` -/
  ext : Option String
  /-- `Environment.getExternalStorageState` -/
  extState : String
  /-- `getExternalFilesDir`, or the message of what it throws -/
  appExt : Except String (Option String)
  /-- `getFilesDir`, if it does not throw -/
  filesDir : Option String
  /-- `String.toLowerCase(Locale.US)` -/
  toLowerCase : String → String

/-- `DIR_NAME`. -/
def dirName : String := "carlinkit"

/-- `USB_HINTS`. -/
def usbHints : List String := ["usb", "udisk", "sda", "sdb", "otg", "removable"]

/-- The paths of old head units. -/
def guesses : List String :=
  ["/mnt/usb", "/mnt/usbhost", "/mnt/usbhost1", "/mnt/usb_storage", "/mnt/udisk", "/mnt/usbdisk",
    "/storage/usb", "/storage/usbdisk", "/storage/UsbDriveA", "/mnt/media_rw/usb", "/mnt/sda",
    "/mnt/sda1", "/mnt/extsd", "/mnt/external_sd", "/mnt/sdcard/usbStorage"]

/-- `String.contains`. -/
def contains (s t : String) : Bool := decide (t.toList <:+: s.toList)

namespace Storage

variable (st : Storage)

/-- `looksLikeUsb`. -/
def looksLikeUsb (s : String) : Bool := usbHints.any (contains (st.toLowerCase s) ·)

/-- `isInterestingFs`. -/
def isInterestingFs (type : String) : Bool :=
  ["vfat", "fat", "exfat", "ntfs", "ext", "fuse", "sdcardfs"].any
    (contains (st.toLowerCase type) ·)

/-- A directory that can be written. -/
def writable (f : String) : Bool := st.isDirectory f && st.canWrite f

/-- A mount that looks like USB. -/
def looksUsb (m : Mount) : Bool := st.looksLikeUsb m.device || st.looksLikeUsb m.path

/-- The candidates among the mounts that look like USB. -/
def usbMounts : List String :=
  ((readMounts st.mounts).filter fun m => st.writable (file m.path) && st.looksUsb m).map
    (file ·.path)

/-- The loop over the guesses. -/
def addGuess (usb : List String) (g : String) : List String :=
  if st.isDirectory (file g) && st.canWrite (file g) && !usb.contains (file g) then
    usb ++ [file g]
  else usb

/-- `usbCandidates`. -/
def usbCandidates : List String := guesses.foldl st.addGuess st.usbMounts

/-- `otherCandidates`. -/
def otherCandidates : List String :=
  ((readMounts st.mounts).filter fun m =>
    st.writable (file m.path) && !st.looksUsb m && st.isInterestingFs m.type).map (file ·.path)

/-- The lines of the diagnostics. -/
def diag : List String :=
  (readMounts st.mounts).map (fun m =>
      "mount " ++ m.path ++ "  dev=" ++ m.device ++ " type=" ++ m.type ++
        (if st.writable (file m.path) then " [writable]" else " [read-only]") ++
        if st.looksUsb m then " [USB?]" else "") ++
    (guesses.filter fun g => st.isDirectory (file g)).map (fun g =>
      "guess " ++ g ++
        if st.canWrite (file g) then " [exists, writable]" else " [exists, not writable]") ++
    ["Environment.getExternalStorageDirectory() = " ++
        (match st.ext with
          | none => "null"
          | some ext => ext ++ if st.canWrite ext then " [writable]" else " [not writable]") ++
        " state=" ++ st.extState,
      match st.appExt with
      | .ok appExt => "getExternalFilesDir() = " ++ appExt.getD "null"
      | .error message => "getExternalFilesDir() failed: " ++ message]

/-- The directory in a place, if it is there or can be made. -/
def available (base : String) : Option String :=
  let d := child base dirName
  if st.isDirectory d || st.mkdirs d then some d else none

/-- The end of `chooseTarget`: the kind of the target and its directory. -/
def chooseTarget : String × Option String :=
  match st.usbCandidates.findSome? st.available with
  | some d => (usbFlashDrive, some d)
  | none =>
    match (st.appExt.toOption.join).bind st.available with
    | some d => ("app external storage", some d)
    | none =>
      match (st.ext.filter st.canWrite).bind st.available with
      | some d => ("external storage root", some d)
      | none =>
        match st.otherCandidates.findSome? fun cand => (st.available cand).map (cand, ·) with
        | some (cand, d) => ("writable mount: " ++ cand, some d)
        | none =>
          match st.filesDir.bind st.available with
          | some d => ("INTERNAL storage (hard to extract)", some d)
          | none => ("no writable target", none)

/-- **The preference**: the places with the kinds that a target there has. -/
def preferences : List (String × String) :=
  st.usbCandidates.map (usbFlashDrive, ·) ++
    st.appExt.toOption.join.toList.map ("app external storage", ·) ++
    (st.ext.filter st.canWrite).toList.map ("external storage root", ·) ++
    st.otherCandidates.map (fun cand => ("writable mount: " ++ cand, cand)) ++
    st.filesDir.toList.map ("INTERNAL storage (hard to extract)", ·)

/-- A place of some kind, if it is available. -/
def offer (p : String × String) : Option (String × Option String) :=
  (st.available p.2).map fun d => (p.1, some d)

/-- Some flash drive has room for the directory. -/
def hasFlashDrive : Bool := st.usbCandidates.any fun f => (st.available f).isSome

variable {st}

theorem findSome?_offer (kind : String) (fs : List String) :
    (fs.map (kind, ·)).findSome? st.offer =
      (fs.findSome? st.available).map fun d => (kind, some d) := by
  induction fs with
  | nil => rfl
  | cons f fs ih =>
      rw [List.map_cons, List.findSome?_cons, List.findSome?_cons, ih, offer]
      cases st.available f <;> rfl

theorem findSome?_offer_toList (kind : String) (f : Option String) :
    (f.toList.map (kind, ·)).findSome? st.offer =
      (f.bind st.available).map fun d => (kind, some d) := by
  rw [findSome?_offer]
  cases f with
  | none => rfl
  | some f => cases h : st.available f <;> simp [h]

theorem findSome?_offer_others (fs : List String) :
    (fs.map fun cand => ("writable mount: " ++ cand, cand)).findSome? st.offer =
      (fs.findSome? fun cand => (st.available cand).map (cand, ·)).map
        fun x => ("writable mount: " ++ x.1, some x.2) := by
  induction fs with
  | nil => rfl
  | cons f fs ih =>
      rw [List.map_cons, List.findSome?_cons, List.findSome?_cons, ih, offer]
      cases st.available f <;> rfl

/-- **The choice is the first place that is available.** -/
theorem chooseTarget_eq (st : Storage) :
    st.chooseTarget = (st.preferences.findSome? st.offer).getD ("no writable target", none) := by
  rw [preferences, List.findSome?_append, List.findSome?_append, List.findSome?_append,
    List.findSome?_append, findSome?_offer, findSome?_offer_toList, findSome?_offer_toList,
    findSome?_offer_others, findSome?_offer_toList, chooseTarget]
  cases st.usbCandidates.findSome? st.available <;>
    cases (st.appExt.toOption.join).bind st.available <;>
    cases (st.ext.filter st.canWrite).bind st.available <;>
    cases (st.otherCandidates.findSome? fun cand => (st.available cand).map (cand, ·)) <;>
    cases st.filesDir.bind st.available <;> rfl

theorem mem_foldl_addGuess {f : String} (gs usb : List String) :
    f ∈ gs.foldl st.addGuess usb ↔ f ∈ usb ∨ ∃ g ∈ gs, file g = f ∧ st.writable f = true := by
  induction gs generalizing usb with
  | nil => simp
  | cons g gs ih =>
      have hadd : f ∈ st.addGuess usb g ↔ f ∈ usb ∨ file g = f ∧ st.writable f = true := by
        rw [addGuess, ← writable]
        by_cases hnew : (st.writable (file g) && !usb.contains (file g)) = true
        · rw [if_pos hnew, List.mem_append, List.mem_singleton]
          have hwrite := (Bool.and_eq_true_iff.1 hnew).1
          exact or_congr_right ⟨fun h => ⟨h.symm, h ▸ hwrite⟩, fun h => h.1.symm⟩
        · rw [if_neg hnew]
          refine ⟨.inl, ?_⟩
          rintro (hf | ⟨rfl, hwrite⟩)
          · exact hf
          · simpa [hwrite] using hnew
      rw [List.foldl_cons, ih, hadd, List.exists_mem_cons_iff, or_assoc]

/-- **The candidates for a flash drive**: the writable mount points whose device or path looks
like USB, whatever the file system, and the writable paths of old head units. -/
theorem mem_usbCandidates_iff {f : String} :
    f ∈ st.usbCandidates ↔ st.writable f = true ∧
      ((∃ m ∈ readMounts st.mounts, file m.path = f ∧ st.looksUsb m = true) ∨
        ∃ g ∈ guesses, file g = f) := by
  rw [usbCandidates, mem_foldl_addGuess, usbMounts, List.mem_map]
  constructor
  · rintro (⟨m, hm, rfl⟩ | ⟨g, hg, hf, hwrite⟩)
    · rw [List.mem_filter, Bool.and_eq_true_iff] at hm
      exact ⟨hm.2.1, .inl ⟨m, hm.1, rfl, hm.2.2⟩⟩
    · exact ⟨hwrite, .inr ⟨g, hg, hf⟩⟩
  · rintro ⟨hwrite, ⟨m, hm, rfl, husb⟩ | ⟨g, hg, hf⟩⟩
    · exact .inl ⟨m, List.mem_filter.2 ⟨hm, by rw [hwrite, husb]; rfl⟩, rfl⟩
    · exact .inr ⟨g, hg, hf, hwrite⟩

theorem writableMount_ne (cand : String) : "writable mount: " ++ cand ≠ usbFlashDrive := by
  intro h
  have hhead : usbFlashDrive.toList.head? = some 'w' := by
    rw [← h, String.toList_append]
    rfl
  exact absurd hhead (by decide)

/-- The choice is a flash drive when there is one. -/
theorem chooseTarget_kind_iff (st : Storage) :
    st.chooseTarget.1 = usbFlashDrive ↔ st.hasFlashDrive = true := by
  rw [hasFlashDrive, List.any_eq_true]
  constructor
  · intro h
    by_contra hnone
    have hfind : st.usbCandidates.findSome? st.available = none :=
      List.findSome?_eq_none_iff.2 fun f hf => by
        cases havailable : st.available f with
        | none => rfl
        | some d => exact absurd ⟨f, hf, by rw [havailable]; rfl⟩ hnone
    rw [chooseTarget, hfind] at h
    simp only at h
    split at h
    · exact absurd (show "app external storage" = usbFlashDrive from h) (by decide)
    split at h
    · exact absurd (show "external storage root" = usbFlashDrive from h) (by decide)
    split at h
    · exact writableMount_ne _ h
    split at h
    · exact absurd (show "INTERNAL storage (hard to extract)" = usbFlashDrive from h) (by decide)
    · exact absurd (show "no writable target" = usbFlashDrive from h) (by decide)
  · rintro ⟨f, hf, havailable⟩
    cases hfind : st.usbCandidates.findSome? st.available with
    | none =>
        rw [List.findSome?_eq_none_iff.1 hfind f hf] at havailable
        cases havailable
    | some d => rw [chooseTarget, hfind]

end Storage

/-! ### The class -/

/-- What else the constructor finds (`FileLog.Target`). -/
structure Found where
  pruned : ℕ
  rescued : ℕ
  rescuedBytes : ℕ
  device : String
  date : String
  now : String
  opens : Bool
deriving DecidableEq, Repr

/-- What the constructor gets from `chooseTarget` and the rest. -/
def target (st : Storage) (found : Found) : Target :=
  { kind := st.chooseTarget.1, dir := st.chooseTarget.2, diag := st.diag, pruned := found.pruned,
    rescued := found.rescued, rescuedBytes := found.rescuedBytes, device := found.device,
    date := found.date, now := found.now, opens := found.opens }

/-- A call of the class, with the storage as it is then. -/
inductive Call
  | init (st : Storage) (found : Found)
  | reevaluateTarget (st : Storage) (found : Found)
  | log (now tag message : String) (thrown : Option Thrown)
  | close (now : String)

/-- The call as `App.FileLog` has it. -/
def Call.event : Call → Event
  | .init st found => .init (target st found)
  | .reevaluateTarget st found => .reevaluateTarget (target st found)
  | .log now tag message thrown => .log now tag message thrown
  | .close now => .close now

/-- Where a log is: the kind of its target, and its file. -/
def place (s : FileLog.State) : Option (String × Option String) :=
  s.instance_.map fun i => (i.targetKind, i.file)

/-- Where a target puts the log. -/
def placeOf (t : Target) : String × Option String := (t.kind, t.file)

variable {s : FileLog.State} {i : Instance}

theorem place_writeStamped (i : Instance) (disk : List Line) (line : String) :
    (writeStamped i disk line).1.targetKind = i.targetKind ∧
      (writeStamped i disk line).1.file = i.file := by
  unfold writeStamped
  split
  · exact ⟨rfl, rfl⟩
  · split_ifs <;> exact ⟨rfl, rfl⟩

theorem place_writeAll (i : Instance) (disk : List Line) (lines : List String) :
    (writeAll i disk lines).1.targetKind = i.targetKind ∧
      (writeAll i disk lines).1.file = i.file := by
  induction lines generalizing i disk with
  | nil => exact ⟨rfl, rfl⟩
  | cons line lines ih =>
      obtain ⟨hkind, hfile⟩ := ih (writeStamped i disk line).1 (writeStamped i disk line).2
      obtain ⟨hkind', hfile'⟩ := place_writeStamped i disk line
      exact ⟨hkind.trans hkind', hfile.trans hfile'⟩

theorem place_construct (s : FileLog.State) (t : Target) :
    (construct s t).1.targetKind = t.kind ∧ (construct s t).1.file = t.file :=
  place_writeAll ..

/-- Where the log is after a call. -/
def moved (p : Option (String × Option String)) : Event → Option (String × Option String)
  | .init t => some (p.getD (placeOf t))
  | .reevaluateTarget t =>
      match p with
      | none => some (placeOf t)
      | some p => some (if p.1 ≠ usbFlashDrive ∧ t.kind = usbFlashDrive then placeOf t else p)
  | .log .. | .close _ => p

theorem place_reevaluate (hi : s.instance_ = some i) (t : Target) :
    place (reevaluateStep s t) =
      some (if i.targetKind ≠ usbFlashDrive ∧ t.kind = usbFlashDrive then placeOf t
        else (i.targetKind, i.file)) := by
  simp only [reevaluateStep, hi]
  obtain ⟨holdkind, holdfile⟩ := place_writeStamped i s.disk
    (stamp t.now "re-evaluating the log target...")
  generalize hold : writeStamped i s.disk (stamp t.now "re-evaluating the log target...") = old at *
  obtain ⟨hkind, hfile⟩ := place_construct { s with instance_ := some i, disk := old.2 } t
  by_cases husb : i.targetKind = usbFlashDrive
  · rw [if_pos husb, if_neg (fun h => h.1 husb), place, hi]
    rfl
  · rw [if_neg husb, hkind]
    by_cases hfresh : t.kind = usbFlashDrive
    · rw [if_pos hfresh, if_pos ⟨husb, hfresh⟩]
      simp only [place, Option.map_some, placeOf, place_writeStamped, hkind, hfile]
    · rw [if_neg hfresh, if_neg (fun h => hfresh h.2)]
      simp only [place, Option.map_some, place_writeStamped, holdkind, holdfile]

/-- **One call**: `init` puts the log where there is none, and `reevaluateTarget` takes it to a
flash drive if it is not on one. -/
theorem place_step (s : FileLog.State) (e : Event) : place (step s e) = moved (place s) e := by
  have hinit : ∀ t, place (initStep s t) = some ((place s).getD (placeOf t)) := fun t => by
    unfold initStep
    cases hi : s.instance_ with
    | none =>
        obtain ⟨hkind, hfile⟩ := place_construct s t
        simp [place, placeOf, hi, hkind, hfile]
    | some i => simp [place, hi]
  cases e with
  | init t => exact hinit t
  | log now tag message thrown =>
      cases hi : s.instance_ with
      | none =>
          have hframe := (buffer_frame now s (shortLines tag message thrown)).1
          simp only [step, logStep, hi, moved, place, hframe]
      | some i =>
          obtain ⟨hkind, hfile⟩ := place_writeAll i s.disk
            ((fullLines tag message thrown).map (stamp now))
          simp [step, logStep, hi, moved, place, hkind, hfile]
  | reevaluateTarget t =>
      cases hi : s.instance_ with
      | none =>
          have h := hinit t
          simp only [place, hi] at h
          simpa [step, reevaluateStep, hi, moved, place] using h
      | some i =>
          have hreevaluate := place_reevaluate hi t
          simp only [place, hi] at hreevaluate ⊢
          exact hreevaluate
  | close now =>
      cases hi : s.instance_ with
      | none => simp only [step, closeStep, hi, moved, place]
      | some i =>
          obtain ⟨hkind, hfile⟩ := place_writeStamped i s.disk (stamp now "=== log closed ===")
          simp [step, closeStep, hi, moved, place, hkind, hfile]

/-! ### Runs -/

/-- The storages that the class asked, given whether it has an instance: every one of
`reevaluateTarget`, and the one of `init` if there was no instance. -/
def asked : Bool → List Call → List (Storage × Found)
  | _, [] => []
  | instance_, .init st found :: cs =>
      if instance_ then asked true cs else (st, found) :: asked true cs
  | _, .reevaluateTarget st found :: cs => (st, found) :: asked true cs
  | instance_, .log .. :: cs => asked instance_ cs
  | instance_, .close _ :: cs => asked instance_ cs

/-- Where a storage puts the log. -/
def placeIn (x : Storage × Found) : String × Option String := placeOf (target x.1 x.2)

theorem placeIn_kind_iff (x : Storage × Found) :
    (placeIn x).1 = usbFlashDrive ↔ x.1.hasFlashDrive = true := x.1.chooseTarget_kind_iff

/-- Where the log is after a run, if it is in `p` before it. -/
theorem place_run_of_some {s : FileLog.State} {p : String × Option String} (hp : place s = some p)
    (cs : List Call) :
    place (run step s (cs.map Call.event)) =
      some (if p.1 = usbFlashDrive then p
        else (((asked true cs).find? (·.1.hasFlashDrive)).map placeIn).getD p) := by
  induction cs generalizing s p with
  | nil => simp [hp, asked]
  | cons c cs ih =>
      have hstep := place_step s c.event
      rw [hp] at hstep
      rw [List.map_cons, run_cons]
      cases c with
      | init st found => exact ih hstep
      | log now tag message thrown => exact ih hstep
      | close now => exact ih hstep
      | reevaluateTarget st found =>
          have hkind : (target st found).kind = usbFlashDrive ↔ st.hasFlashDrive = true :=
            st.chooseTarget_kind_iff
          rw [ih hstep, asked, List.find?_cons]
          by_cases husb : p.1 = usbFlashDrive
          · simp only [husb, ne_eq, not_true_eq_false, false_and, if_false, if_true]
          by_cases hdrive : st.hasFlashDrive = true
          · have hmoved : (if p.1 ≠ usbFlashDrive ∧ (target st found).kind = usbFlashDrive then
                placeOf (target st found) else p) = placeOf (target st found) :=
              if_pos ⟨husb, hkind.2 hdrive⟩
            have hplace : (placeOf (target st found)).1 = usbFlashDrive := hkind.2 hdrive
            rw [hmoved, if_pos hplace, if_neg husb, hdrive]
            rfl
          · have hkept : (if p.1 ≠ usbFlashDrive ∧ (target st found).kind = usbFlashDrive then
                placeOf (target st found) else p) = p :=
              if_neg fun h => hdrive (hkind.1 h.2)
            rw [hkept, if_neg husb, if_neg husb, Bool.eq_false_iff.2 hdrive]

/-- **Where the log of a process is.**  After any calls it is where the first storage with a
flash drive puts it, of those the class asked, and if none had one, where the first storage
does; it does not come back from a drive, whatever becomes of the drive. -/
theorem place_run (disk : List Line) (cs : List Call) :
    place (run step (start disk) (cs.map Call.event)) =
      (((asked false cs).find? (·.1.hasFlashDrive)).or (asked false cs).head?).map placeIn := by
  have hfirst : ∀ (s : FileLog.State) (st : Storage) (found : Found) (cs : List Call),
      place s = some (placeIn (st, found)) →
      place (run step s (cs.map Call.event)) =
        ((((st, found) :: asked true cs).find? (·.1.hasFlashDrive)).or (some (st, found))).map
          placeIn := fun s st found cs hs => by
    rw [place_run_of_some hs, List.find?_cons]
    by_cases hdrive : st.hasFlashDrive = true
    · rw [if_pos ((placeIn_kind_iff (st, found)).2 hdrive), hdrive]
      rfl
    · rw [if_neg (fun h => hdrive ((placeIn_kind_iff (st, found)).1 h)),
        Bool.eq_false_iff.2 hdrive]
      cases (asked true cs).find? (·.1.hasFlashDrive) <;> rfl
  have hnone : ∀ s : FileLog.State, place s = none →
      place (run step s (cs.map Call.event)) =
        (((asked false cs).find? (·.1.hasFlashDrive)).or (asked false cs).head?).map placeIn := by
    induction cs with
    | nil => intro s hs; simpa [asked] using hs
    | cons c cs ih =>
        intro s hs
        have hstep := place_step s c.event
        rw [hs] at hstep
        rw [List.map_cons, run_cons]
        cases c with
        | init st found => exact hfirst _ st found cs hstep
        | reevaluateTarget st found => exact hfirst _ st found cs hstep
        | log now tag message thrown => exact ih _ hstep
        | close now => exact ih _ hstep
  exact hnone _ rfl

end LogTarget
end App
end Carlinkit
