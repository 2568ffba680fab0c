/-
# The rescue of stranded logs

`rescueStrandedLogs` moves the logs of the fallback directories to the flash drive, one
file operation after another; `moveVerified` is its part from `opening` on.  The process may
be killed between any two of them, so what is promised is promised of every state, and a
run ends anywhere.  How an operation comes out is part of the event.  A directory goes by
its canonical path, so `sameDir` compares names.

A copy gets the name of a log only when it is complete, and its source goes only then.  But
a log whose name is taken on the flash drive is deleted unread: the name is held to prove
that it was rescued before.  `safe_iff` says that nothing is lost exactly when the flash
drive has the content of every log that is dropped so.
-/

import Carlinkit.App.LogRotation
import Carlinkit.Framing.Words
import Carlinkit.Machine.Files

namespace Carlinkit
namespace App
namespace Rescue

open Machine Framing

/-- A log on its way, with its length, the logs of its directory that come after it, and the
directories after that one. -/
structure Job where
  src : Entry
  expected : ℕ
  rest : List Entry
  sources : List String
deriving DecidableEq, Repr

/-- What comes next. -/
inductive Pc
  /-- The loop over `sources`. -/
  | sources (srcs : List String)
  /-- The loop over `logs`. -/
  | logs (fs : List Entry) (srcs : List String)
  /-- `f.delete()`, where the target exists. -/
  | dropping (j : Job)
  /-- `new FileInputStream(src)`. -/
  | opening (j : Job)
  /-- `new FileOutputStream(part)`. -/
  | creating (j : Job)
  /-- `in.read(buf)`, from a position on. -/
  | reading (j : Job) (pos : ℕ)
  /-- `out.write(buf, 0, n)`. -/
  | writing (j : Job) (pos : ℕ) (buf : List Byte)
  /-- `part.length()`, after the streams are closed. -/
  | checking (j : Job) (copied : Bool)
  /-- `part.renameTo(dest)`. -/
  | renamingTo (j : Job)
  /-- `src.delete()`. -/
  | unlinking (j : Job)
  /-- `part.delete()`. -/
  | cleaning (j : Job)
  | done
deriving DecidableEq, Repr

/-- The disk and the local variables. -/
structure State where
  files : Files Entry Byte
  rescuedCount : ℕ
  rescuedBytes : ℕ
  budget : ℕ
  pc : Pc

/-- How an operation comes out, and how many bytes it moves: zero for a `read` is the end of
the file, and a `write` that fails may have written some. -/
structure Outcome where
  ok : Bool
  bytes : ℕ
deriving DecidableEq, Repr

/-- `rescueStrandedLogs` begins. -/
def start (files : Files Entry Byte) (srcs : List String) : State :=
  ⟨files, 0, 0, maxDirBytes, .sources srcs⟩

/-- `new File(dest, f.getName())`. -/
def Job.target (dest : String) (j : Job) : Entry := ⟨dest, j.src.name⟩

/-- Its sibling that is written first. -/
def Job.part (dest : String) (j : Job) : Entry := ⟨dest, partName j.src.name⟩

/-- `listFiles(LOG_FILES)`, the oldest first. -/
def State.sortedLogs (s : State) (dir : String) : List Entry :=
  (s.files.keys.filter fun e => e.dir = dir ∧ isLogFile e.name = true).insertionSort
    Entry.Before

/-- The caps are reached. -/
def State.Full (s : State) : Prop := maxFiles ≤ s.rescuedCount ∨ s.budget = 0

instance (s : State) : Decidable s.Full := inferInstanceAs (Decidable (_ ∨ _))

/-- The next directory; one that is not there or cannot be listed is left out. -/
def sourcesStep (dest : String) (s : State) (o : Outcome) : List String → State
  | [] => { s with pc := .done }
  | src :: srcs =>
      if s.Full then { s with pc := .done }
      else if o.ok = false ∨ src = dest then { s with pc := .sources srcs }
      else { s with pc := .logs (s.sortedLogs src) srcs }

/-- The next log of a directory. -/
def logsStep (dest : String) (s : State) (srcs : List String) : List Entry → State
  | [] => { s with pc := .sources srcs }
  | f :: rest =>
      let j : Job := ⟨f, s.files.length f, rest, srcs⟩
      if s.Full then { s with pc := .sources srcs }
      else if j.expected = 0 ∨ s.budget < j.expected then { s with pc := .logs rest srcs }
      else if s.files.lookup (j.target dest) ≠ none then { s with pc := .dropping j }
      else { s with pc := .opening j }

/-- The size of the buffer of `moveVerified`. -/
def bufSize : ℕ := 8192

/-- One operation. -/
def step (dest : String) (s : State) (o : Outcome) : State :=
  match s.pc with
  | .sources srcs => sourcesStep dest s o srcs
  | .logs fs srcs => logsStep dest s srcs fs
  | .dropping j =>
      { s with
        files := if o.ok then s.files.erase j.src else s.files
        pc := .logs j.rest j.sources }
  | .opening j => { s with pc := if o.ok then .creating j else .checking j false }
  | .creating j =>
      if o.ok then { s with files := s.files.create (j.part dest), pc := .reading j 0 }
      else { s with pc := .checking j false }
  | .reading j pos =>
      let buf := (((s.files.lookup j.src).getD []).drop pos).take (min o.bytes bufSize)
      if o.ok = false then { s with pc := .checking j false }
      else if buf = [] then { s with pc := .checking j true }
      else { s with pc := .writing j pos buf }
  | .writing j pos buf =>
      if o.ok then
        { s with
          files := s.files.append (j.part dest) buf
          pc := .reading j (pos + buf.length) }
      else
        { s with
          files := s.files.append (j.part dest) (buf.take o.bytes)
          pc := .checking j false }
  | .checking j copied =>
      { s with
        pc :=
          if copied ∧ s.files.length (j.part dest) = j.expected then .renamingTo j
          else .cleaning j }
  | .renamingTo j =>
      if o.ok then
        { s with files := s.files.rename (j.part dest) (j.target dest), pc := .unlinking j }
      else { s with pc := .cleaning j }
  | .unlinking j =>
      { files := if o.ok then s.files.erase j.src else s.files
        rescuedCount := s.rescuedCount + 1
        rescuedBytes := s.rescuedBytes + j.expected
        budget := s.budget - j.expected
        pc := .logs j.rest j.sources }
  | .cleaning j =>
      { s with
        files := if o.ok then s.files.erase (j.part dest) else s.files
        pc := .logs j.rest j.sources }
  | .done => s

/-! ## What is promised -/

/-- The flash drive has a log with this content. -/
def Rescued (dest : String) (files : Files Entry Byte) (c : List Byte) : Prop :=
  ∃ e ∈ files.keys, e.dir = dest ∧ isLogFile e.name = true ∧ files.lookup e = some c

/-- Every log is where it was, or its content is on the flash drive; and what has the name
of a log has the full content of a log of that name. -/
structure Safe (dest : String) (before files : Files Entry Byte) : Prop where
  kept : ∀ e ∈ before.keys, isLogFile e.name = true → ∀ c ∈ before.lookup e,
    files.lookup e = some c ∨ Rescued dest files c
  complete : ∀ e ∈ files.keys, isLogFile e.name = true → ∀ c ∈ files.lookup e,
    ∃ e₀ ∈ before.keys, e₀.name = e.name ∧ before.lookup e₀ = some c

/-- A log that is deleted because its name is taken is on the flash drive. -/
def Confirms (dest : String) (s : State) (o : Outcome) : Prop :=
  match s.pc with
  | .dropping j => o.ok = true → ∀ c ∈ s.files.lookup j.src, Rescued dest s.files c
  | _ => True

instance (dest : String) (files : Files Entry Byte) (c : List Byte) :
    Decidable (Rescued dest files c) :=
  inferInstanceAs (Decidable (∃ e ∈ files.keys, _))

instance (dest : String) (before files : Files Entry Byte) : Decidable (Safe dest before files) :=
  decidable_of_iff
    ((∀ e ∈ before.keys, isLogFile e.name = true → ∀ c ∈ before.lookup e,
        files.lookup e = some c ∨ Rescued dest files c) ∧
      ∀ e ∈ files.keys, isLogFile e.name = true → ∀ c ∈ files.lookup e,
        ∃ e₀ ∈ before.keys, e₀.name = e.name ∧ before.lookup e₀ = some c)
    ⟨fun h => ⟨h.1, h.2⟩, fun h => ⟨h.kept, h.complete⟩⟩

instance (dest : String) (s : State) (o : Outcome) : Decidable (Confirms dest s o) :=
  match h : s.pc with
  | .dropping j =>
      decidable_of_iff (o.ok = true → ∀ c ∈ s.files.lookup j.src, Rescued dest s.files c)
        (by simp [Confirms, h])
  | .sources _ | .logs .. | .opening _ | .creating _ | .reading .. | .writing .. | .checking ..
  | .renamingTo _ | .unlinking _ | .cleaning _ | .done => .isTrue (by simp [Confirms, h])

/-! ## The names of logs -/

variable {dest : String} {before files files' : Files Entry Byte} {e f : Entry} {c : List Byte}

/-- The files with the names of logs are as they were before the step, and come from the logs
of the beginning. -/
structure Accounted (dest : String) (before files : Files Entry Byte) : Prop where
  /-- Outside the flash drive a log is what it was, as long as it is there. -/
  source : ∀ e, isLogFile e.name = true → e.dir ≠ dest → ∀ c, files.lookup e = some c →
    before.lookup e = some c
  /-- No log leaves the flash drive. -/
  target : ∀ e, isLogFile e.name = true → e.dir = dest → ∀ c, before.lookup e = some c →
    files.lookup e = some c
  /-- A log on the flash drive is complete. -/
  complete : ∀ e, isLogFile e.name = true → ∀ c, files.lookup e = some c →
    ∃ e₀, e₀.name = e.name ∧ before.lookup e₀ = some c
  kept : ∀ e, isLogFile e.name = true → ∀ c, before.lookup e = some c →
    files.lookup e = some c ∨ Rescued dest files c

theorem accounted_refl (dest : String) (before : Files Entry Byte) :
    Accounted dest before before where
  source _ _ _ _ h := h
  target _ _ _ _ h := h
  complete e _ _ h := ⟨e, rfl, h⟩
  kept _ _ _ h := .inl h

theorem Accounted.safe (h : Accounted dest before files) : Safe dest before files where
  kept e _ hlog c hc := h.kept e hlog c hc
  complete e _ hlog c hc := by
    obtain ⟨e₀, hname, he₀⟩ := h.complete e hlog c hc
    exact ⟨e₀, Files.mem_keys_of_lookup he₀, hname, he₀⟩

/-- What was found on the flash drive stays there, where no log of it changes. -/
theorem Rescued.congr (h : Rescued dest files c)
    (hsame : ∀ e, isLogFile e.name = true → e.dir = dest → ∀ c, files.lookup e = some c →
      files'.lookup e = some c) : Rescued dest files' c := by
  obtain ⟨e, -, hdir, hlog, he⟩ := h
  have he' := hsame e hlog hdir c he
  exact ⟨e, Files.mem_keys_of_lookup he', hdir, hlog, he'⟩

/-- An operation on other names than those of logs changes nothing. -/
theorem Accounted.frame (h : Accounted dest before files)
    (hsame : ∀ e, isLogFile e.name = true → files'.lookup e = files.lookup e) :
    Accounted dest before files' where
  source e hlog hdir c hc := h.source e hlog hdir c (hsame e hlog ▸ hc)
  target e hlog hdir c hc := (hsame e hlog).trans (h.target e hlog hdir c hc)
  complete e hlog c hc := h.complete e hlog c (hsame e hlog ▸ hc)
  kept e hlog c hc := by
    rcases h.kept e hlog c hc with hin | hrescued
    · exact .inl ((hsame e hlog).trans hin)
    · exact .inr (hrescued.congr fun e hlog _ _ he => (hsame e hlog).trans he)

/-- A complete copy gets its name. -/
theorem Accounted.rename (h : Accounted dest before files) {name : String}
    (hlog : isLogFile name = true) (hdir : f.dir ≠ dest) (hname : f.name = name)
    (hf : files.lookup f = some c) (hfree : files.lookup ⟨dest, name⟩ = none)
    (hpart : files.lookup ⟨dest, partName name⟩ = some c) :
    Accounted dest before (files.rename ⟨dest, partName name⟩ ⟨dest, name⟩) := by
  have hbefore : before.lookup f = some c := h.source f (hname ▸ hlog) hdir c hf
  have hother : ∀ e, isLogFile e.name = true → e ≠ ⟨dest, name⟩ →
      (files.rename ⟨dest, partName name⟩ ⟨dest, name⟩).lookup e = files.lookup e := by
    intro e he hne
    refine Files.lookup_rename_ne ?_ hne
    rintro rfl
    rw [isLogFile_partName] at he
    exact Bool.noConfusion he
  have hnew : ∀ e, isLogFile e.name = true → ∀ c', files.lookup e = some c' →
      (files.rename ⟨dest, partName name⟩ ⟨dest, name⟩).lookup e = some c' := by
    intro e he c' hc'
    refine (hother e he ?_).trans hc'
    rintro rfl
    simp [hfree] at hc'
  refine ⟨fun e he hne c' hc' => ?_, fun e he hd c' hc' => hnew e he c' (h.target e he hd c' hc'),
    fun e he c' hc' => ?_, fun e he c' hc' => ?_⟩
  · refine h.source e he hne c' ((hother e he ?_) ▸ hc')
    rintro rfl
    exact hne rfl
  · by_cases htarget : e = ⟨dest, name⟩
    · subst htarget
      rw [Files.lookup_rename hpart] at hc'
      exact ⟨f, hname, hbefore.trans hc'⟩
    · exact h.complete e he c' (hother e he htarget ▸ hc')
  · rcases h.kept e he c' hc' with hin | hrescued
    · exact .inl (hnew e he c' hin)
    · exact .inr (hrescued.congr fun e he _ c'' hc'' => hnew e he c'' hc'')

/-- A log goes whose content is on the flash drive. -/
theorem Accounted.erase (h : Accounted dest before files) (hlog : isLogFile f.name = true)
    (hdir : f.dir ≠ dest) (hrescued : ∀ c, files.lookup f = some c → Rescued dest files c) :
    Accounted dest before (files.erase f) := by
  have hother : ∀ e, e.dir = dest → (files.erase f).lookup e = files.lookup e := by
    intro e he
    refine AList.lookup_erase_ne ?_
    rintro rfl
    exact hdir he
  have hthere : ∀ e c', (files.erase f).lookup e = some c' → files.lookup e = some c' := by
    intro e c' hc'
    by_cases hf : e = f
    · subst hf
      simp [AList.lookup_erase] at hc'
    · exact (AList.lookup_erase_ne hf).symm.trans hc'
  have hstays : ∀ c', Rescued dest files c' → Rescued dest (files.erase f) c' :=
    fun c' hc' => hc'.congr fun e _ he c'' hc'' => (hother e he).trans hc''
  refine ⟨fun e he hne c' hc' => h.source e he hne c' (hthere e c' hc'), fun e he hd c' hc' => ?_,
    fun e he c' hc' => h.complete e he c' (hthere e c' hc'), fun e he c' hc' => ?_⟩
  · exact (hother e hd).trans (h.target e he hd c' hc')
  · rcases h.kept e he c' hc' with hin | hin
    · by_cases hf : e = f
      · subst hf
        exact .inr (hstays c' (hrescued c' hin))
      · exact .inl ((AList.lookup_erase_ne hf).trans hin)
    · exact .inr (hstays c' hin)

/-! ## The steps -/

/-- A log of a fallback directory. -/
def IsSource (dest : String) (f : Entry) : Prop := isLogFile f.name = true ∧ f.dir ≠ dest

/-- All the logs of a job are from fallback directories. -/
def Job.Ok (dest : String) (j : Job) : Prop :=
  IsSource dest j.src ∧ ∀ f ∈ j.rest, IsSource dest f

/-- The source is there, and its name is free on the flash drive. -/
structure Copying (dest : String) (files : Files Entry Byte) (j : Job) (c : List Byte) :
    Prop where
  ok : j.Ok dest
  src : files.lookup j.src = some c
  expected : j.expected = c.length
  free : files.lookup (j.target dest) = none

/-- What is known at each place. -/
def PcOk (dest : String) (files : Files Entry Byte) : Pc → Prop
  | .sources _ | .done => True
  | .logs fs _ => ∀ f ∈ fs, IsSource dest f
  | .dropping j | .cleaning j => j.Ok dest
  | .opening j | .creating j => ∃ c, Copying dest files j c
  | .reading j pos =>
      ∃ c, Copying dest files j c ∧ files.lookup (j.part dest) = some (c.take pos)
  | .writing j pos buf =>
      ∃ c, Copying dest files j c ∧ files.lookup (j.part dest) = some (c.take pos) ∧
        buf <+: c.drop pos
  | .checking j copied =>
      ∃ c, Copying dest files j c ∧
        (copied = true → ∃ pos, files.lookup (j.part dest) = some (c.take pos))
  | .renamingTo j => ∃ c, Copying dest files j c ∧ files.lookup (j.part dest) = some c
  | .unlinking j =>
      j.Ok dest ∧ ∃ c, files.lookup j.src = some c ∧ files.lookup (j.target dest) = some c

/-- What every step keeps. -/
structure Inv (dest : String) (before : Files Entry Byte) (s : State) : Prop where
  accounted : Accounted dest before s.files
  pc : PcOk dest s.files s.pc

/-- The part has no name of a log. -/
theorem Job.ne_part (j : Job) (h : isLogFile e.name = true) : e ≠ j.part dest := by
  rintro rfl
  rw [Job.part, isLogFile_partName] at h
  exact Bool.noConfusion h

/-- What is done to the part does not touch the copying. -/
theorem Copying.frame {j : Job} (h : Copying dest files j c)
    (hsame : ∀ e, isLogFile e.name = true → files'.lookup e = files.lookup e) :
    Copying dest files' j c where
  ok := h.ok
  src := (hsame _ h.ok.1.1).trans h.src
  expected := h.expected
  free := (hsame (j.target dest) h.ok.1.1).trans h.free

variable {s : State} {o : Outcome}

theorem inv_start (dest : String) (before : Files Entry Byte) (srcs : List String) :
    Inv dest before (start before srcs) := ⟨accounted_refl dest before, trivial⟩

theorem inv_sourcesStep (h : Accounted dest before s.files) (srcs : List String) :
    Inv dest before (sourcesStep dest s o srcs) := by
  unfold sourcesStep
  split
  · exact ⟨h, trivial⟩
  · split_ifs with hfull hskip
    · exact ⟨h, trivial⟩
    · exact ⟨h, trivial⟩
    · refine ⟨h, fun f hf => ?_⟩
      have hmem := (List.mem_insertionSort _).1 hf
      simp only [List.mem_filter, decide_eq_true_eq] at hmem
      obtain ⟨-, hdir, hlog⟩ := hmem
      exact ⟨hlog, fun hd => hskip (.inr (hdir ▸ hd))⟩

theorem inv_logsStep (h : Accounted dest before s.files) (srcs : List String) {fs : List Entry}
    (hfs : ∀ f ∈ fs, IsSource dest f) : Inv dest before (logsStep dest s srcs fs) := by
  unfold logsStep
  split
  · exact ⟨h, trivial⟩
  · next f rest =>
    obtain ⟨hf, hrest⟩ := List.forall_mem_cons.1 hfs
    dsimp only
    split_ifs with hfull hskip hexists
    · exact ⟨h, trivial⟩
    · exact ⟨h, hrest⟩
    · exact ⟨h, hf, hrest⟩
    · obtain ⟨c, hc⟩ := Files.length_pos (Nat.pos_of_ne_zero fun hz => hskip (.inl hz))
      exact ⟨h, c, ⟨hf, hrest⟩, hc, Files.length_of_lookup hc, not_not.1 hexists⟩

/-- **One operation.**  What is known of the logs and of the place stays, as long as no log is
dropped that is not on the flash drive. -/
theorem Inv.step (h : Inv dest before s) (ho : Confirms dest s o) :
    Inv dest before (Rescue.step dest s o) := by
  obtain ⟨hacc, hpc⟩ := h
  cases hs : s.pc with
  | sources srcs =>
      simp only [Rescue.step, hs]
      exact inv_sourcesStep hacc srcs
  | logs fs srcs =>
      rw [hs] at hpc
      simp only [Rescue.step, hs]
      exact inv_logsStep hacc srcs hpc
  | dropping j =>
      rw [hs] at hpc
      simp only [Rescue.step, Confirms, hs] at ho ⊢
      refine ⟨?_, hpc.2⟩
      dsimp only
      split_ifs with hok
      · exact hacc.erase hpc.1.1 hpc.1.2 (ho hok)
      · exact hacc
  | opening j =>
      rw [hs] at hpc
      simp only [Rescue.step, hs]
      refine ⟨hacc, ?_⟩
      obtain ⟨c, hc⟩ := hpc
      dsimp only
      split_ifs
      · exact ⟨c, hc⟩
      · exact ⟨c, hc, fun hcopied => Bool.noConfusion hcopied⟩
  | creating j =>
      rw [hs] at hpc
      simp only [Rescue.step, hs]
      obtain ⟨c, hc⟩ := hpc
      have hsame : ∀ e, isLogFile e.name = true →
          (s.files.create (j.part dest)).lookup e = s.files.lookup e :=
        fun e he => Files.lookup_create_ne (j.ne_part he)
      split_ifs
      · refine ⟨hacc.frame hsame, c, hc.frame hsame, ?_⟩
        exact Files.lookup_create s.files
      · exact ⟨hacc, c, hc, fun hcopied => Bool.noConfusion hcopied⟩
  | reading j pos =>
      rw [hs] at hpc
      simp only [Rescue.step, hs]
      obtain ⟨c, hc, hpart⟩ := hpc
      split_ifs with hfail hend
      · exact ⟨hacc, c, hc, fun hcopied => Bool.noConfusion hcopied⟩
      · exact ⟨hacc, c, hc, fun _ => ⟨pos, hpart⟩⟩
      · refine ⟨hacc, c, hc, hpart, ?_⟩
        rw [hc.src, Option.getD_some]
        exact List.take_prefix ..
  | writing j pos buf =>
      rw [hs] at hpc
      simp only [Rescue.step, hs]
      obtain ⟨c, hc, hpart, hbuf⟩ := hpc
      have hsame : ∀ bs e, isLogFile e.name = true →
          (s.files.append (j.part dest) bs).lookup e = s.files.lookup e :=
        fun bs e he => Files.lookup_append_ne (j.ne_part he) bs
      split_ifs
      · refine ⟨hacc.frame (hsame buf), c, hc.frame (hsame buf), ?_⟩
        refine (Files.lookup_append hpart buf).trans (congrArg some ?_)
        rw [List.take_add, ← List.prefix_iff_eq_take.1 hbuf]
      · refine ⟨hacc.frame (hsame _), c, hc.frame (hsame _), ?_⟩
        exact fun hcopied => Bool.noConfusion hcopied
  | checking j copied =>
      rw [hs] at hpc
      simp only [Rescue.step, hs]
      refine ⟨hacc, ?_⟩
      obtain ⟨c, hc, hpart⟩ := hpc
      dsimp only
      split_ifs with hcomplete
      · -- a beginning as long as the whole is the whole
        obtain ⟨hcopied, hlength⟩ := hcomplete
        obtain ⟨pos, hpos⟩ := hpart hcopied
        refine ⟨c, hc, hpos.trans (congrArg some (List.take_of_length_le ?_))⟩
        rw [Files.length_of_lookup hpos, hc.expected, List.length_take] at hlength
        omega
      · exact hc.ok
  | renamingTo j =>
      rw [hs] at hpc
      simp only [Rescue.step, hs]
      obtain ⟨c, hc, hpart⟩ := hpc
      split_ifs
      · refine ⟨hacc.rename hc.ok.1.1 hc.ok.1.2 rfl hc.src hc.free hpart, hc.ok, c, ?_, ?_⟩
        · refine (Files.lookup_rename_ne (j.ne_part hc.ok.1.1) fun heq => ?_).trans hc.src
          exact hc.ok.1.2 (congrArg Entry.dir heq)
        · exact Files.lookup_rename hpart
      · exact ⟨hacc, hc.ok⟩
  | unlinking j =>
      rw [hs] at hpc
      simp only [Rescue.step, hs]
      obtain ⟨hok, c, hsrc, htarget⟩ := hpc
      refine ⟨?_, hok.2⟩
      dsimp only
      split_ifs
      · refine hacc.erase hok.1.1 hok.1.2 fun c' hc' => ?_
        obtain rfl := Option.some.inj (hsrc.symm.trans hc')
        exact ⟨j.target dest, Files.mem_keys_of_lookup htarget, rfl, hok.1.1, htarget⟩
      · exact hacc
  | cleaning j =>
      rw [hs] at hpc
      simp only [Rescue.step, hs]
      refine ⟨?_, hpc.2⟩
      dsimp only
      split_ifs
      · exact hacc.frame fun e he => AList.lookup_erase_ne (j.ne_part he)
      · exact hacc
  | done =>
      simp only [Rescue.step, hs]
      exact ⟨hacc, hs ▸ trivial⟩

/-- A log that is lost was dropped without its content on the flash drive. -/
theorem Inv.confirms (h : Inv dest before s)
    (hsafe : Safe dest before (Rescue.step dest s o).files) : Confirms dest s o := by
  obtain ⟨hacc, hpc⟩ := h
  unfold Confirms
  split
  · next j hs =>
    intro hok c hc
    rw [hs] at hpc
    obtain ⟨⟨hlog, hdir⟩, -⟩ := hpc
    have hbefore := hacc.source j.src hlog hdir c hc
    have hfiles : (Rescue.step dest s o).files = s.files.erase j.src := by
      simp only [Rescue.step, hs, hok, if_true]
    rw [hfiles] at hsafe
    rcases hsafe.kept j.src (Files.mem_keys_of_lookup hbefore) hlog c hbefore with
      hin | hrescued
    · simp [AList.lookup_erase] at hin
    · refine hrescued.congr fun e _ he c' hc' => ?_
      refine (AList.lookup_erase_ne ?_).symm.trans hc'
      rintro rfl
      exact hdir he
  · trivial

theorem safe_step_iff (h : Inv dest before s) (o : Outcome) :
    Safe dest before (step dest s o).files ↔ Confirms dest s o :=
  ⟨h.confirms, fun ho => (h.step ho).accounted.safe⟩

/-- **When no log is lost.**  For all files and all directories, and every run of operations
that succeed or fail, cut anywhere: every log is in its place or its content is in a log on
the flash drive, and nothing has the name of a log but complete logs, exactly when every
log that is dropped because its name is taken has its content on the flash drive. -/
theorem safe_iff (dest : String) (before : Files Entry Byte) (srcs : List String)
    (os : List Outcome) :
    Along (step dest) (fun s o => Safe dest before (step dest s o).files) (start before srcs) os ↔
      Along (step dest) (Confirms dest) (start before srcs) os :=
  along_iff_of_invariant (I := Inv dest before) (fun _ o h => safe_step_iff h o)
    (fun _ _ h ho => h.step ho) (inv_start dest before srcs) os

/-- Two logs of the same second in two directories. -/
def twoLogs : Files Entry Byte :=
  AList.insert ⟨"/sdcard/carlinkit", logName "20260101-120000"⟩ [2]
    (AList.insert ⟨"/data/carlinkit", logName "20260101-120000"⟩ [1] ∅)

/-- **Two logs of one name.**  Every operation succeeds; the first log takes the name on the
flash drive, and the second one is deleted. -/
theorem not_safe_twoLogs :
    ¬ Along (step "/usb/carlinkit")
      (fun s o => Safe "/usb/carlinkit" twoLogs (step "/usb/carlinkit" s o).files)
      (start twoLogs ["/data/carlinkit", "/sdcard/carlinkit"])
      (List.replicate 14 (Outcome.mk true 8192)) := by
  decide +kernel

end Rescue
end App
end Carlinkit
