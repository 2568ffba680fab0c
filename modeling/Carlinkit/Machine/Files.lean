/-
# Files by name

`Files κ α` is what a file system holds: under some of the names `κ` a file, the list of
its bytes `α`.  An operation that succeeds is one step: a file is created or emptied, grows,
goes, or takes another name, and then whatever had that name is gone.  Each operation leaves
every other name alone.
-/

import Mathlib.Data.List.AList

namespace Carlinkit
namespace Machine

/-- The files by name. -/
abbrev Files (κ α : Type*) := AList fun _ : κ => List α

namespace Files

variable {κ α : Type*} [DecidableEq κ] {fs : Files κ α} {k l : κ} {c : List α}

/-- The length of a file, zero when there is none. -/
def length (fs : Files κ α) (k : κ) : ℕ := ((fs.lookup k).getD []).length

/-- Creates a file, or empties it. -/
def create (k : κ) (fs : Files κ α) : Files κ α := fs.insert k []

/-- Writes to the end of a file. -/
def append (k : κ) (bs : List α) (fs : Files κ α) : Files κ α :=
  fs.insert k ((fs.lookup k).getD [] ++ bs)

/-- A file takes another name. -/
def rename (k l : κ) (fs : Files κ α) : Files κ α :=
  match fs.lookup k with
  | some c => (fs.erase k).insert l c
  | none => fs

theorem length_of_lookup (h : fs.lookup k = some c) : fs.length k = c.length := by
  simp [length, h]

theorem length_pos (h : 0 < fs.length k) : ∃ c, fs.lookup k = some c := by
  cases hk : fs.lookup k with
  | none => simp [length, hk] at h
  | some c => exact ⟨c, rfl⟩

theorem mem_keys_of_lookup (h : fs.lookup k = some c) : k ∈ fs.keys :=
  AList.mem_keys.1 (AList.lookup_isSome.1 (by simp [h]))

theorem lookup_create (fs : Files κ α) : (fs.create k).lookup k = some [] :=
  AList.lookup_insert fs

theorem lookup_create_ne (h : l ≠ k) : (fs.create k).lookup l = fs.lookup l :=
  AList.lookup_insert_ne h

theorem lookup_append (h : fs.lookup k = some c) (bs : List α) :
    (fs.append k bs).lookup k = some (c ++ bs) := by
  rw [append, AList.lookup_insert, h, Option.getD_some]

theorem lookup_append_ne (h : l ≠ k) (bs : List α) : (fs.append k bs).lookup l = fs.lookup l :=
  AList.lookup_insert_ne h

theorem lookup_rename (h : fs.lookup k = some c) : (fs.rename k l).lookup l = some c := by
  rw [rename, h]
  exact AList.lookup_insert _

theorem lookup_rename_ne {m : κ} (hk : m ≠ k) (hl : m ≠ l) :
    (fs.rename k l).lookup m = fs.lookup m := by
  unfold rename
  split
  · rw [AList.lookup_insert_ne hl, AList.lookup_erase_ne hk]
  · rfl

end Files
end Machine
end Carlinkit
