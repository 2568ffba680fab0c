/-
# What the rotation leaves

`pruneOldLogs` goes through the logs of a directory, the oldest first, and deletes them as
long as there are `MAX_FILES` or more, or more than `MAX_DIR_BYTES` of them.  A deletion may
fail; then the counts stay as they are and the loop goes on with the next file.

`tries` are the files on which the loop calls `delete`.  `triesLoop_eq` follows the counts along
the loop: they are always those of the files that are there, so the loop asks whether there is
room (`triesFull`).  `rotates` says what comes of it: nothing is deleted where there is room,
and the loop ends with room or with nothing left to try.
-/

import Carlinkit.App.LogRotation

namespace Carlinkit
namespace App

/-- There is room for one more file. -/
def HasRoom (length : Entry → ℕ) (es : List Entry) : Prop :=
  es.length < maxFiles ∧ totalLength length es ≤ maxDirBytes

instance (length : Entry → ℕ) (es : List Entry) : Decidable (HasRoom length es) :=
  inferInstanceAs (Decidable (_ ∧ _))

/-- The loop of `pruneOldLogs`; its result are the files on which it calls `delete`. -/
def triesLoop (length : Entry → ℕ) (deletes : Entry → Bool) : ℕ → ℕ → List Entry → List Entry
  | _, _, [] => []
  | count, total, e :: es =>
      if maxFiles ≤ count ∨ maxDirBytes < total then
        e :: (if deletes e then triesLoop length deletes (count - 1) (total - length e) es
          else triesLoop length deletes count total es)
      else []

/-- The logs of a directory, the oldest first. -/
def byAge (logs : List Entry) : List Entry := logs.insertionSort Entry.Before

/-- `pruneOldLogs` with the logs that `listFiles` finds: what it deletes. -/
def prune (length : Entry → ℕ) (deletes : Entry → Bool) (logs : List Entry) : List Entry :=
  pruneLoop length deletes logs.length (totalLength length logs) (byAge logs)

/-- What it tries to delete. -/
def tries (length : Entry → ℕ) (deletes : Entry → Bool) (logs : List Entry) : List Entry :=
  triesLoop length deletes logs.length (totalLength length logs) (byAge logs)

/-- What stays when these are deleted. -/
def without (logs gone : List Entry) : List Entry := (byAge logs).filter (· ∉ gone)

/-- **What is promised of the rotation**, with the files on which `delete` is called. -/
structure Rotates (length : Entry → ℕ) (deletes : Entry → Bool) (logs : List Entry) : Prop where
  /-- The oldest files are tried, one after the other. -/
  oldest : tries length deletes logs <+: byAge logs
  /-- Those that can be deleted are. -/
  deleted : prune length deletes logs = (tries length deletes logs).filter deletes
  order : (prune length deletes logs).Pairwise fun a b => codeUnits a.name < codeUnits b.name
  /-- Where a file is tried there is no room with what was deleted before it. -/
  full : ∀ k < (tries length deletes logs).length,
    ¬ HasRoom length (without logs (((byAge logs).take k).filter deletes))
  /-- In the end there is room, or every file was tried. -/
  ends : HasRoom length (without logs (prune length deletes logs)) ∨
    tries length deletes logs = byAge logs
  /-- Where all can be deleted, the newest stay, as many as there is room for. -/
  newest : (∀ e ∈ logs, deletes e = true) →
    HasRoom length (without logs (prune length deletes logs)) ∧
    without logs (prune length deletes logs) <:+ byAge logs ∧
    ∀ s, s <:+ byAge logs → HasRoom length s →
      s.length ≤ (without logs (prune length deletes logs)).length

variable {length : Entry → ℕ} {deletes : Entry → Bool} {logs es : List Entry}

theorem filter_triesLoop (count total : ℕ) (es : List Entry) :
    (triesLoop length deletes count total es).filter deletes =
      pruneLoop length deletes count total es := by
  induction es generalizing count total with
  | nil => rfl
  | cons e es ih =>
      rw [triesLoop, pruneLoop]
      split_ifs with hfull hdeletes
      · rw [List.filter_cons_of_pos hdeletes, ih]
      · rw [List.filter_cons_of_neg hdeletes, ih]
      · rfl

/-- The loop, asking whether there is room beside the files `kept`, which were not deleted. -/
def triesFull (length : Entry → ℕ) (deletes : Entry → Bool) (kept : List Entry) :
    List Entry → List Entry
  | [] => []
  | e :: es =>
      if HasRoom length (kept ++ e :: es) then []
      else e :: triesFull length deletes (kept ++ if deletes e then [] else [e]) es

theorem triesFull_room {kept : List Entry} {e : Entry} (h : HasRoom length (kept ++ e :: es)) :
    triesFull length deletes kept (e :: es) = [] := if_pos h

theorem triesFull_full {kept : List Entry} {e : Entry} (h : ¬ HasRoom length (kept ++ e :: es)) :
    triesFull length deletes kept (e :: es) =
      e :: triesFull length deletes (kept ++ if deletes e then [] else [e]) es := if_neg h

/-- **The counts of the loop are those of the files that are there.** -/
theorem triesLoop_eq (kept es : List Entry) :
    triesLoop length deletes (kept ++ es).length (totalLength length (kept ++ es)) es =
      triesFull length deletes kept es := by
  induction es generalizing kept with
  | nil => rfl
  | cons e es ih =>
      have hroom : (maxFiles ≤ (kept ++ e :: es).length ∨
          maxDirBytes < totalLength length (kept ++ e :: es)) ↔
            ¬ HasRoom length (kept ++ e :: es) := by
        rw [HasRoom, not_and_or, not_lt, not_le]
      rw [triesLoop]
      by_cases hfull : HasRoom length (kept ++ e :: es)
      · rw [if_neg (mt hroom.1 (not_not.2 hfull)), triesFull_room hfull]
      rw [if_pos (hroom.2 hfull), triesFull_full hfull]
      cases hdeletes : deletes e with
      | true =>
          have hcount : (kept ++ e :: es).length - 1 = (kept ++ es).length := by simp
          have htotal : totalLength length (kept ++ e :: es) - length e =
              totalLength length (kept ++ es) := by
            simp only [totalLength_append, totalLength_cons]
            omega
          rw [if_pos rfl, if_pos rfl, List.append_nil, hcount, htotal, ih]
      | false =>
          rw [if_neg (by simp), if_neg (by simp), List.append_cons, ih]

/-- The files that are there after `k` of them were tried. -/
def stayed (deletes : Entry → Bool) (kept es : List Entry) (k : ℕ) : List Entry :=
  kept ++ (es.take k).filter (fun e => !deletes e) ++ es.drop k

/-- The next file. -/
theorem stayed_succ (kept : List Entry) (e : Entry) (es : List Entry) (k : ℕ) :
    stayed deletes kept (e :: es) (k + 1) =
      stayed deletes (kept ++ if deletes e then [] else [e]) es k := by
  cases hdeletes : deletes e <;> simp [stayed, hdeletes]

/-- The files that are tried are the first ones. -/
theorem triesFull_prefix (kept es : List Entry) : triesFull length deletes kept es <+: es := by
  induction es generalizing kept with
  | nil => exact List.prefix_refl _
  | cons e es ih =>
      by_cases hroom : HasRoom length (kept ++ e :: es)
      · rw [triesFull_room hroom]
        exact List.nil_prefix
      · rw [triesFull_full hroom, List.prefix_cons_inj]
        exact ih _

/-- As long as a file is tried there is no room. -/
theorem not_hasRoom_stayed (kept es : List Entry) {k : ℕ}
    (hk : k < (triesFull length deletes kept es).length) :
    ¬ HasRoom length (stayed deletes kept es k) := by
  induction es generalizing kept k with
  | nil => exact absurd hk (Nat.not_lt_zero k)
  | cons e es ih =>
      by_cases hroom : HasRoom length (kept ++ e :: es)
      · rw [triesFull_room hroom] at hk
        exact absurd hk (Nat.not_lt_zero k)
      rw [triesFull_full hroom] at hk
      cases k with
      | zero => simpa [stayed] using hroom
      | succ k =>
          rw [stayed_succ]
          exact ih _ (Nat.lt_of_succ_lt_succ hk)

/-- In the end there is, unless all were tried. -/
theorem hasRoom_stayed (kept es : List Entry) :
    HasRoom length (stayed deletes kept es (triesFull length deletes kept es).length) ∨
      triesFull length deletes kept es = es := by
  induction es generalizing kept with
  | nil => exact .inr rfl
  | cons e es ih =>
      by_cases hroom : HasRoom length (kept ++ e :: es)
      · rw [triesFull_room hroom]
        exact .inl (by simpa [stayed] using hroom)
      · rw [triesFull_full hroom, List.length_cons, stayed_succ]
        exact (ih _).imp_right (congrArg (e :: ·))

/-! ## The directory -/

theorem tries_eq (length : Entry → ℕ) (deletes : Entry → Bool) (logs : List Entry) :
    tries length deletes logs = triesFull length deletes [] (byAge logs) := by
  have hperm := List.perm_insertionSort Entry.Before logs
  rw [tries, ← triesLoop_eq, List.nil_append, totalLength_perm length hperm.symm,
    ← hperm.length_eq]
  rfl

/-- The logs have their order and each once. -/
theorem byAge_nodup (hnodup : logs.Nodup) : (byAge logs).Nodup :=
  (List.perm_insertionSort Entry.Before logs).nodup_iff.2 hnodup

/-- Of the files that were tried those stay that cannot be deleted, and the others all stay. -/
theorem filter_notMem {tried rest : List Entry} (hnodup : (tried ++ rest).Nodup) :
    (tried ++ rest).filter (· ∉ tried.filter deletes) =
      tried.filter (fun e => !deletes e) ++ rest := by
  rw [List.filter_append]
  congr 1
  · refine List.filter_congr fun e he => ?_
    cases hdeletes : deletes e <;> simp [List.mem_filter, he, hdeletes]
  · refine List.filter_eq_self.2 fun e he => decide_eq_true fun hmem => ?_
    exact (List.nodup_append.1 hnodup).2.2 e (List.mem_filter.1 hmem).1 e he rfl

/-- What stays, by how many files were tried. -/
theorem without_eq_stayed (hnodup : logs.Nodup) (k : ℕ) :
    without logs (((byAge logs).take k).filter deletes) = stayed deletes [] (byAge logs) k := by
  have hsplit : (byAge logs).take k ++ (byAge logs).drop k = byAge logs := List.take_append_drop ..
  have hstays : ((byAge logs).take k ++ (byAge logs).drop k).filter
      (· ∉ ((byAge logs).take k).filter deletes) = stayed deletes [] (byAge logs) k :=
    filter_notMem (hsplit.symm ▸ byAge_nodup hnodup)
  rwa [hsplit] at hstays

/-- The names are in order, and different. -/
theorem pairwise_byAge (hnames : (logs.map Entry.name).Nodup) :
    (byAge logs).Pairwise fun a b => codeUnits a.name < codeUnits b.name := by
  have hperm := List.perm_insertionSort Entry.Before logs
  have hne : (byAge logs).Pairwise fun a b => a.name ≠ b.name :=
    List.pairwise_map.1 ((hperm.map Entry.name).nodup_iff.2 hnames)
  have hle : (byAge logs).Pairwise Entry.Before := List.pairwise_insertionSort Entry.Before logs
  refine (hle.and hne).imp fun h => ?_
  exact lt_of_le_of_ne (of_decide_eq_true h.1) fun heq => h.2 (codeUnits_injective heq)

theorem hasRoom_nil (length : Entry → ℕ) : HasRoom length [] := ⟨by decide, Nat.zero_le _⟩

/-- With every file deletable the rest stays. -/
theorem stayed_of_forall (h : ∀ e ∈ es, deletes e = true) (k : ℕ) :
    stayed deletes [] es k = es.drop k := by
  have hnone : (es.take k).filter (fun e => !deletes e) = [] :=
    List.filter_eq_nil_iff.2 fun e he => by simp [h e (List.mem_of_mem_take he)]
  rw [stayed, hnone]
  rfl

/-- **The rotation.**  For any logs with different names, any lengths and any deletions that
fail. -/
theorem rotates (length : Entry → ℕ) (deletes : Entry → Bool)
    (hnames : (logs.map Entry.name).Nodup) : Rotates length deletes logs := by
  have hnodup : logs.Nodup := List.Nodup.of_map _ hnames
  have htries := tries_eq length deletes logs
  have hfirst : tries length deletes logs <+: byAge logs := htries ▸ triesFull_prefix [] _
  have htake : tries length deletes logs =
      (byAge logs).take (tries length deletes logs).length := (List.prefix_iff_eq_take.1 hfirst)
  have hdeleted : prune length deletes logs = (tries length deletes logs).filter deletes :=
    (filter_triesLoop ..).symm
  have hstays : without logs (prune length deletes logs) =
      stayed deletes [] (byAge logs) (tries length deletes logs).length := by
    rw [hdeleted]
    conv_lhs => rw [htake]
    exact without_eq_stayed hnodup _
  have hends : HasRoom length (without logs (prune length deletes logs)) ∨
      tries length deletes logs = byAge logs := by
    rw [hstays, htries]
    exact hasRoom_stayed [] (byAge logs)
  have hfull : ∀ k < (tries length deletes logs).length,
      ¬ HasRoom length (stayed deletes [] (byAge logs) k) := fun k hk =>
    not_hasRoom_stayed [] (byAge logs) (htries ▸ hk)
  refine ⟨hfirst, hdeleted, ?_, fun k hk => ?_, hends, fun hall => ?_⟩
  · rw [hdeleted]
    exact (pairwise_byAge hnames).sublist (List.filter_sublist.trans hfirst.sublist)
  · rw [without_eq_stayed hnodup]
    exact hfull k hk
  · have hdrop : ∀ k, stayed deletes [] (byAge logs) k = (byAge logs).drop k :=
      stayed_of_forall fun e he =>
        hall e ((List.perm_insertionSort Entry.Before logs).mem_iff.1 he)
    rw [hstays, hdrop]
    refine ⟨?_, List.drop_suffix .., fun s hs hroom => ?_⟩
    · rw [hstays, hdrop] at hends
      refine hends.elim id fun hall => ?_
      rw [hall, List.drop_length]
      exact hasRoom_nil length
    · by_contra hlong
      -- the longer suffix was there when its first file was tried
      have hs' : s = (byAge logs).drop ((byAge logs).length - s.length) :=
        List.suffix_iff_eq_drop.1 hs
      have hle := hs.length_le
      rw [List.length_drop] at hlong
      refine hfull ((byAge logs).length - s.length) (by omega) ?_
      rwa [hdrop, ← hs']

/-- Two logs of one second each. -/
def logAt (n : ℕ) : Entry := ⟨"/sdcard/carlinkit", logName ("20260101-12000" ++ toString n)⟩

/-- The older one takes all of the directory. -/
def heavy (e : Entry) : ℕ := if e = logAt 0 then maxDirBytes else 1

theorem rotates_two :
    prune heavy (fun _ => true) [logAt 1, logAt 0] = [logAt 0] ∧
    Rotates heavy (fun _ => true) [logAt 1, logAt 0] :=
  ⟨by decide +kernel, rotates heavy (fun _ => true) (by decide +kernel)⟩

namespace FileLog

/-- **The constructor's `pruneOldLogs` is this one**, on logs with different names. -/
theorem Storage.pruneOldLogs_eq (x : Storage) {c : Call} (h : c.listFiles = true) (dir : String) :
    x.pruneOldLogs c dir = prune x.length c.deletes (x.logs dir) ∧
      ((x.logs dir).map Entry.name).Nodup := by
  refine ⟨if_pos h, List.pairwise_map.2 ?_⟩
  have hnodup : (x.logs dir).Nodup := x.nodup.filter _
  refine hnodup.imp_of_mem fun {a b} ha hb hne hname => hne ?_
  have hdir : a.dir = b.dir := (Storage.mem_logs.1 ha).2.1.trans (Storage.mem_logs.1 hb).2.1.symm
  obtain ⟨d, n⟩ := a
  obtain ⟨d', n'⟩ := b
  obtain rfl : d = d' := hdir
  exact congrArg (Entry.mk d) hname

end FileLog
end App
end Carlinkit
