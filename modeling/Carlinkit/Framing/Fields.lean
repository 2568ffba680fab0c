/-
# Fields between runs of separators

`parts` cuts a list at every run of separators, and keeps the empty parts before a run at the
front and after one at the end.  `fields` is what `String.split` of Java makes of it with a
pattern for one or more separators: the empty parts at the end are dropped, but the one at the
front is not, and a text without a separator is its own only field.

`parts_run` reads one field off, and `exists_run` is its converse; `fields_eq_iff` puts them
together for the first three fields of a line.
-/

import Mathlib.Data.List.DropRight
import Mathlib.Data.List.TakeDrop

namespace Carlinkit
namespace Framing

variable {α : Type*} (sep : α → Bool)

/-- One more element in the first part. -/
def grow (c : α) : List (List α) → List (List α)
  | [] => [[c]]
  | p :: ps => (c :: p) :: ps

/-- The parts between the runs of separators; a run ends where no separator follows. -/
def parts : List α → List (List α)
  | [] => [[]]
  | c :: cs =>
      if sep c then if cs.head?.any sep then parts cs else [] :: parts cs
      else grow c (parts cs)

/-- `String.split` with a pattern for one or more separators. -/
def fields (l : List α) : List (List α) :=
  if l.any sep then (parts sep l).rdropWhile List.isEmpty else [l]

/-- No element is a separator. -/
def Plain (l : List α) : Prop := ∀ c ∈ l, sep c = false

/-- A run of separators. -/
def Run (l : List α) : Prop := l ≠ [] ∧ ∀ c ∈ l, sep c = true

variable {sep} {f r rest l : List α}

/-- What stands before the first separator joins the first part. -/
theorem parts_cons_plain {c : α} (hc : sep c = false) (l : List α) :
    parts sep (c :: l) = grow c (parts sep l) := by
  rw [parts, if_neg (by simp [hc])]

/-- A field of its own. -/
theorem parts_plain (h : Plain sep f) : parts sep f = [f] := by
  induction f with
  | nil => rfl
  | cons c cs ih =>
      rw [parts_cons_plain (h c (List.mem_cons_self ..)),
        ih fun d hd => h d (List.mem_cons_of_mem c hd), grow]

/-- A run of separators after a field. -/
theorem parts_plain_append (h : Plain sep f) {ps : List (List α)}
    (hl : parts sep l = [] :: ps) : parts sep (f ++ l) = f :: ps := by
  induction f with
  | nil => exact hl
  | cons c cs ih =>
      rw [List.cons_append, parts_cons_plain (h c (List.mem_cons_self ..)),
        ih fun d hd => h d (List.mem_cons_of_mem c hd), grow]

/-- A run of separators at the front is an empty part. -/
theorem parts_run_front (hr : Run sep r) (hrest : ∀ c ∈ rest.head?, sep c = false) :
    parts sep (r ++ rest) = [] :: parts sep rest := by
  obtain ⟨hne, hsep⟩ := hr
  induction r with
  | nil => exact absurd rfl hne
  | cons c cs ih =>
      rw [List.cons_append, parts, if_pos (hsep c (List.mem_cons_self ..))]
      cases cs with
      | nil =>
          rw [List.nil_append, if_neg]
          cases rest with
          | nil => simp
          | cons d ds => simp [hrest d rfl]
      | cons d ds =>
          rw [if_pos (by simp [hsep d])]
          exact ih (by simp) fun e he => hsep e (List.mem_cons_of_mem c he)

/-- **One field, and a run of separators.** -/
theorem parts_run (hf : Plain sep f) (hr : Run sep r)
    (hrest : ∀ c ∈ rest.head?, sep c = false) :
    parts sep (f ++ r ++ rest) = f :: parts sep rest := by
  rw [List.append_assoc]
  exact parts_plain_append hf (parts_run_front hr hrest)

theorem head?_dropWhile_eq {p : α → Bool} (l : List α) :
    ∀ c ∈ (l.dropWhile p).head?, p c = false := by
  intro c hc
  have := List.head?_dropWhile_not p l
  rw [Option.mem_def.1 hc] at this
  exact this

/-- **Every list is a field, or a field, a run of separators and a rest.** -/
theorem exists_run (l : List α) :
    Plain sep l ∨ ∃ f r rest, l = f ++ r ++ rest ∧ Plain sep f ∧ Run sep r ∧
      ∀ c ∈ rest.head?, sep c = false := by
  by_cases hplain : Plain sep l
  · exact .inl hplain
  refine .inr ⟨l.takeWhile (!sep ·), (l.dropWhile (!sep ·)).takeWhile sep,
    (l.dropWhile (!sep ·)).dropWhile sep, ?_, ?_, ⟨?_, ?_⟩, head?_dropWhile_eq _⟩
  · rw [List.append_assoc, List.takeWhile_append_dropWhile, List.takeWhile_append_dropWhile]
  · intro c hc
    simpa using List.mem_takeWhile_imp hc
  · -- the part that is not plain begins with a separator
    have hne : l.dropWhile (!sep ·) ≠ [] := fun hnil =>
      hplain fun c hc => by simpa using List.dropWhile_eq_nil_iff.1 hnil c hc
    obtain ⟨d, ds, hd⟩ := List.exists_cons_of_ne_nil hne
    have hsep := head?_dropWhile_eq (p := (!sep ·)) l d (by rw [hd]; rfl)
    rw [hd, List.takeWhile_cons_of_pos (by simpa using hsep)]
    exact List.cons_ne_nil _ _
  · intro c hc
    exact List.mem_takeWhile_imp hc

/-- **Reading one field off**, and nothing else reads so. -/
theorem parts_eq_cons_cons_iff {g : List α} {more : List (List α)} :
    parts sep l = f :: g :: more ↔ ∃ r rest, l = f ++ r ++ rest ∧ Plain sep f ∧ Run sep r ∧
      (∀ c ∈ rest.head?, sep c = false) ∧ parts sep rest = g :: more := by
  constructor
  · intro h
    rcases @exists_run _ sep l with hplain | ⟨f', r, rest, rfl, hf, hr, hrest⟩
    · rw [parts_plain hplain] at h
      cases h
    · rw [parts_run hf hr hrest] at h
      injection h with hff hmore
      subst hff
      exact ⟨r, rest, rfl, hf, hr, hrest, hmore⟩
  · rintro ⟨r, rest, rfl, hf, hr, hrest, hmore⟩
    rw [parts_run hf hr hrest, hmore]

/-- The first part ends where a separator comes, or the list. -/
theorem parts_eq_cons_iff :
    (∃ more, parts sep l = f :: more) ↔ Plain sep f ∧
      ∃ rest, l = f ++ rest ∧ ∀ c ∈ rest.head?, sep c = true := by
  constructor
  · rintro ⟨more, h⟩
    rcases @exists_run _ sep l with hplain | ⟨f', r, rest, rfl, hf, hr, hrest⟩
    · rw [parts_plain hplain] at h
      cases h
      exact ⟨hplain, [], (List.append_nil _).symm, by simp⟩
    · rw [parts_run hf hr hrest] at h
      cases h
      obtain ⟨c, cs, rfl⟩ := List.exists_cons_of_ne_nil hr.1
      refine ⟨hf, c :: cs ++ rest, List.append_assoc .., fun d hd => ?_⟩
      exact hr.2 d (by rw [List.cons_append] at hd; cases hd; exact List.mem_cons_self ..)
  · rintro ⟨hf, rest, rfl, hrest⟩
    cases rest with
    | nil => exact ⟨[], by rw [List.append_nil, parts_plain hf]⟩
    | cons c cs =>
        have hc := hrest c rfl
        have hrun : Run sep ((c :: cs).takeWhile sep) :=
          ⟨by rw [List.takeWhile_cons_of_pos hc]; exact List.cons_ne_nil _ _,
            fun d hd => List.mem_takeWhile_imp hd⟩
        rw [← List.takeWhile_append_dropWhile (p := sep) (l := c :: cs)]
        exact ⟨_, parts_plain_append hf (parts_run_front hrun (head?_dropWhile_eq _))⟩

theorem rdropWhile_append_cons {q : α → Bool} {a : α} (ha : q a = false) (l m : List α) :
    (l ++ a :: m).rdropWhile q = l ++ a :: m.rdropWhile q := by
  induction m using List.reverseRecOn with
  | nil => rw [List.rdropWhile_concat_neg _ _ _ (by simp [ha])]; simp
  | append_singleton m b ih =>
      rw [← List.cons_append, ← List.append_assoc]
      cases hb : q b with
      | true => rw [List.rdropWhile_concat_pos _ _ _ hb, ih, List.rdropWhile_concat_pos _ _ _ hb]
      | false =>
          rw [List.rdropWhile_concat_neg _ _ _ (by simp [hb]),
            List.rdropWhile_concat_neg _ _ _ (by simp [hb])]
          simp

/-- Before a part that is not at the front comes no separator. -/
theorem ne_nil_of_head? {p r rest : List α} (hr : Run sep r)
    (hhead : ∀ c ∈ (p ++ r ++ rest).head?, sep c = false) : p ≠ [] := by
  rintro rfl
  obtain ⟨c, cs, rfl⟩ := List.exists_cons_of_ne_nil hr.1
  have hc := hhead c rfl
  rw [hr.2 c (List.mem_cons_self ..)] at hc
  cases hc

/-- The last part is dropped when it is empty. -/
theorem fields_ne_of_parts {d p : List α} (h : parts sep l = [d, p, []]) (t : List α)
    (more : List (List α)) : (parts sep l).rdropWhile List.isEmpty ≠ d :: p :: t :: more := by
  intro hfields
  have hdrop : (parts sep l).rdropWhile List.isEmpty = [d, p].rdropWhile List.isEmpty := by
    rw [h]
    exact List.rdropWhile_concat_pos (l := [d, p]) _ _ rfl
  have hlength := (List.rdropWhile_prefix List.isEmpty [d, p]).length_le
  rw [← hdrop, hfields] at hlength
  simp only [List.length_cons, List.length_nil] at hlength
  omega

/-- **The first three fields of a line.**  `fields` gives them exactly for the lines that have
them between runs of separators; the second and the third are not empty. -/
theorem fields_eq_iff {d p t : List α} :
    (∃ more, fields sep l = d :: p :: t :: more) ↔ ∃ r₁ r₂ rest,
      l = d ++ r₁ ++ (p ++ r₂ ++ (t ++ rest)) ∧ Plain sep d ∧ (p ≠ [] ∧ Plain sep p) ∧
        (t ≠ [] ∧ Plain sep t) ∧ Run sep r₁ ∧ Run sep r₂ ∧ ∀ c ∈ rest.head?, sep c = true := by
  constructor
  · rintro ⟨more, h⟩
    rw [fields] at h
    split_ifs at h with hany
    · obtain ⟨x, hx⟩ : d :: p :: t :: more <+: parts sep l :=
        h ▸ List.rdropWhile_prefix List.isEmpty _
      obtain ⟨r₁, rest₁, hl, hd, hr₁, hhead₁, hparts₁⟩ := parts_eq_cons_cons_iff.1 hx.symm
      obtain ⟨r₂, rest₂, rfl, hp, hr₂, hhead₂, hparts₂⟩ := parts_eq_cons_cons_iff.1 hparts₁
      obtain ⟨ht, rest, rfl, hrest⟩ := parts_eq_cons_iff.1 ⟨_, hparts₂⟩
      refine ⟨r₁, r₂, rest, hl, hd, ⟨ne_nil_of_head? hr₂ hhead₁, hp⟩, ⟨?_, ht⟩, hr₁, hr₂, hrest⟩
      rintro rfl
      cases rest with
      | nil =>
          have hlast : more ++ x = [] := by simpa [parts] using hparts₂.symm
          have hparts : parts sep l = [d, p, []] := by
            rw [← hx, List.cons_append, List.cons_append, List.cons_append, hlast]
          exact fields_ne_of_parts hparts [] more h
      | cons c cs =>
          have hc := hrest c rfl
          rw [hhead₂ c rfl] at hc
          cases hc
    · cases h
  · rintro ⟨r₁, r₂, rest, rfl, hd, ⟨hpne, hp⟩, ⟨htne, ht⟩, hr₁, hr₂, hrest⟩
    have hhead : ∀ {x : List α}, x ≠ [] → Plain sep x → ∀ (y : List α),
        ∀ c ∈ (x ++ y).head?, sep c = false := fun {x} hne hx y c hc => by
      cases x with
      | nil => exact absurd rfl hne
      | cons e es =>
          cases hc
          exact hx c (List.mem_cons_self ..)
    obtain ⟨more, hmore⟩ := parts_eq_cons_iff.2 ⟨ht, rest, rfl, hrest⟩
    have hparts : parts sep (d ++ r₁ ++ (p ++ r₂ ++ (t ++ rest))) = d :: p :: t :: more := by
      rw [parts_run hd hr₁ (by rw [List.append_assoc]; exact hhead hpne hp _),
        parts_run hp hr₂ (hhead htne ht rest), hmore]
    have hany : (d ++ r₁ ++ (p ++ r₂ ++ (t ++ rest))).any sep = true := by
      obtain ⟨c, cs, rfl⟩ := List.exists_cons_of_ne_nil hr₁.1
      exact List.any_eq_true.2 ⟨c, by simp, hr₁.2 c (List.mem_cons_self ..)⟩
    have hempty : t.isEmpty = false := by simpa using htne
    exact ⟨_, by rw [fields, if_pos hany, hparts]; exact rdropWhile_append_cons hempty [d, p] more⟩

end Framing
end Carlinkit
