import Mathlib.Algebra.BigOperators.Group.List.Basic
import Mathlib.Data.List.Nodup
import Mathlib.Tactic.Abel

/-!
# Tables with a primary key

A table is a list of rows in insertion order whose keys are pairwise distinct; the uniqueness
of the key is a field, so no operation can return a table with two rows of one key.  The
operations are those of a relational store: look a row up, insert it unless its key is taken,
update it in place, delete by a predicate.  `sum` adds up a weight over the rows, and the `sum_`
lemmas say how each operation moves it; they are what conservation arguments are made of.
-/

universe u v

/-- Rows of type `ρ` identified by `key`. -/
structure Table {ρ : Type u} {κ : Type v} (key : ρ → κ) where
  /-- The rows, oldest first. -/
  rows : List ρ
  /-- No two rows share a key. -/
  nodup : (rows.map key).Nodup

namespace Table

open List

variable {ρ : Type u} {κ : Type v} {key : ρ → κ}

variable {t : Table key}

@[ext] theorem ext {u : Table key} (h : t.rows = u.rows) : t = u := by
  cases t
  cases u
  cases h
  rfl

instance [DecidableEq ρ] : DecidableEq (Table key) := fun t u =>
  decidable_of_iff (t.rows = u.rows) ⟨ext, fun h => h ▸ rfl⟩

def empty : Table key := ⟨[], nodup_nil⟩

instance : Inhabited (Table key) := ⟨empty⟩

def filter (t : Table key) (p : ρ → Bool) : Table key :=
  ⟨t.rows.filter p, (filter_sublist.map key).nodup t.nodup⟩

def sum {M : Type*} [AddCommMonoid M] (t : Table key) (w : ρ → M) : M := (t.rows.map w).sum

variable {r : ρ} {p : ρ → Bool}

theorem mem_filter : r ∈ (t.filter p).rows ↔ r ∈ t.rows ∧ p r = true :=
  List.mem_filter

theorem length_filter_lt (hr : r ∈ t.rows)
    (hp : p r = false) : (t.filter p).rows.length < t.rows.length :=
  length_filter_lt_length_iff_exists.mpr ⟨r, hr, by simp [hp]⟩

variable [DecidableEq κ]

def find? (t : Table key) (k : κ) : Option ρ := t.rows.find? fun r => decide (key r = k)

variable {k : κ}

theorem find?_eq_some : t.find? k = some r ↔ r ∈ t.rows ∧ key r = k := by
  constructor
  · intro h
    exact ⟨mem_of_find?_eq_some h, by simpa using List.find?_some h⟩
  · rintro ⟨hr, rfl⟩
    cases hf : t.find? (key r) with
    | none =>
      have := List.find?_eq_none.mp hf r hr
      simp at this
    | some r' =>
      have hkey : key r' = key r := by simpa using List.find?_some hf
      exact congrArg some
        (inj_on_of_nodup_map t.nodup (mem_of_find?_eq_some hf) hr hkey)

theorem find?_eq_none : t.find? k = none ↔ ∀ r ∈ t.rows, key r ≠ k := by
  simp [find?]

theorem find?_filter (t : Table key) (p : ρ → Bool) (k : κ) :
    (t.filter p).find? k = (t.find? k).filter p := by
  ext r
  rw [Option.filter_eq_some_iff, find?_eq_some, find?_eq_some, mem_filter]
  tauto

theorem find?_filter_ne (hp : ∀ r, p r = true ↔ key r ≠ k)
    (k' : κ) : (t.filter p).find? k' = if k = k' then none else t.find? k' := by
  rw [find?_filter]
  cases hfind : t.find? k' with
  | none => simp
  | some r =>
    obtain rfl : key r = k' := (find?_eq_some.mp hfind).2
    by_cases hk : k = key r
    · have hout : ¬p r = true := fun h => (hp r).mp h hk.symm
      rw [if_pos hk, Option.filter_some_neg (by simpa using hout)]
    · rw [if_neg hk, Option.filter_some_pos ((hp r).mpr (Ne.symm hk))]

/-- Insert a row unless its key is taken (`ON CONFLICT DO NOTHING`). -/
def insertNew (t : Table key) (r : ρ) : Table key :=
  if h : t.find? (key r) = none then
    ⟨t.rows ++ [r], by
      rw [map_append, nodup_append]
      refine ⟨t.nodup, by simp, ?_⟩
      intro a ha b hb
      obtain ⟨r', hr', rfl⟩ := mem_map.mp ha
      obtain rfl : b = key r := by simpa using hb
      exact find?_eq_none.mp h r' hr'⟩
  else t

theorem rows_insertNew (h : t.find? (key r) = none) : (t.insertNew r).rows = t.rows ++ [r] := by
  rw [insertNew, dif_pos h]

variable {r r' : ρ}

theorem insertNew_of_find? (h : t.find? (key r) = some r') : t.insertNew r = t := by
  rw [insertNew, dif_neg (by simp [h])]

theorem mem_insertNew (h : r' ∈ (t.insertNew r).rows) :
    r' ∈ t.rows ∨ (r' = r ∧ t.find? (key r) = none) := by
  rcases hf : t.find? (key r) with _ | r₀
  · rw [rows_insertNew hf] at h
    simpa using h
  · rw [insertNew_of_find? hf] at h
    exact .inl h

theorem mem_insertNew_of_mem (h : r' ∈ t.rows) : r' ∈ (t.insertNew r).rows := by
  rcases hf : t.find? (key r) with _ | r₀
  · rw [rows_insertNew hf]
    exact mem_append_left _ h
  · rwa [insertNew_of_find? hf]

theorem find?_insertNew_self (t : Table key) (r : ρ) :
    (t.insertNew r).find? (key r) = some ((t.find? (key r)).getD r) := by
  rcases hf : t.find? (key r) with _ | r₀
  · exact find?_eq_some.mpr ⟨by simp [rows_insertNew hf], rfl⟩
  · rw [insertNew_of_find? hf, hf]
    rfl

theorem find?_insertNew_of_ne (h : key r ≠ k) : (t.insertNew r).find? k = t.find? k := by
  rcases hf : t.find? (key r) with _ | r₀
  · rw [find?, rows_insertNew hf, List.find?_append]
    simp [find?, h]
  · rw [insertNew_of_find? hf]

theorem isSome_find?_insertNew (r : ρ) (h : (t.find? k).isSome) :
    ((t.insertNew r).find? k).isSome := by
  by_cases hk : key r = k
  · subst hk
    simp [find?_insertNew_self]
  · rwa [find?_insertNew_of_ne hk]

/-- Update the row with key `k`; the update keeps the key. -/
def modify (t : Table key) (k : κ) (f : ρ → ρ) (hf : ∀ r, key (f r) = key r) : Table key :=
  ⟨t.rows.map fun r => if key r = k then f r else r, by
    have hkeys : (t.rows.map fun r => if key r = k then f r else r).map key = t.rows.map key := by
      rw [map_map]
      refine map_congr_left fun r _ => ?_
      simp only [Function.comp_apply]
      split <;> simp [hf]
    rw [hkeys]
    exact t.nodup⟩

section Modify

variable {t : Table key} {k : κ} {f : ρ → ρ} (hf : ∀ r, key (f r) = key r)

theorem mem_modify :
    r' ∈ (t.modify k f hf).rows ↔ ∃ r ∈ t.rows, (if key r = k then f r else r) = r' :=
  mem_map

theorem find?_modify_self : (t.modify k f hf).find? k = (t.find? k).map f := by
  rcases h : t.find? k with _ | r
  · refine find?_eq_none.mpr fun r' hr' => ?_
    obtain ⟨r, hr, rfl⟩ := (mem_modify hf).mp hr'
    have hne := find?_eq_none.mp h r hr
    rwa [if_neg hne]
  · obtain ⟨hr, rfl⟩ := find?_eq_some.mp h
    exact find?_eq_some.mpr ⟨(mem_modify hf).mpr ⟨r, hr, if_pos rfl⟩, hf r⟩

theorem find?_modify_of_ne {k' : κ} (h : k ≠ k') : (t.modify k f hf).find? k' = t.find? k' := by
  rcases hk : t.find? k' with _ | r
  · refine find?_eq_none.mpr fun r' hr' => ?_
    obtain ⟨r, hr, rfl⟩ := (mem_modify hf).mp hr'
    have hne := find?_eq_none.mp hk r hr
    split <;> simp_all
  · obtain ⟨hr, rfl⟩ := find?_eq_some.mp hk
    exact find?_eq_some.mpr ⟨(mem_modify hf).mpr ⟨r, hr, if_neg (Ne.symm h)⟩, rfl⟩

theorem isSome_find?_modify (k' : κ) :
    ((t.modify k f hf).find? k').isSome = (t.find? k').isSome := by
  by_cases hk : k = k'
  · subst hk
    simp [find?_modify_self hf]
  · rw [find?_modify_of_ne hf hk]

theorem modify_of_find?_eq_none (h : t.find? k = none) : t.modify k f hf = t := by
  apply ext
  have hid : ∀ r ∈ t.rows, (if key r = k then f r else r) = r := fun r hr =>
    if_neg (find?_eq_none.mp h r hr)
  exact (map_congr_left hid).trans (map_id _)

end Modify

/-- Insert a row, replacing the one that has its key (`ON CONFLICT DO UPDATE`). -/
def upsert (t : Table key) (r : ρ) : Table key :=
  (t.modify (key r) (fun r' => if key r' = key r then r else r')
    (fun r' => by split <;> simp_all)).insertNew r

theorem mem_upsert : r' ∈ (t.upsert r).rows ↔ r' = r ∨ (r' ∈ t.rows ∧ key r' ≠ key r) := by
  have hkeep : ∀ r', key (if key r' = key r then r else r') = key r' := fun r' => by
    split <;> simp_all
  have hmod : ∀ r',
      r' ∈ (t.modify (key r) (fun r' => if key r' = key r then r else r') hkeep).rows ↔
      ∃ r₀ ∈ t.rows, (if key r₀ = key r then r else r₀) = r' := by
    intro r'
    rw [mem_modify]
    refine exists_congr fun r₀ => and_congr_right fun _ => ?_
    split <;> simp
  constructor
  · intro h
    rcases mem_insertNew h with h | ⟨rfl, -⟩
    · obtain ⟨r₀, hr₀, rfl⟩ := (hmod r').mp h
      by_cases hk : key r₀ = key r
      · exact .inl (if_pos hk)
      · rw [if_neg hk]
        exact .inr ⟨hr₀, hk⟩
    · exact .inl rfl
  · rintro (rfl | ⟨hr', hk⟩)
    · rcases hf : t.find? (key r') with _ | r₀
      · have hnone : (t.modify (key r') (fun r₀ => if key r₀ = key r' then r' else r₀) hkeep).find?
            (key r') = none := by
          rw [find?_modify_self, hf]
          rfl
        rw [upsert, rows_insertNew hnone]
        simp
      · obtain ⟨hr₀, hk⟩ := find?_eq_some.mp hf
        exact mem_insertNew_of_mem ((hmod r').mpr ⟨r₀, hr₀, if_pos hk⟩)
    · exact mem_insertNew_of_mem ((hmod r').mpr ⟨r', hr', if_neg hk⟩)

theorem rows_upsert (h : t.find? (key r) = none) : (t.upsert r).rows = t.rows ++ [r] := by
  rw [upsert, modify_of_find?_eq_none _ h, rows_insertNew h]

theorem find?_upsert (t : Table key) (r : ρ) (k : κ) :
    (t.upsert r).find? k = if key r = k then some r else t.find? k := by
  ext r'
  rw [find?_eq_some, mem_upsert]
  split
  · rename_i hk
    subst hk
    simp only [Option.some.injEq]
    constructor
    · rintro ⟨rfl | ⟨-, hne⟩, heq⟩
      · rfl
      · exact absurd heq hne
    · rintro rfl
      exact ⟨.inl rfl, rfl⟩
  · rename_i hk
    rw [find?_eq_some]
    constructor
    · rintro ⟨rfl | ⟨hr', -⟩, rfl⟩
      · exact absurd rfl hk
      · exact ⟨hr', rfl⟩
    · rintro ⟨hr', rfl⟩
      exact ⟨.inr ⟨hr', Ne.symm hk⟩, rfl⟩

theorem length_upsert (t : Table key) (r : ρ) :
    (t.upsert r).rows.length =
      if (t.find? (key r)).isSome then t.rows.length else t.rows.length + 1 := by
  rcases hfind : t.find? (key r) with _ | r'
  · rw [rows_upsert hfind]
    simp
  · have hkeep : ∀ r', key (if key r' = key r then r else r') = key r' := fun r' => by
      split <;> simp_all
    have hthere := find?_modify_self (t := t) (k := key r) hkeep
    rw [hfind, Option.map_some] at hthere
    rw [upsert, insertNew_of_find? hthere]
    simp [modify]

/-- Inserting rows with distinct keys one after the other. -/
theorem mem_foldl_upsert {rs : List ρ} (hrs : (rs.map key).Nodup) :
    r ∈ (rs.foldl upsert t).rows ↔ r ∈ rs ∨ (r ∈ t.rows ∧ key r ∉ rs.map key) := by
  induction rs generalizing t with
  | nil => simp
  | cons _ _ ih =>
    obtain ⟨hr₀, hrs⟩ := nodup_cons.mp hrs
    rw [foldl_cons, ih hrs, mem_upsert, map_cons, mem_cons, mem_cons, not_or]
    constructor
    · rintro (h | ⟨rfl | ⟨h, hne⟩, hout⟩)
      · exact .inl (.inr h)
      · exact .inl (.inl rfl)
      · exact .inr ⟨h, hne, hout⟩
    · rintro ((rfl | h) | ⟨h, hne, hout⟩)
      · exact .inr ⟨.inl rfl, hr₀⟩
      · exact .inl h
      · exact .inr ⟨.inr ⟨h, hne⟩, hout⟩

/-! ## Sums over the rows -/

section Sum

variable {M : Type*} [AddCommMonoid M]

omit [DecidableEq κ] in
theorem sum_congr {w w' : ρ → M} (h : ∀ r ∈ t.rows, w r = w' r) : t.sum w = t.sum w' :=
  congrArg List.sum (map_congr_left h)

omit [DecidableEq κ] in
theorem sum_eq_zero {w : ρ → M} (h : ∀ r ∈ t.rows, w r = 0) : t.sum w = 0 :=
  List.sum_eq_zero (by simpa using h)

theorem sum_insertNew (w : ρ → M) (h : t.find? (key r) = none) :
    (t.insertNew r).sum w = t.sum w + w r := by
  simp [sum, rows_insertNew h]

/-- The row with key `k` among the others. -/
theorem exists_split (h : t.find? k = some r) :
    ∃ as bs, t.rows = as ++ r :: bs ∧ (∀ r' ∈ as, key r' ≠ k) ∧ ∀ r' ∈ bs, key r' ≠ k := by
  obtain ⟨hr, rfl⟩ := find?_eq_some.mp h
  obtain ⟨as, bs, hrows⟩ := append_of_mem hr
  have hnodup := t.nodup
  rw [hrows, map_append, map_cons, nodup_middle, nodup_cons] at hnodup
  refine ⟨as, bs, hrows, fun r' hr' he => hnodup.1 ?_, fun r' hr' he => hnodup.1 ?_⟩
  · exact mem_append_left _ (he ▸ mem_map_of_mem hr')
  · exact mem_append_right _ (he ▸ mem_map_of_mem hr')

/-- An update moves the total by what it does to the one row it touches. -/
theorem sum_modify {f : ρ → ρ} (hf : ∀ r, key (f r) = key r) (w : ρ → M) (h : t.find? k = some r) :
    (t.modify k f hf).sum w + w r = t.sum w + w (f r) := by
  obtain ⟨as, bs, hrows, has, hbs⟩ := exists_split h
  have hout : ∀ l : List ρ, (∀ r' ∈ l, key r' ≠ k) →
      (l.map fun r' => if key r' = k then f r' else r') = l := by
    intro l hl
    have hid : ∀ r' ∈ l, (if key r' = k then f r' else r') = r' := fun r' hr' => if_neg (hl r' hr')
    exact (map_congr_left hid).trans (map_id _)
  have hmod : (t.modify k f hf).rows = as ++ f r :: bs := by
    simp [modify, hrows, if_pos (find?_eq_some.mp h).2, hout as has, hout bs hbs]
  simp only [sum, hmod, hrows, map_append, map_cons, sum_append, sum_cons]
  abel

/-- Weights on one key add up to that of its row. -/
theorem sum_single (w : ρ → M) (h : t.find? k = some r) :
    t.sum (fun r' => if key r' = k then w r' else 0) = w r := by
  obtain ⟨as, bs, hrows, has, hbs⟩ := exists_split h
  have hout : ∀ l : List ρ, (∀ r' ∈ l, key r' ≠ k) →
      (l.map fun r' => if key r' = k then w r' else 0).sum = 0 := by
    intro l hl
    refine List.sum_eq_zero fun x hx => ?_
    obtain ⟨r', hr', rfl⟩ := mem_map.mp hx
    exact if_neg (hl r' hr')
  rw [sum, hrows, map_append, map_cons, sum_append, sum_cons, hout as has,
    hout bs hbs, if_pos (find?_eq_some.mp h).2, zero_add, add_zero]

end Sum

end Table
