import Mathlib.Data.List.Basic

/-!
# Fallible folds

Inversion and induction for loops that stop at the first failure: a `foldlM` in `Option` or
`Except`.
-/

namespace Fold

open List

variable {α β ε : Type}

variable {γ : Type} {x : Except ε β}

/-- A sequence of two fallible steps succeeds through a result of the first. -/
theorem bind_eq_ok {f : β → Except ε γ} {c : γ} :
    x >>= f = .ok c ↔ ∃ b, x = .ok b ∧ f b = .ok c := by
  cases x with
  | error | ok => simp [bind, Except.bind]

theorem map_eq_ok {f : β → γ} {c : γ} : x.map f = .ok c ↔ ∃ b, x = .ok b ∧ f b = c := by
  cases x with
  | error | ok => simp [Except.map]

variable {l : List α}

/-- What every step of a fold in `Option` keeps holds of its result. -/
theorem some_induction {f : β → α → Option β} (P : β → Prop)
    (hstep : ∀ b a b', P b → f b a = some b' → P b') {b b' : β} (hb : P b)
    (h : l.foldlM f b = some b') : P b' := by
  induction l generalizing b with
  | nil =>
    cases h
    exact hb
  | cons a _ ih =>
    obtain ⟨b₁, hone, hrest⟩ := Option.bind_eq_some_iff.mp h
    exact ih (hstep b a b₁ hb hone) hrest

/-- A property of the rest of the list and the value so far that every step keeps. -/
theorem ok_induction {f : β → α → Except ε β} (I : List α → β → Prop)
    (hstep : ∀ a l b b', I (a :: l) b → f b a = .ok b' → I l b') {b b' : β}
    (hb : I l b) (h : l.foldlM f b = .ok b') : I [] b' := by
  induction l generalizing b with
  | nil =>
    cases h
    exact hb
  | cons a l ih =>
    rw [foldlM_cons, bind_eq_ok] at h
    obtain ⟨b₁, hone, hrest⟩ := h
    exact ih (hstep a l b b₁ hb hone) hrest

variable {l' : List β}

/-- A list is read through a reading of each of its elements. -/
theorem forall₂_of_mapM {f : α → Option β} (h : l.mapM f = some l') :
    List.Forall₂ (fun a b => f a = some b) l l' := by
  induction l generalizing l' with
  | nil =>
    cases h
    exact .nil
  | cons _ _ ih =>
    rw [mapM_cons] at h
    obtain ⟨_, hone, h⟩ := Option.bind_eq_some_iff.mp h
    obtain ⟨_, hrest, h⟩ := Option.bind_eq_some_iff.mp h
    cases h
    exact .cons hone (ih hrest)

theorem filterMap_of_mapM {f : α → Except ε (Option β)} {l' : List (Option β)}
    (h : l.mapM f = .ok l') : l'.filterMap id = l.filterMap fun a => (f a).toOption.join := by
  induction l generalizing l' with
  | nil =>
    cases h
    rfl
  | cons _ _ ih =>
    rw [mapM_cons, bind_eq_ok] at h
    obtain ⟨b, hone, h⟩ := h
    obtain ⟨_, hrest, h⟩ := bind_eq_ok.mp h
    cases h
    rw [filterMap_cons, filterMap_cons, hone, ih hrest]
    cases b <;> rfl

theorem forall_of_forM {f : α → Except ε Unit} (h : l.forM f = .ok ()) : ∀ a ∈ l, f a = .ok () := by
  induction l with
  | nil => simp
  | cons _ _ ih =>
    obtain ⟨⟨⟩, hone, hrest⟩ := bind_eq_ok.mp h
    exact forall_mem_cons.mpr ⟨hone, ih hrest⟩

theorem exists_of_forall₂ {R : α → β → Prop} (h : List.Forall₂ R l l')
    {b : β} (hb : b ∈ l') : ∃ a ∈ l, R a b := by
  induction h with
  | nil => cases hb
  | @cons a b' l l' hone hrest ih =>
    rcases mem_cons.mp hb with rfl | hb
    · exact ⟨a, mem_cons_self, hone⟩
    · obtain ⟨a', ha', hrel⟩ := ih hb
      exact ⟨a', mem_cons_of_mem a ha', hrel⟩

theorem mapM_congr {f g : α → Except ε β} {l : List α} (h : ∀ a ∈ l, f a = g a) :
    l.mapM f = l.mapM g := by
  induction l with
  | nil => rfl
  | cons _ _ ih =>
    rw [forall_mem_cons] at h
    rw [mapM_cons, mapM_cons, h.1, ih h.2]

variable {write : α → β}

/-- A list whose elements are each read back is read back. -/
theorem mapM_map {read : β → Except ε α}
    (h : ∀ a ∈ l, read (write a) = .ok a) : (l.map write).mapM read = .ok l := by
  induction l with
  | nil => rfl
  | cons _ _ ih =>
    rw [forall_mem_cons] at h
    rw [map_cons, mapM_cons, h.1, ih h.2]
    rfl

/-- A list of which each element is read, or refused for the same reason. -/
theorem mapM_read_or {P : α → Prop} [DecidablePred P] {read : β → Except ε γ} {kept : α → γ} {e : ε}
    (h : ∀ a ∈ l, read (write a) = if P a then .ok (kept a) else .error e) :
    (l.map write).mapM read = if ∀ a ∈ l, P a then .ok (l.map kept) else .error e := by
  induction l with
  | nil => rfl
  | cons a l ih =>
    rw [forall_mem_cons] at h
    rw [map_cons, mapM_cons, h.1, ih h.2]
    by_cases ha : P a
    · rw [if_pos ha]
      by_cases hl : ∀ a ∈ l, P a
      · rw [if_pos hl, if_pos (forall_mem_cons.mpr ⟨ha, hl⟩)]
        rfl
      · rw [if_neg hl, if_neg fun hall => hl (forall_mem_cons.mp hall).2]
        rfl
    · rw [if_neg ha, if_neg fun hall => ha (forall_mem_cons.mp hall).1]
      rfl

end Fold
