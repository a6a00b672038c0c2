import Mathlib.Data.List.Basic

/-!
# Lists of slots

A list whose positions are slots that are overwritten in place.  `exists_set_iff` says what holds
of some slot after one was overwritten: either of the new content, or of another slot.  `All`
holds of every slot with its position, and its lemmas follow the ways a list of slots changes.
-/

universe u v

namespace Slots

variable {α : Type u} {l : List α} {index : ℕ} {old new : α} {P : α → Prop}

def Elsewhere (l : List α) (index : ℕ) (P : α → Prop) : Prop :=
  ∃ position other, position ≠ index ∧ l[position]? = some other ∧ P other

theorem exists_iff (h : l[index]? = some old) :
    (∃ other ∈ l, P other) ↔ P old ∨ Elsewhere l index P := by
  constructor
  · rintro ⟨other, hmem, hother⟩
    obtain ⟨position, hposition⟩ := List.getElem?_of_mem hmem
    by_cases hsame : position = index
    · subst hsame
      obtain rfl : old = other := Option.some.inj (h.symm.trans hposition)
      exact .inl hother
    · exact .inr ⟨position, other, hsame, hposition, hother⟩
  · rintro (hold | ⟨position, other, -, hposition, hother⟩)
    · exact ⟨old, List.mem_of_getElem? h, hold⟩
    · exact ⟨other, List.mem_of_getElem? hposition, hother⟩

theorem elsewhere_set : Elsewhere (l.set index new) index P ↔ Elsewhere l index P := by
  refine exists_congr fun position => exists_congr fun other => and_congr_right fun hne => ?_
  rw [List.getElem?_set_ne hne.symm]

theorem exists_set_iff (h : l[index]? = some old) :
    (∃ other ∈ l.set index new, P other) ↔ P new ∨ Elsewhere l index P := by
  have hlength : index < l.length := (List.getElem?_eq_some_iff.mp h).1
  have hnew : (l.set index new)[index]? = some new := List.getElem?_set_self hlength
  rw [exists_iff hnew, elsewhere_set]

theorem exists_set_congr (h : l[index]? = some old) (hP : P old ↔ P new) :
    (∃ other ∈ l.set index new, P other) ↔ ∃ other ∈ l, P other := by
  rw [exists_set_iff h, exists_iff h, hP]

theorem exists_set_of_not (h : l[index]? = some old) (hP : ¬P old) :
    (∃ other ∈ l.set index new, P other) ↔ P new ∨ ∃ other ∈ l, P other := by
  rw [exists_set_iff h, exists_iff h, or_iff_right hP]

/-- Overwriting a slot moves a count by what it does to that slot. -/
theorem countP_set_add (p : α → Bool) (h : l[index]? = some old) :
    (l.set index new).countP p + (p old).toNat = l.countP p + (p new).toNat := by
  obtain ⟨hlength, rfl⟩ := List.getElem?_eq_some_iff.mp h
  rw [List.countP_set hlength]
  have hpos : p l[index] = true → 0 < l.countP p := fun hp =>
    List.countP_pos_iff.mpr ⟨_, List.getElem_mem hlength, hp⟩
  cases hold : p l[index] with
  | false => cases p new <;> simp
  | true =>
    have := hpos hold
    cases p new <;> simp <;> omega

/-! ## Every slot -/

/-- Every slot satisfies `P` at its position. -/
def All (P : ℕ → α → Prop) (l : List α) : Prop := ∀ position a, l[position]? = some a → P position a

section All

variable {β : Type v} {P Q : ℕ → α → Prop} {R : ℕ → β → Prop}

theorem all_nil : All P [] := by
  intro position a h
  simp at h

theorem All.mono (h : All P l) (himp : ∀ position a, P position a → Q position a) : All Q l :=
  fun position a ha => himp position a (h position a ha)

theorem All.append (h : All P l) {a : α} (ha : P l.length a) : All P (l ++ [a]) := by
  intro position b hb
  rcases Nat.lt_trichotomy position l.length with hlt | rfl | hgt
  · rw [List.getElem?_append_left hlt] at hb
    exact h position b hb
  · obtain rfl : a = b := by simpa using hb
    exact ha
  · rw [List.getElem?_eq_none (by simp; omega)] at hb
    cases hb

variable {f : α → α}

theorem All.modify (h : All P l)
    (hother : ∀ position a, position ≠ index → P position a → Q position a)
    (hself : ∀ a, l[index]? = some a → P index a → Q index (f a)) : All Q (l.modify index f) := by
  intro position b hb
  by_cases hsame : index = position
  · subst hsame
    rw [List.getElem?_modify_eq] at hb
    obtain ⟨a, ha, rfl⟩ := Option.map_eq_some_iff.mp hb
    exact hself a ha (h index a ha)
  · rw [List.getElem?_modify_ne _ _ hsame] at hb
    exact hother position b (Ne.symm hsame) (h position b hb)

theorem All.map (h : All P l) {f : α → β} (hf : ∀ position a, P position a → R position (f a)) :
    All R (l.map f) := by
  intro position b hb
  rw [List.getElem?_map] at hb
  obtain ⟨a, ha, rfl⟩ := Option.map_eq_some_iff.mp hb
  exact hf position a (h position a ha)

/-- A change that keeps what `g` reads of a slot. -/
theorem map_modify_eq {g : α → β} (hf : ∀ a, g (f a) = g a) :
    (l.modify index f).map g = l.map g := by
  refine List.ext_getElem? fun position => ?_
  rw [List.getElem?_map, List.getElem?_map, List.getElem?_modify]
  cases l[position]? with
  | none => rfl
  | some a =>
    show some (g (if index = position then f a else a)) = some (g a)
    split
    · rw [hf]
    · rfl

end All

end Slots
