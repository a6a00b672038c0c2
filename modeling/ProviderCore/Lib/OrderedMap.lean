import Mathlib.Data.List.Perm.Basic
import Mathlib.Order.Lattice

/-!
# Maps in the order of their keys

An association list whose keys increase strictly, so that a key has one value and the values come in
the order of the keys.  Where the order does not matter, an insertion is understood up to
permutation: the new entry, and every other entry as it was (`insert_perm`).
-/

structure OrderedMap (κ α : Type) [LinearOrder κ] where
  entries : List (κ × α)
  sorted : entries.Pairwise fun e e' => e.1 < e'.1

namespace OrderedMap

open List

variable {κ α : Type} [LinearOrder κ]

/-! ## Entries -/

def insertEntry (k : κ) (a : α) : List (κ × α) → List (κ × α)
  | [] => [(k, a)]
  | e :: entries =>
    if k < e.1 then (k, a) :: e :: entries
    else if k = e.1 then (k, a) :: entries
    else e :: insertEntry k a entries

/-- Every entry but that of a key. -/
def others (k : κ) (entries : List (κ × α)) : List (κ × α) := entries.filter (·.1 ≠ k)

variable {k : κ} {a : α} {entries : List (κ × α)}

theorem others_of_lt (h : ∀ e ∈ entries, k < e.1) : others k entries = entries :=
  filter_eq_self.mpr fun e he => decide_eq_true (h e he).ne'

theorem insertEntry_perm (h : entries.Pairwise fun e e' => e.1 < e'.1) :
    (insertEntry k a entries).Perm ((k, a) :: others k entries) := by
  induction entries with
  | nil => exact .refl _
  | cons e entries ih =>
    rw [pairwise_cons] at h
    rcases lt_trichotomy k e.1 with hlt | heq | hgt
    · have hall : ∀ e' ∈ e :: entries, k < e'.1 :=
        forall_mem_cons.mpr ⟨hlt, fun e' he' => hlt.trans (h.1 e' he')⟩
      rw [insertEntry, if_pos hlt, others_of_lt hall]
    · have hrest : ∀ e' ∈ entries, k < e'.1 := fun e' he' => heq ▸ h.1 e' he'
      have hothers : others k (e :: entries) = entries :=
        (filter_cons_of_neg (by simpa using heq.symm)).trans (others_of_lt hrest)
      rw [insertEntry, if_neg heq.not_lt, if_pos heq, hothers]
    · rw [insertEntry, if_neg hgt.not_gt, if_neg hgt.ne', others,
        filter_cons_of_pos (by simpa using hgt.ne)]
      exact (List.Perm.cons e (ih h.2)).trans (.swap _ _ _)

theorem insertEntry_sorted (h : entries.Pairwise fun e e' => e.1 < e'.1) :
    (insertEntry k a entries).Pairwise fun e e' => e.1 < e'.1 := by
  induction entries with
  | nil => exact pairwise_singleton _ _
  | cons e _ ih =>
    have hcons := pairwise_cons.mp h
    rcases lt_trichotomy k e.1 with hlt | heq | hgt
    · rw [insertEntry, if_pos hlt, pairwise_cons]
      exact ⟨forall_mem_cons.mpr ⟨hlt, fun e' he' => hlt.trans (hcons.1 e' he')⟩, h⟩
    · rw [insertEntry, if_neg heq.not_lt, if_pos heq, pairwise_cons]
      exact ⟨fun e' he' => heq ▸ hcons.1 e' he', hcons.2⟩
    · rw [insertEntry, if_neg hgt.not_gt, if_neg hgt.ne', pairwise_cons]
      refine ⟨?_, ih hcons.2⟩
      intro e' he'
      rcases mem_cons.mp ((insertEntry_perm hcons.2).mem_iff.mp he') with rfl | he'
      · exact hgt
      · exact hcons.1 e' (mem_of_mem_filter he')

/-! ## The map -/

def empty : OrderedMap κ α := ⟨[], .nil⟩

def get? (m : OrderedMap κ α) (k : κ) : Option α := m.entries.lookup k

def insert (m : OrderedMap κ α) (k : κ) (a : α) : OrderedMap κ α :=
  ⟨insertEntry k a m.entries, insertEntry_sorted m.sorted⟩

def values (m : OrderedMap κ α) : List α := m.entries.map (·.2)

variable {m : OrderedMap κ α}

theorem insert_perm (m : OrderedMap κ α) (k : κ) (a : α) :
    (m.insert k a).entries.Perm ((k, a) :: others k m.entries) := insertEntry_perm m.sorted

theorem insert_perm_of_new (hnew : k ∉ m.entries.map (·.1)) (a : α) :
    (m.insert k a).entries.Perm ((k, a) :: m.entries) := by
  have hothers : others k m.entries = m.entries :=
    filter_eq_self.mpr fun e he => decide_eq_true fun heq =>
      hnew (heq ▸ mem_map_of_mem he)
  exact hothers ▸ m.insert_perm k a

/-- A key that is there is there once. -/
theorem entries_perm_of_get? (h : m.get? k = some a) :
    m.entries.Perm ((k, a) :: others k m.entries) := by
  obtain ⟨entries, hsorted⟩ := m
  change entries.lookup k = some a at h
  induction entries with
  | nil => cases h
  | cons e entries ih =>
    rw [pairwise_cons] at hsorted
    by_cases hkey : k = e.1
    · have hrest : ∀ e' ∈ entries, k < e'.1 := fun e' he' => hkey ▸ hsorted.1 e' he'
      obtain rfl : e = (k, a) := by
        obtain ⟨_, _⟩ := e
        subst hkey
        simpa using h
      have hothers : others k ((k, a) :: entries) = entries :=
        (filter_cons_of_neg (by simp)).trans (others_of_lt hrest)
      rw [hothers]
    · have hlookup : entries.lookup k = some a := by
        rwa [lookup_cons, beq_false_of_ne hkey] at h
      rw [others, filter_cons_of_pos (by simpa using Ne.symm hkey)]
      exact (List.Perm.cons e (ih hsorted.2 hlookup)).trans (.swap _ _ _)

theorem others_of_get?_none (h : m.get? k = none) : others k m.entries = m.entries := by
  refine filter_eq_self.mpr fun e he => decide_eq_true ?_
  have hne := lookup_eq_none_iff.mp h e he
  rw [bne_iff_ne] at hne
  exact hne.symm

end OrderedMap
