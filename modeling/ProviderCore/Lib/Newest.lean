import Mathlib.Data.List.Induction
import Mathlib.Tactic.Linarith

/-!
# Keeping the newest

A list is gone through once.  An element takes the place of the first kept one that is near to it,
if it is newer.  Nearness need not be transitive: an element that takes a place may be near to a
third.  What is kept is apart where no element is near to two earlier ones that are apart and newer
than one of them.
-/

namespace Newest

open List

variable {α τ : Type*} [LinearOrder τ] (near : α → α → Prop) [DecidableRel near] (time : α → τ)

def keep : List α → α → List α
  | [], a => [a]
  | b :: kept, a =>
    if near b a then (if time a > time b then a else b) :: kept else b :: keep kept a

abbrev Apart (l : List α) : Prop := l.Pairwise (¬ near · ·)

/-- An element near to two that are apart, and newer than the first. -/
def Bridges (a b c : α) : Prop := near a c ∧ near b c ∧ ¬near a b ∧ time a < time c

/-- No element bridges two earlier ones. -/
def Bridgeless (l : List α) : Prop :=
  ∀ before c after, l = before ++ c :: after →
    ∀ a ∈ before, ∀ b ∈ before, ¬Bridges near time a b c

/-- A chain of neighbours within a list. -/
def Linked (l : List α) : α → α → Prop :=
  Relation.ReflTransGen fun a b => a ∈ l ∧ b ∈ l ∧ near a b

variable {near} {time} {a b : α} {l kept : List α}

theorem keep_subset : keep near time kept a ⊆ a :: kept := by
  intro b h
  induction kept with
  | nil => exact h
  | cons _ _ ih =>
    simp only [keep] at h
    split_ifs at h <;> grind

theorem foldl_keep_subset : l.foldl (keep near time) [] ⊆ l :=
  l.foldlRecOn (motive := (· ⊆ l)) _ (nil_subset _) fun _ hkept _ ha =>
    Subset.trans keep_subset (cons_subset.mpr ⟨ha, hkept⟩)

variable (hsymm : ∀ {a b}, near a b → near b a)

include hsymm

variable (time) in
/-- Nothing is lost but to a neighbour as new. -/
theorem keep_covers (hb : b ∈ a :: kept) :
    ∃ c ∈ keep near time kept a, time b ≤ time c ∧ (b = c ∨ near b c) := by
  induction kept with
  | nil => exact ⟨b, hb, le_rfl, .inl rfl⟩
  | cons _ _ ih =>
    simp only [keep]
    split_ifs with hnear hnewer
    · grind
    · have := hsymm hnear
      grind
    · grind

theorem foldl_keep_covers {among : List α} (hl : l ⊆ among) (hkept : kept ⊆ among)
    (ha : a ∈ kept ∨ a ∈ l) :
    ∃ b ∈ l.foldl (keep near time) kept, time a ≤ time b ∧ Linked near among a b := by
  induction l generalizing kept a with
  | nil => exact ⟨a, ha.resolve_right not_mem_nil, le_rfl, .refl⟩
  | cons c l ih =>
    rw [cons_subset] at hl
    have hinputs : c :: kept ⊆ among := cons_subset.mpr ⟨hl.1, hkept⟩
    have hkeep : keep near time kept c ⊆ among := Subset.trans keep_subset hinputs
    by_cases hrest : a ∈ l
    · exact ih hl.2 hkeep (.inr hrest)
    · have ha : a ∈ c :: kept := by grind
      obtain ⟨b, hb, hle, hnear⟩ := keep_covers time hsymm ha
      obtain ⟨d, hd, hle', hlinked⟩ := ih hl.2 hkeep (.inl hb)
      refine ⟨d, hd, le_trans hle hle', ?_⟩
      rcases hnear with rfl | hnear
      · exact hlinked
      · exact .head ⟨hinputs ha, hkeep hb, hnear⟩ hlinked

theorem apart_keep (h : Apart near kept)
    (hno : ∀ b ∈ kept, ∀ c ∈ kept, ¬Bridges near time b c a) :
    Apart near (keep near time kept a) := by
  induction kept with
  | nil => exact pairwise_singleton _ _
  | cons b kept ih =>
    obtain ⟨hb, hkept⟩ := pairwise_cons.mp h
    by_cases hnear : near b a
    · rw [keep, if_pos hnear]
      split_ifs with hnewer
      · refine pairwise_cons.mpr ⟨fun c hc hac => ?_, hkept⟩
        -- the place was near to none of the others
        exact hno b mem_cons_self c (mem_cons_of_mem b hc) ⟨hnear, hsymm hac, hb c hc, hnewer⟩
      · exact h
    · rw [keep, if_neg hnear]
      refine pairwise_cons.mpr ⟨fun c hc => ?_, ih hkept fun c hc d hd =>
        hno c (mem_cons_of_mem b hc) d (mem_cons_of_mem b hd)⟩
      rcases mem_cons.mp (keep_subset hc) with rfl | hc
      · exact hnear
      · exact hb c hc

theorem apart_foldl_keep (h : Bridgeless near time l) :
    Apart near (l.foldl (keep near time) []) := by
  -- from the last element back: what was kept before it is from what comes before it
  induction l using reverseRecOn with
  | nil => exact .nil
  | append_singleton l c ih =>
    rw [foldl_append]
    refine apart_keep hsymm (ih fun before d after hl => ?_) fun a ha b hb => ?_
    · exact h before d (after ++ [c]) (by rw [hl, append_assoc, cons_append])
    · exact h l c [] rfl a (foldl_keep_subset ha) b (foldl_keep_subset hb)

/-- Every list from some elements is kept apart exactly if none of them bridges two others. -/
theorem apart_foldl_keep_iff {s : Set α} :
    (∀ l : List α, (∀ a ∈ l, a ∈ s) → Apart near (l.foldl (keep near time) [])) ↔
      ∀ a ∈ s, ∀ b ∈ s, ∀ c ∈ s, ¬Bridges near time a b c := by
  constructor
  · rintro h a ha b hb c hc ⟨hac, hbc, hab, hnewer⟩
    have hthree := h [a, b, c] (by simp [ha, hb, hc])
    simp only [foldl_cons, foldl_nil, keep, hab, hac, hnewer, gt_iff_lt, if_true, if_false,
      Apart, pairwise_cons, mem_singleton, forall_eq] at hthree
    exact hthree.1 (hsymm hbc)
  · intro h l hl
    refine apart_foldl_keep hsymm fun before c after heq a ha b hb => ?_
    exact h a (hl a (by simp [heq, ha])) b (hl b (by simp [heq, hb])) c (hl c (by simp [heq]))

end Newest
