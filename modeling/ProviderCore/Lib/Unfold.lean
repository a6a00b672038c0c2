import Mathlib.Data.List.Basic

/-!
# Streams that are read item by item

A stream is a state and a function that takes the next item out of it.  `Reads next s items` says
that whoever reads on from `s` until the stream ends gets `items`.

To know what is read it is enough to say for every state what is still to come: a list that loses
its head with each item and is empty when there is none.  Such a list exists only if the stream
ends, so `Foretells.reads` is also a proof that it does.
-/

namespace Unfold

variable {σ α : Type} {next : σ → Option (α × σ)} {coming : σ → List α} {s : σ}
  {items items' : List α}

inductive Reads (next : σ → Option (α × σ)) : σ → List α → Prop
  | done {s : σ} (h : next s = none) : Reads next s []
  | item {s s' : σ} {a : α} {items : List α} (h : next s = some (a, s'))
      (rest : Reads next s' items) : Reads next s (a :: items)

theorem Reads.unique (h : Reads next s items) (h' : Reads next s items') : items = items' := by
  induction h generalizing items' with
  | done hnone =>
    cases h' with
    | done => rfl
    | item hsome => cases hnone.symm.trans hsome
  | item hsome _ ih =>
    cases h' with
    | done hnone => cases hnone.symm.trans hsome
    | item hsome' rest =>
      cases hsome.symm.trans hsome'
      rw [ih rest]

/-- What is still to come, state by state. -/
structure Foretells (next : σ → Option (α × σ)) (coming : σ → List α) : Prop where
  ended : ∀ {s}, next s = none → coming s = []
  item : ∀ {s s' a}, next s = some (a, s') → coming s = a :: coming s'

theorem Foretells.of_elim
    (h : ∀ s, coming s = (next s).elim [] fun read => read.1 :: coming read.2) :
    Foretells next coming where
  ended hnone := by rw [h, hnone, Option.elim_none]
  item hsome := by rw [h, hsome, Option.elim_some]

theorem Foretells.reads (h : Foretells next coming) (s : σ) : Reads next s (coming s) := by
  induction hcoming : coming s generalizing s with
  | nil =>
    rcases hnext : next s with _ | ⟨a, s'⟩
    · exact .done hnext
    · cases hcoming.symm.trans (h.item hnext)
  | cons _ _ ih =>
    rcases hnext : next s with _ | ⟨a', s'⟩
    · cases hcoming.symm.trans (h.ended hnext)
    · obtain ⟨rfl, hrest⟩ := List.cons.inj (hcoming.symm.trans (h.item hnext))
      exact .item hnext (ih s' hrest.symm)

theorem Foretells.reads_iff (h : Foretells next coming) : Reads next s items ↔ items = coming s :=
  ⟨fun hreads => hreads.unique (h.reads s), fun heq => heq ▸ h.reads s⟩

end Unfold
