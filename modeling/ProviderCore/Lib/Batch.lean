import Mathlib.Data.List.Nodup
import Mathlib.Data.List.Perm.Basic

/-!
# Work that is taken off in batches

A batch takes some of the pending items and leaves the others.  Items are distinct, so the batch
and what it leaves are together what was pending.
-/

universe u

namespace Batch

variable {α : Type u} {pending batch left : List α}

theorem perm_append (hpending : pending.Nodup) (hbatch : batch.Nodup) (hleft : left.Nodup)
    (hsub : ∀ a ∈ batch, a ∈ pending) (h : ∀ a, a ∈ left ↔ a ∈ pending ∧ a ∉ batch) :
    (batch ++ left).Perm pending := by
  refine (List.perm_ext_iff_of_nodup ?_ hpending).mpr fun a => ?_
  · refine List.nodup_append.mpr ⟨hbatch, hleft, ?_⟩
    rintro a hmem _ hother rfl
    exact ((h a).mp hother).2 hmem
  · rw [List.mem_append, h]
    constructor
    · rintro (hmem | ⟨hmem, -⟩)
      · exact hsub a hmem
      · exact hmem
    · intro hmem
      by_cases hdone : a ∈ batch
      · exact .inl hdone
      · exact .inr ⟨hmem, hdone⟩

end Batch
