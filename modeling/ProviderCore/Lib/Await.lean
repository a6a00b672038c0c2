import Mathlib.Data.Option.Basic

/-!
# Calls that can fail or be abandoned

A caller awaits a call on a store.  The call may take effect and answer, it may fail without
an effect, and the caller may be dropped while it waits, before or after the call took effect.
`Fate` names the four possibilities and `Fate.perform` is what the caller and the store see of
each.  `Ended` is how the caller itself ends.
-/

namespace Await

/-- What becomes of one awaited call. -/
inductive Fate
  /-- The call took effect and its answer arrived. -/
  | answered
  /-- The call failed and had no effect. -/
  | failed
  /-- The caller was dropped and the call never took effect. -/
  | droppedBefore
  /-- The call took effect, but the caller was dropped before the answer arrived. -/
  | droppedAfter
deriving DecidableEq

/-- What the caller sees of a call. -/
inductive Reply (α : Type*)
  | answer (value : α)
  | error
  | dropped
deriving DecidableEq

/-- How a caller ends: with a result, with an error of its own, or dropped. -/
inductive Ended (ε α : Type*)
  | returned (value : α)
  | failed (error : ε)
  | cancelled
deriving DecidableEq

variable {σ α : Type*}

/-- Run `call` on the store `s`; a call without a result is one that the store rejects. -/
def Fate.perform (fate : Fate) (call : σ → Option (α × σ)) (s : σ) : Reply α × σ :=
  match fate with
  | .answered => match call s with
    | some (value, s') => (.answer value, s')
    | none => (.error, s)
  | .failed => (.error, s)
  | .droppedBefore => (.dropped, s)
  | .droppedAfter => (.dropped, ((call s).map Prod.snd).getD s)

variable {P : σ → Prop}

/-- What the store and every result of the call satisfy holds whatever becomes of the call. -/
theorem Fate.perform_keeps (fate : Fate) {call : σ → Option (α × σ)} {s : σ}
    (hs : P s) (hcall : ∀ value s', call s = some (value, s') → P s') :
    P (fate.perform call s).2 := by
  rcases hresult : call s with _ | ⟨value, s'⟩
  · cases fate <;> simpa [perform, hresult] using hs
  · have := hcall value s' hresult
    cases fate <;> simpa [perform, hresult]

variable {call : σ → α × σ}

theorem eq_snd_of_some {s s' : σ} {value : α}
    (h : (some ∘ call) s = some (value, s')) : s' = (call s).2 :=
  (congrArg Prod.snd (Option.some.inj h)).symm

theorem Fate.perform_some_keeps (fate : Fate) {s : σ}
    (hs : P s) (hcall : P (call s).2) : P (fate.perform (some ∘ call) s).2 := by
  refine fate.perform_keeps hs fun value s' h => ?_
  obtain rfl := eq_snd_of_some h
  exact hcall

def Fate.reached : Fate → Bool
  | .answered | .droppedAfter => true
  | .failed | .droppedBefore => false

def Fate.read (fate : Fate) (value : α) : Reply α :=
  match fate with
  | .answered => .answer value
  | .failed => .error
  | .droppedBefore | .droppedAfter => .dropped

end Await
