import ProviderCore.Usage.Tracking

/-!
# The running account of a finite-quota request

What the logical tracker of a finite-quota request knows about the attempts that have closed: the
facts of the dispatched ones in closing order, and the sum of their complete costs.  `Accounts`
is kept by every method of the tracker, and it determines the ledger entry `finish` builds.
-/

namespace ProviderCore.Usage

def AttemptFacts.isComplete (facts : AttemptFacts) : Bool :=
  facts.cost.status = .completeForObservedCatalogComponents

def dispatchedAttempts (closed : List AttemptFacts) : List AttemptFacts :=
  closed.filter fun facts => facts.dispatchEvidence.isConfirmedDispatch

def completeTotal (attempts : List AttemptFacts) : ℤ :=
  ((attempts.filter (·.isComplete)).map (·.cost.totalKnown.val)).sum

/-- The tracker's account after the attempts `closed` have closed. -/
structure LogicalState.Accounts (state : LogicalState) (closed : List AttemptFacts) : Prop where
  permit : state.quotaPermit = true
  attempts : state.quotaAttempts = dispatchedAttempts closed
  dispatched : dispatchedAttempts closed ≠ [] → state.quotaDispatched = true
  hasComplete : state.quotaHasCompleteCost = (dispatchedAttempts closed).any (·.isComplete)
  atoms : state.quotaAtoms.val = completeTotal (dispatchedAttempts closed)

namespace LogicalState

variable {state state' : LogicalState} {closed : List AttemptFacts}

/-- The account depends only on the quota fields. -/
theorem Accounts.congr (h : state.Accounts closed) (permit : state'.quotaPermit = state.quotaPermit)
    (attempts : state'.quotaAttempts = state.quotaAttempts)
    (dispatched : state.quotaDispatched = true → state'.quotaDispatched = true)
    (hasComplete : state'.quotaHasCompleteCost = state.quotaHasCompleteCost)
    (atoms : state'.quotaAtoms = state.quotaAtoms) : state'.Accounts closed :=
  ⟨permit.trans h.permit, attempts.trans h.attempts, fun hne => dispatched (h.dispatched hne),
    hasComplete.trans h.hasComplete, (congrArg IntRange.val atoms).trans h.atoms⟩

/-- A tracker with a permit starts with an empty account. -/
theorem accounts_nil : ({ quotaPermit := true } : LogicalState).Accounts [] :=
  ⟨rfl, rfl, fun h => absurd rfl h, rfl, rfl⟩

section

variable (h : state.Accounts closed)

include h

theorem Accounts.openAttempt (start : LogicalRequestStart)
    (catalog : Option CatalogSnapshot) (spec : AttemptSpec) (nowMs : ℤ) :
    (state.openAttempt start catalog spec nowMs).2.Accounts closed :=
  h.congr rfl rfl id rfl rfl

theorem Accounts.markQuotaDispatched : state.markQuotaDispatched.Accounts closed :=
  h.congr rfl rfl (fun _ => rfl) rfl rfl

theorem Accounts.recordExecution (outcome : ExecutionOutcome) :
    (state.recordExecution outcome).Accounts closed := by
  unfold LogicalState.recordExecution
  split
  · exact h.congr rfl rfl id rfl rfl
  · exact h

theorem Accounts.recordDelivery (outcome : DeliveryOutcome) :
    (state.recordDelivery outcome).Accounts closed := by
  unfold LogicalState.recordDelivery
  split
  · exact h.congr rfl rfl id rfl rfl
  · exact h

theorem Accounts.noteFinalAttempt (attemptId : String) (sequence : U32)
    (execution : ExecutionOutcome) :
    (state.noteFinalAttempt attemptId sequence execution).Accounts closed := by
  unfold LogicalState.noteFinalAttempt
  split
  · exact h.congr rfl rfl id rfl rfl
  · exact h

end

variable {facts : AttemptFacts}

/-- A closed attempt enters the account once; one that was not dispatched does not. -/
theorem Accounts.noteQuotaResult (h : state.Accounts closed)
    (hnote : state.noteQuotaResult facts = some state') : state'.Accounts (closed ++ [facts]) := by
  unfold LogicalState.noteQuotaResult at hnote
  by_cases hsent : facts.dispatchEvidence.isConfirmedDispatch = true
  · have hclosed :
        dispatchedAttempts (closed ++ [facts]) = dispatchedAttempts closed ++ [facts] := by
      simp [dispatchedAttempts, hsent]
    simp only [hsent, Bool.not_true, Bool.false_eq_true, if_false, h.permit, if_true] at hnote
    by_cases hcomplete : facts.cost.status = .completeForObservedCatalogComponents
    · rw [if_pos hcomplete] at hnote
      obtain ⟨_, hadd, rfl⟩ := Option.map_eq_some_iff.mp hnote
      have hsum := IntRange.checkedAdd_eq_some.mp hadd
      refine ⟨rfl, ?_, fun _ => rfl, ?_, ?_⟩
      · simp [hclosed, h.attempts]
      · simp [hclosed, AttemptFacts.isComplete, hcomplete]
      · simp [hclosed, completeTotal, AttemptFacts.isComplete, hcomplete, ← hsum, h.atoms]
    · rw [if_neg hcomplete] at hnote
      cases hnote
      refine ⟨rfl, ?_, fun _ => rfl, ?_, ?_⟩
      · simp [hclosed, h.attempts]
      · simp [hclosed, AttemptFacts.isComplete, hcomplete, h.hasComplete]
      · simp [hclosed, completeTotal, AttemptFacts.isComplete, hcomplete, h.atoms]
  · have hclosed : dispatchedAttempts (closed ++ [facts]) = dispatchedAttempts closed := by
      simp [dispatchedAttempts, hsent]
    rw [if_pos (by simpa using hsent)] at hnote
    cases hnote
    exact ⟨h.permit, hclosed ▸ h.attempts, hclosed ▸ h.dispatched, hclosed ▸ h.hasComplete,
      hclosed ▸ h.atoms⟩

theorem Accounts.noteClosed (h : state.Accounts closed) {attempt : AttemptTracker}
    (hnote : state.noteClosed attempt facts = some state') : state'.Accounts (closed ++ [facts]) :=
  (h.noteFinalAttempt _ _ _).noteQuotaResult hnote

/-- The ledger entry of an account. -/
theorem Accounts.quotaEntry (h : state.Accounts closed) (start : LogicalRequestStart) (nowMs : ℤ) :
    (quotaEntry start state nowMs).attempts = dispatchedAttempts closed ∧
      (quotaEntry start state nowMs).dispatched = state.quotaDispatched ∧
      (quotaEntry start state nowMs).costAtoms =
        if state.quotaDispatched ∧ ∃ facts ∈ dispatchedAttempts closed, facts.isComplete then
          some (toString (completeTotal (dispatchedAttempts closed)))
        else none := by
  refine ⟨h.attempts, rfl, ?_⟩
  simp [Usage.quotaEntry, h.hasComplete, h.atoms]

end LogicalState

end ProviderCore.Usage
