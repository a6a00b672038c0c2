import ProviderCore.Usage.AttemptLife
import ProviderCore.Usage.CostExact
import ProviderCore.Usage.CostSign
import ProviderCore.Usage.QuotaAccount
import Mathlib.Algebra.Order.BigOperators.Group.List

/-!
# The quota total of a request

Closing an attempt adds its complete cost to the request's total, which is expected to fit.  It
does exactly when the exact costs of all its attempts together have 128 bits; each of them by
itself always has.
-/

namespace ProviderCore.Usage

open List

/-- The attempts of a request close one after the other; `none` is a panic. -/
def LogicalState.closeAll (requestId : String) (state : LogicalState)
    (attempts : List (AttemptTracker × ℤ)) : Option LogicalState :=
  attempts.foldlM (fun state attempt =>
    state.noteClosed attempt.1 (attemptFacts requestId attempt.1 attempt.2)) state

def closedFacts (requestId : String) (attempts : List (AttemptTracker × ℤ)) : List AttemptFacts :=
  attempts.map fun attempt => attemptFacts requestId attempt.1 attempt.2

/-- What an attempt costs without any bound. -/
def AttemptFacts.exactCost (facts : AttemptFacts) : ℤ :=
  match facts.price with
  | .resolved record =>
    ((recordComponents facts.observation facts.contract record).map CostComponent.exact).sum
  | _ => 0

/-- The exact costs of the attempts that were sent and have a complete cost. -/
def exactQuotaTotal (attempts : List AttemptFacts) : ℤ :=
  (((dispatchedAttempts attempts).filter (·.isComplete)).map AttemptFacts.exactCost).sum

/-- A complete cost is the exact one. -/
theorem totalKnown_of_isComplete {requestId : String} {attempt : AttemptTracker} {at_ : ℤ}
    (h : (attemptFacts requestId attempt at_).isComplete = true) :
    (attemptFacts requestId attempt at_).cost.totalKnown.val =
      (attemptFacts requestId attempt at_).exactCost := by
  rw [AttemptFacts.isComplete, decide_eq_true_eq] at h
  simp only [attemptFacts, attemptCost] at h ⊢
  generalize resolveAttemptPrice attempt.spec.price attempt.state.providerReportedModel
    attempt.spec.pricingModelAlias attempt.spec.reportedModelPricing attempt.catalogSnapshot =
    resolved at h ⊢
  generalize attemptObservation attempt.spec attempt.state resolved.2 = observation at h ⊢
  split at h
  · cases h
  · rename_i hsent
    rw [if_neg hsent]
    rcases hprice : resolved.1 with record | _ | _ | _ | _ | _ | _ | _
    · rw [hprice] at h
      rcases cost_cases observation attempt.spec.contract record with ⟨-, hcost⟩ | ⟨-, hsum⟩
      · rw [hcost] at h
        cases h
      · exact hsum
    all_goals
      rw [hprice] at h
      cases h

theorem completeTotal_closedFacts (requestId : String) (attempts : List (AttemptTracker × ℤ)) :
    completeTotal (dispatchedAttempts (closedFacts requestId attempts)) =
      exactQuotaTotal (closedFacts requestId attempts) := by
  unfold completeTotal exactQuotaTotal
  congr 1
  refine map_congr_left fun facts hfacts => ?_
  obtain ⟨hsent, hcomplete⟩ := mem_filter.mp hfacts
  obtain ⟨_, -, rfl⟩ := mem_map.mp (mem_filter.mp hsent).1
  exact totalKnown_of_isComplete hcomplete

section

variable {state : LogicalState} {closed more : List AttemptFacts} {facts : AttemptFacts}

theorem completeTotal_append :
    completeTotal (dispatchedAttempts (closed ++ more)) =
      completeTotal (dispatchedAttempts closed) + completeTotal (dispatchedAttempts more) := by
  simp [completeTotal, dispatchedAttempts]

theorem completeTotal_nonneg (h : ∀ facts ∈ closed, 0 ≤ facts.cost.totalKnown.val) :
    0 ≤ completeTotal (dispatchedAttempts closed) := by
  refine sum_nonneg fun n hn => ?_
  obtain ⟨facts, hfacts, rfl⟩ := mem_map.mp hn
  exact h facts (mem_filter.mp (mem_filter.mp hfacts).1).1

/-- An attempt can be accounted for exactly when the total with it fits. -/
theorem noteQuotaResult_isSome (h : state.Accounts closed)
    (hclosed : ∀ facts ∈ closed, 0 ≤ facts.cost.totalKnown.val)
    (hfacts : 0 ≤ facts.cost.totalKnown.val) :
    (state.noteQuotaResult facts).isSome = true ↔
      completeTotal (dispatchedAttempts (closed ++ [facts])) <
        170141183460469231731687303715884105728 := by
  have hbefore := completeTotal_nonneg hclosed
  have hatoms := h.atoms
  have hlt := state.quotaAtoms.lt
  rw [completeTotal_append]
  unfold LogicalState.noteQuotaResult
  rcases hsent : facts.dispatchEvidence.isConfirmedDispatch with _ | _
  · have hnone : completeTotal (dispatchedAttempts [facts]) = 0 := by
      simp [dispatchedAttempts, completeTotal, hsent]
    simpa [hnone, ← hatoms] using hlt
  · by_cases hcomplete : facts.cost.status = .completeForObservedCatalogComponents
    · have hone : completeTotal (dispatchedAttempts [facts]) = facts.cost.totalKnown.val := by
        simp [dispatchedAttempts, completeTotal, hsent, AttemptFacts.isComplete, hcomplete]
      simp only [Bool.not_true, Bool.false_eq_true, if_false, if_pos hcomplete, Option.isSome_map,
        IntRange.checkedAdd, IntRange.tryFrom_isSome, hatoms, hone]
      omega
    · have hnone : completeTotal (dispatchedAttempts [facts]) = 0 := by
        simp [dispatchedAttempts, completeTotal, hsent, AttemptFacts.isComplete, hcomplete]
      simpa [hcomplete, hnone, ← hatoms] using hlt

theorem closeAll_isSome {requestId : String} {attempts : List (AttemptTracker × ℤ)}
    (h : state.Accounts closed) (hclosed : ∀ facts ∈ closed, 0 ≤ facts.cost.totalKnown.val)
    (hcosts : ∀ facts ∈ closedFacts requestId attempts, 0 ≤ facts.cost.totalKnown.val) :
    (state.closeAll requestId attempts).isSome = true ↔
      completeTotal (dispatchedAttempts (closed ++ closedFacts requestId attempts)) <
        170141183460469231731687303715884105728 := by
  induction attempts generalizing state closed with
  | nil =>
    have hlt := state.quotaAtoms.lt
    rw [h.atoms] at hlt
    simpa [LogicalState.closeAll, closedFacts] using hlt
  | cons attempt attempts ih =>
    rw [closedFacts, map_cons, forall_mem_cons] at hcosts
    obtain ⟨hcost, hrest⟩ := hcosts
    have hone := noteQuotaResult_isSome (h.noteFinalAttempt attempt.1.attemptId
      attempt.1.sequence attempt.1.state.executionOutcome) hclosed hcost
    have hall : ∀ facts ∈ closed ++ [attemptFacts requestId attempt.1 attempt.2],
        0 ≤ facts.cost.totalKnown.val := by
      rw [forall_mem_append, forall_mem_singleton]
      exact ⟨hclosed, hcost⟩
    have hlist : closed ++ closedFacts requestId (attempt :: attempts) =
        (closed ++ [attemptFacts requestId attempt.1 attempt.2]) ++
          closedFacts requestId attempts := by simp [closedFacts]
    rw [hlist, LogicalState.closeAll, foldlM_cons]
    rcases hnote : state.noteClosed attempt.1 (attemptFacts requestId attempt.1 attempt.2) with
      _ | state'
    · -- the total is too large already, and it only grows
      have hlarge : ¬completeTotal (dispatchedAttempts
          (closed ++ [attemptFacts requestId attempt.1 attempt.2])) <
            170141183460469231731687303715884105728 := by
        rw [← hone]
        simpa [LogicalState.noteClosed] using hnote
      have hmore : 0 ≤ completeTotal (dispatchedAttempts (closedFacts requestId attempts)) :=
        completeTotal_nonneg hrest
      rw [completeTotal_append]
      simp only [Option.bind_eq_bind, Option.bind_none, Option.isSome_none, Bool.false_eq_true,
        false_iff]
      omega
    · exact ih (h.noteClosed hnote) hall hrest

end

/-- Closing the attempts of a finite-quota request never panics, if and only if the exact costs of
those with a complete cost have 128 bits together. -/
theorem quota_total_safe_iff (requestId : String) (attempts : List (AttemptTracker × ℤ))
    (hprices : ∀ attempt ∈ attempts, ∃ pricing,
      attempt.1.spec.price = modelPriceResolution pricing) :
    (LogicalState.closeAll requestId { quotaPermit := true } attempts).isSome = true ↔
      exactQuotaTotal (closedFacts requestId attempts) <
        170141183460469231731687303715884105728 := by
  have hcosts : ∀ facts ∈ closedFacts requestId attempts, 0 ≤ facts.cost.totalKnown.val := by
    intro facts hfacts
    obtain ⟨attempt, hattempt, rfl⟩ := mem_map.mp hfacts
    obtain ⟨pricing, hpricing⟩ := hprices attempt hattempt
    exact attemptFacts_cost_nonneg requestId attempt.2
      (hpricing ▸ modelPriceResolution_nonneg pricing)
  rw [closeAll_isSome LogicalState.accounts_nil (by simp) hcosts, nil_append,
    completeTotal_closedFacts]

/-- An attempt that read one input token, at this price. -/
def onePricedToken (price : String) : AttemptTracker where
  attemptId := "r1#1"
  sequence := firstSequence
  spec := { sampleSpec with
    price := modelPriceResolution (some ⟨.manual, { input := some price }⟩) }
  startedAtMs := 0
  catalogSnapshot := none
  state :=
    { evidence := .responseObserved
      rawUsage := some (some { input := some (.lit 1 rfl), cacheRead := some (.lit 0 rfl),
                               output := some (.lit 0 rfl) }) }

/-- At a price that the parser takes, two attempts of one token each are too much. -/
theorem quota_total_panics :
    let attempt := onePricedToken "1000000000000000000000000000000"
    attempt.spec.price.record.isSome = true ∧
      LogicalState.closeAll "r1" { quotaPermit := true } [(attempt, 1), (attempt, 2)] = none := by
  decide

theorem quota_total_safe_iff_two :
    let attempt := onePricedToken "10"
    (LogicalState.closeAll "r1" { quotaPermit := true }
        [(attempt, 1), (attempt, 2)]).isSome = true ↔
      exactQuotaTotal (closedFacts "r1" [(attempt, 1), (attempt, 2)]) <
        170141183460469231731687303715884105728 := by
  intro attempt
  refine quota_total_safe_iff "r1" [(attempt, 1), (attempt, 2)] fun attempt' hmem => ?_
  refine ⟨some ⟨.manual, { input := some "10" }⟩, ?_⟩
  rcases mem_pair.mp hmem with rfl | rfl <;> rfl

end ProviderCore.Usage
