import ProviderCore.Usage.Facts

/-!
# The storage codec

`provider-storage/src/usage/codec.rs`: the column texts of the enumerations, the split of a
token metric into a nullable integer and a tag, and the degradation of what an SQLite `INTEGER`
cannot hold.  A count or an amount outside 64 signed bits is never truncated; it is stored as
absent, with the absence explained.
-/

namespace ProviderCore.Storage

open Usage

/-- A persistence failure.  The text is the context the code puts first; the database's own text
after it is not modelled. -/
structure UsageRepositoryError where
  message : String
deriving DecidableEq

/-! ## Token metrics -/

/-- The half of a token metric that is kept beside the integer column. -/
inductive StoredKind
  | derivedFromReported (ruleVersion : U16)
  | notReported
  | notApplicable
  | unknown (reason : TokenUnknownReason)
deriving DecidableEq

structure SplitMetric where
  value : Option I64
  kind : Option StoredKind
deriving DecidableEq

def splitMetric : TokenMetric → SplitMetric
  | .providerReported value =>
    match (IntRange.tryFrom value.val : Option I64) with
    | some value => ⟨some value, none⟩
    | none => ⟨none, some (.unknown .invalidReported)⟩
  | .derivedFromReported value ruleVersion =>
    match (IntRange.tryFrom value.val : Option I64) with
    | some value => ⟨some value, some (.derivedFromReported ruleVersion)⟩
    | none => ⟨none, some (.unknown .invalidReported)⟩
  | .notReported => ⟨none, some .notReported⟩
  | .notApplicable => ⟨none, some .notApplicable⟩
  | .unknown reason => ⟨none, some (.unknown reason)⟩

/-- One value per token category, in the source's order. -/
structure ByCategory (α : Type) where
  uncachedInput : α
  cacheReadInput : α
  cacheWriteInput : α
  effectiveInput : α
  output : α
  reasoning : α
  inputAudio : α
  outputAudio : α
  total : α
  pricingContext : α
deriving DecidableEq

abbrev StoredValues := ByCategory (Option I64)

abbrev StoredKinds := ByCategory (Option StoredKind)

def ByCategory.map {α β : Type} (f : α → β) (m : ByCategory α) : ByCategory β where
  uncachedInput := f m.uncachedInput
  cacheReadInput := f m.cacheReadInput
  cacheWriteInput := f m.cacheWriteInput
  effectiveInput := f m.effectiveInput
  output := f m.output
  reasoning := f m.reasoning
  inputAudio := f m.inputAudio
  outputAudio := f m.outputAudio
  total := f m.total
  pricingContext := f m.pricingContext

def observationMetrics (observation : ProviderUsageObservation) : ByCategory TokenMetric where
  uncachedInput := observation.uncachedInputTokens
  cacheReadInput := observation.cacheReadInputTokens
  cacheWriteInput := observation.cacheWriteInputTokens
  effectiveInput := observation.effectiveInputTokens
  output := observation.outputTokens
  reasoning := observation.reasoningTokens
  inputAudio := observation.inputAudioTokens
  outputAudio := observation.outputAudioTokens
  total := observation.totalTokens
  pricingContext := observation.pricingContextTokens

def splitObservation (observation : ProviderUsageObservation) : StoredValues × StoredKinds :=
  let split := (observationMetrics observation).map splitMetric
  (split.map (·.value), split.map (·.kind))

/-! ## Costs and quantities -/

/-- The cost as it can be stored. -/
structure StorableCost where
  status : CostStatus
  atoms : Option I64
  reasons : List CostReason
  calculatorVersion : U16
deriving DecidableEq

def storableCost (cost : ObservedCatalogCost) : StorableCost :=
  if cost.status = .unavailable then
    ⟨.unavailable, none, cost.reasons, cost.calculatorVersion⟩
  else
    match (IntRange.tryFrom cost.totalKnown.val : Option I64) with
    | some atoms => ⟨cost.status, some atoms, cost.reasons, cost.calculatorVersion⟩
    | none =>
      ⟨.unavailable, none, pushUnique cost.reasons .arithmeticOverflow, cost.calculatorVersion⟩

def storableQuantity (value : U64) : Except UsageRepositoryError I64 :=
  match (IntRange.tryFrom value.val : Option I64) with
  | some value => .ok value
  | none => .error ⟨"billable quantity is too large to store"⟩

/-! ## Column texts -/

def gapReasonStr : TrackingGapReason → String
  | .writeFailed => "write_failed"
  | .writerSaturated => "writer_saturated"
  | .recoveredInFlight => "recovered_in_flight"
  | .ambiguousCancel => "ambiguous_cancel"
  | .observationLost => "observation_lost"

def trackingColumns : TrackingState → String × Option String
  | .complete => ("complete", none)
  | .gap reason => ("gap", some (gapReasonStr reason))

def attemptOutcomeStr : AttemptOutcome → String
  | .succeeded => "succeeded"
  | .failed => "failed"
  | .cancelled => "cancelled"

def attemptFailoverReasonStr : AttemptFailoverReason → String
  | .authenticationExhausted => "authentication_exhausted"
  | .quotaExhausted => "quota_exhausted"
  | .rateLimited => "rate_limited"
  | .capacityExhausted => "capacity_exhausted"
  | .preconnectFailure => "preconnect_failure"

def dispatchEvidenceStr : DispatchEvidence → String
  | .notInvoked => "not_invoked"
  | .dispatchInvoked => "dispatch_invoked"
  | .responseObserved => "response_observed"

def cacheCapabilityStr : CacheCapability → String
  | .supported => "supported"
  | .unsupported => "unsupported"
  | .unknown => "unknown"

def cacheEligibilityStr : CacheEligibility → String
  | .eligible => "eligible"
  | .notRequested => "not_requested"
  | .notApplicable => "not_applicable"
  | .unknown => "unknown"

def cacheReportingStr : CacheReportingExpectation → String
  | .expected => "expected"
  | .notExpected => "not_expected"
  | .unknown => "unknown"

def pricingBasisStr : PricingContextBasis → String
  | .effectiveInput => "effective_input"
  | .unknown => "unknown"

def pricingModeStr : PricingMode → String
  | .default => "default"
  | .unknown => "unknown"

def priceResolutionStr : PriceResolution → String
  | .resolved _ => "resolved"
  | .catalogUnavailable => "catalog_unavailable"
  | .providerMappingMissing => "provider_mapping_missing"
  | .modelMappingMissing => "model_mapping_missing"
  | .costMissing => "cost_missing"
  | .catalogEntryInvalid => "catalog_entry_invalid"
  | .pricingRuleUnsupported => "pricing_rule_unsupported"
  | .pricingRuleConflict => "pricing_rule_conflict"

def costStatusStr : CostStatus → String
  | .completeForObservedCatalogComponents => "complete_for_observed_catalog_components"
  | .partial_ => "partial"
  | .unavailable => "unavailable"

def costReasonStr : CostReason → String
  | .catalogUnavailable => "catalog_unavailable"
  | .providerMappingMissing => "provider_mapping_missing"
  | .modelMappingMissing => "model_mapping_missing"
  | .costMissing => "cost_missing"
  | .catalogEntryInvalid => "catalog_entry_invalid"
  | .pricingRuleUnsupported => "pricing_rule_unsupported"
  | .pricingRuleConflict => "pricing_rule_conflict"
  | .tierBasisUnavailable => "tier_basis_unavailable"
  | .priceModeUnknown => "price_mode_unknown"
  | .unmodeledBillableComponent => "unmodeled_billable_component"
  | .componentPriceMissing => "component_price_missing"
  | .usageComponentMissing => "usage_component_missing"
  | .inputCategorySplitUnavailable => "input_category_split_unavailable"
  | .usageFieldConflict => "usage_field_conflict"
  | .modelMismatch => "model_mismatch"
  | .arithmeticOverflow => "arithmetic_overflow"
  | .notDispatched => "not_dispatched"

def warningStr : NormalizationWarning → String
  | .negativeValue => "negative_value"
  | .overflow => "overflow"
  | .fieldConflict => "field_conflict"
  | .providerModelMismatch => "provider_model_mismatch"

def billableCodeStr : BillableComponentCode → String
  | .cacheWrite5m => "cache_write_5m"
  | .cacheWrite1h => "cache_write_1h"
  | .serverToolCall => "server_tool_call"
  | .imageInputTokens => "image_input_tokens"
  | .imageOutputTokens => "image_output_tokens"

def billableUnitStr : BillableUnit → String
  | .tokens => "tokens"
  | .calls => "calls"

/-! ## What the degradation keeps -/

/-- The stored cost is complete exactly when the cost was and its amount fits the column. -/
theorem storableCost_complete {cost : ObservedCatalogCost} {atoms : I64} :
    (storableCost cost).status = .completeForObservedCatalogComponents ∧
        (storableCost cost).atoms = some atoms ↔
      cost.status = .completeForObservedCatalogComponents ∧ cost.totalKnown.val = atoms.val := by
  unfold storableCost
  split
  · next h => simp [h]
  · split
    · next a ha =>
        have hval := IntRange.tryFrom_eq_some.mp ha
        constructor
        · rintro ⟨hs, hatoms⟩
          cases hatoms
          exact ⟨hs, hval⟩
        · rintro ⟨hs, hv⟩
          exact ⟨hs, congrArg some (IntRange.ext (hval ▸ hv))⟩
    · next hnone =>
        simp only [reduceCtorEq, false_and, false_iff, not_and]
        intro _ hv
        rw [hv, IntRange.tryFrom_val] at hnone
        cases hnone

/-- A cost column is absent exactly for an unavailable stored status. -/
theorem storableCost_atoms_none (cost : ObservedCatalogCost) :
    (storableCost cost).atoms = none ↔ (storableCost cost).status = .unavailable := by
  unfold storableCost
  split
  · simp
  · split
    · simp [*]
    · simp

end ProviderCore.Storage
