import ProviderCore.Lib.Fold
import ProviderCore.Storage.JsonColumns
import ProviderCore.Storage.UsageRepository

/-!
# Reading an attempt row

`attempt_facts` of `codec.rs`, with the readers of its columns.  A text column is read by the
table of its values, and every table inverts its writer.  What a row can lose was lost when it was
written: `keptMetric` and `keptCost` say what is left of a metric and of a cost that the integer
columns cannot hold, without mention of columns.
-/

namespace ProviderCore.Storage

open Usage IntRange

/-! ## Text columns -/

def unknownValue (field value : String) : UsageRepositoryError :=
  ⟨"stored " ++ field ++ " is not recognised: " ++ value⟩

/-- Read a text by the table of the values it may have. -/
def fromCode {α : Type} (field : String) (codes : List (String × α)) (value : String) :
    Except UsageRepositoryError α :=
  match codes.lookup value with
  | some a => .ok a
  | none => .error (unknownValue field value)

def gapReasonFrom : String → Except UsageRepositoryError TrackingGapReason :=
  fromCode "tracking gap reason"
    [ ("write_failed", .writeFailed), ("writer_saturated", .writerSaturated),
      ("recovered_in_flight", .recoveredInFlight), ("ambiguous_cancel", .ambiguousCancel),
      ("observation_lost", .observationLost) ]

def trackingFrom (state : String) (reason : Option String) :
    Except UsageRepositoryError TrackingState :=
  match reason with
  | none =>
    if state = "complete" then .ok .complete
    else .error ⟨"stored tracking state and gap reason disagree"⟩
  | some reason =>
    if state = "gap" then (gapReasonFrom reason).map .gap
    else .error ⟨"stored tracking state and gap reason disagree"⟩

def attemptOutcomeFrom : String → Except UsageRepositoryError AttemptOutcome :=
  fromCode "attempt outcome"
    [("succeeded", .succeeded), ("failed", .failed), ("cancelled", .cancelled)]

def attemptFailoverReasonFrom : String → Except UsageRepositoryError AttemptFailoverReason :=
  fromCode "attempt failover reason"
    [ ("authentication_exhausted", .authenticationExhausted),
      ("quota_exhausted", .quotaExhausted), ("rate_limited", .rateLimited),
      ("capacity_exhausted", .capacityExhausted), ("preconnect_failure", .preconnectFailure) ]

def dispatchEvidenceFrom : String → Except UsageRepositoryError DispatchEvidence :=
  fromCode "dispatch evidence"
    [ ("not_invoked", .notInvoked), ("dispatch_invoked", .dispatchInvoked),
      ("response_observed", .responseObserved) ]

def cacheCapabilityFrom : String → Except UsageRepositoryError CacheCapability :=
  fromCode "cache capability"
    [("supported", .supported), ("unsupported", .unsupported), ("unknown", .unknown)]

def cacheEligibilityFrom : String → Except UsageRepositoryError CacheEligibility :=
  fromCode "cache eligibility"
    [ ("eligible", .eligible), ("not_requested", .notRequested),
      ("not_applicable", .notApplicable), ("unknown", .unknown) ]

def cacheReportingFrom : String → Except UsageRepositoryError CacheReportingExpectation :=
  fromCode "cache reporting expectation"
    [("expected", .expected), ("not_expected", .notExpected), ("unknown", .unknown)]

def pricingBasisFrom : String → Except UsageRepositoryError PricingContextBasis :=
  fromCode "pricing context basis" [("effective_input", .effectiveInput), ("unknown", .unknown)]

def pricingModeFrom : String → Except UsageRepositoryError PricingMode :=
  fromCode "pricing mode" [("default", .default), ("unknown", .unknown)]

def costStatusFrom : String → Except UsageRepositoryError CostStatus :=
  fromCode "cost status"
    [ ("complete_for_observed_catalog_components", .completeForObservedCatalogComponents),
      ("partial", .partial_), ("unavailable", .unavailable) ]

def costReasonFrom : String → Except UsageRepositoryError CostReason :=
  fromCode "cost reason"
    [ ("catalog_unavailable", .catalogUnavailable),
      ("provider_mapping_missing", .providerMappingMissing),
      ("model_mapping_missing", .modelMappingMissing), ("cost_missing", .costMissing),
      ("catalog_entry_invalid", .catalogEntryInvalid),
      ("pricing_rule_unsupported", .pricingRuleUnsupported),
      ("pricing_rule_conflict", .pricingRuleConflict),
      ("tier_basis_unavailable", .tierBasisUnavailable),
      ("price_mode_unknown", .priceModeUnknown),
      ("unmodeled_billable_component", .unmodeledBillableComponent),
      ("component_price_missing", .componentPriceMissing),
      ("usage_component_missing", .usageComponentMissing),
      ("input_category_split_unavailable", .inputCategorySplitUnavailable),
      ("usage_field_conflict", .usageFieldConflict), ("model_mismatch", .modelMismatch),
      ("arithmetic_overflow", .arithmeticOverflow), ("not_dispatched", .notDispatched) ]

def warningFrom : String → Except UsageRepositoryError NormalizationWarning :=
  fromCode "normalization warning"
    [ ("negative_value", .negativeValue), ("overflow", .overflow),
      ("field_conflict", .fieldConflict), ("provider_model_mismatch", .providerModelMismatch) ]

def billableCodeFrom : String → Except UsageRepositoryError BillableComponentCode :=
  fromCode "billable component code"
    [ ("cache_write_5m", .cacheWrite5m), ("cache_write_1h", .cacheWrite1h),
      ("server_tool_call", .serverToolCall), ("image_input_tokens", .imageInputTokens),
      ("image_output_tokens", .imageOutputTokens) ]

def billableUnitFrom : String → Except UsageRepositoryError BillableUnit :=
  fromCode "billable unit" [("tokens", .tokens), ("calls", .calls)]

/-- A provider is parsed from the trimmed text. -/
def providerKindFrom (value : String) : Except UsageRepositoryError ProviderKind :=
  match fromCode "provider kind"
      [ ("grok", ProviderKind.grok), ("codex", .codex), ("antigravity", .antigravity),
        ("openai_compatible", .openAiCompatible),
        ("anthropic_compatible", .anthropicCompatible) ] (Text.trim value) with
  | .ok provider => .ok provider
  | .error _ => .error (unknownValue "provider kind" value)

/-- Each reader inverts its writer. -/
abbrev Inverts {α : Type} (read : String → Except UsageRepositoryError α) (write : α → String) :
    Prop := ∀ a, read (write a) = .ok a

theorem trackingFrom_columns (tracking : TrackingState) :
    trackingFrom (trackingColumns tracking).1 (trackingColumns tracking).2 = .ok tracking := by
  rcases tracking with _ | reason
  · rfl
  · cases reason <;> rfl

theorem attemptOutcomeFrom_str : Inverts attemptOutcomeFrom attemptOutcomeStr := by
  rintro ⟨⟩ <;> rfl

theorem attemptFailoverReasonFrom_str :
    Inverts attemptFailoverReasonFrom attemptFailoverReasonStr := by
  rintro ⟨⟩ <;> rfl

theorem dispatchEvidenceFrom_str : Inverts dispatchEvidenceFrom dispatchEvidenceStr := by
  rintro ⟨⟩ <;> rfl

theorem cacheCapabilityFrom_str : Inverts cacheCapabilityFrom cacheCapabilityStr := by
  rintro ⟨⟩ <;> rfl

theorem cacheEligibilityFrom_str : Inverts cacheEligibilityFrom cacheEligibilityStr := by
  rintro ⟨⟩ <;> rfl

theorem cacheReportingFrom_str : Inverts cacheReportingFrom cacheReportingStr := by
  rintro ⟨⟩ <;> rfl

theorem pricingBasisFrom_str : Inverts pricingBasisFrom pricingBasisStr := by
  rintro ⟨⟩ <;> rfl

theorem pricingModeFrom_str : Inverts pricingModeFrom pricingModeStr := by
  rintro ⟨⟩ <;> rfl

theorem costStatusFrom_str : Inverts costStatusFrom costStatusStr := by
  rintro ⟨⟩ <;> rfl

theorem costReasonFrom_str : Inverts costReasonFrom costReasonStr := by
  rintro ⟨⟩ <;> rfl

theorem warningFrom_str : Inverts warningFrom warningStr := by
  rintro ⟨⟩ <;> rfl

theorem billableCodeFrom_str : Inverts billableCodeFrom billableCodeStr := by
  rintro ⟨⟩ <;> rfl

theorem billableUnitFrom_str : Inverts billableUnitFrom billableUnitStr := by
  rintro ⟨⟩ <;> rfl

theorem providerKindFrom_asStr : Inverts providerKindFrom ProviderKind.asStr := by
  rintro ⟨⟩ <;> rfl

/-! ## Token metrics -/

/-- Rebuild a metric from its column and its kind.  The two shapes that are never written, a
missing number and a negative one, are read as unknown. -/
def joinMetric (value : Option I64) (kind : Option StoredKind) : TokenMetric :=
  match kind with
  | none =>
    match value with
    | some value =>
      match (tryFrom value.val : Option U64) with
      | some value => .providerReported value
      | none => .unknown .invalidReported
    | none => .unknown .indeterminate
  | some (.derivedFromReported ruleVersion) =>
    match value with
    | some value =>
      match (tryFrom value.val : Option U64) with
      | some value => .derivedFromReported value ruleVersion
      | none => .unknown .invalidReported
    | none => .unknown .indeterminate
  | some .notReported => .notReported
  | some .notApplicable => .notApplicable
  | some (.unknown reason) => .unknown reason

/-- What is left of a metric: a count above 64 signed bits is unknown. -/
def keptMetric (metric : TokenMetric) : TokenMetric :=
  if ∀ value ∈ metric.knownValue, value.val < 9223372036854775808 then metric
  else .unknown .invalidReported

/-- A count fits the column and is found in it, or does not fit. -/
theorem stored_count (value : U64) :
    (∃ stored : I64, (tryFrom value.val : Option I64) = some stored ∧
        (tryFrom stored.val : Option U64) = some value ∧
        value.val < 9223372036854775808) ∨
      ((tryFrom value.val : Option I64) = none ∧ ¬value.val < 9223372036854775808) := by
  rcases hstored : (tryFrom value.val : Option I64) with _ | stored
  · have hbound := tryFrom_eq_none.mp hstored
    have hnonneg := value.le
    exact .inr ⟨rfl, by omega⟩
  · have hval := tryFrom_eq_some.mp hstored
    exact .inl ⟨stored, rfl, tryFrom_eq_some.mpr hval.symm, hval ▸ stored.lt⟩

theorem joinMetric_splitMetric (metric : TokenMetric) :
    joinMetric (splitMetric metric).value (splitMetric metric).kind = keptMetric metric := by
  cases metric with
  | providerReported value | derivedFromReported value =>
    rcases stored_count value with ⟨stored, hstored, hback, hfits⟩ | ⟨hnone, hfits⟩
    · simp [splitMetric, hstored, joinMetric, hback, keptMetric, TokenMetric.knownValue, hfits]
    · simp [splitMetric, hnone, joinMetric, keptMetric, TokenMetric.knownValue, hfits]
  | notReported | notApplicable | unknown =>
    simp [splitMetric, joinMetric, keptMetric, TokenMetric.knownValue]

/-! ## Prices and costs -/

/-- A value, or the error that says what could not be decoded. -/
def orError {α : Type} (message : String) : Option α → Except UsageRepositoryError α
  | some a => .ok a
  | none => .error ⟨message⟩

def priceResolutionFrom (value : String) (record : Option Json) :
    Except UsageRepositoryError PriceResolution :=
  if value = "resolved" then
    match record with
    | none => .error ⟨"a resolved price has no stored price record"⟩
    | some tree =>
      (orError "failed to decode inline price record" (priceRecordFromJson tree)).map .resolved
  else
    fromCode "price resolution"
      [ ("catalog_unavailable", .catalogUnavailable),
        ("provider_mapping_missing", .providerMappingMissing),
        ("model_mapping_missing", .modelMappingMissing), ("cost_missing", .costMissing),
        ("catalog_entry_invalid", .catalogEntryInvalid),
        ("pricing_rule_unsupported", .pricingRuleUnsupported),
        ("pricing_rule_conflict", .pricingRuleConflict) ] value

/-- A resolution can be read back if it has no record or one that a value tree holds. -/
def PriceReadable (price : PriceResolution) : Prop :=
  ∀ record ∈ price.record, PriceRecordNarrow record

instance (price : PriceResolution) : Decidable (PriceReadable price) :=
  inferInstanceAs (Decidable (∀ record ∈ price.record, PriceRecordNarrow record))

theorem priceResolutionFrom_written (price : PriceResolution) :
    priceResolutionFrom (priceResolutionStr price) (price.record.map priceRecordToJson) =
      if PriceReadable price then .ok price
      else .error ⟨"failed to decode inline price record"⟩ := by
  cases price with
  | resolved record =>
    have hstr : priceResolutionStr (.resolved record) = "resolved" := rfl
    simp only [priceResolutionFrom, hstr, if_true, PriceResolution.record, Option.map_some]
    by_cases hnarrow : PriceRecordNarrow record
    · have hread : priceRecordFromJson (priceRecordToJson record) = some record :=
        priceRecordFromJson_toJson.mpr ⟨hnarrow, rfl⟩
      simp [hread, orError, Except.map, PriceReadable, PriceResolution.record, hnarrow]
    · have hread : priceRecordFromJson (priceRecordToJson record) = none :=
        Option.eq_none_iff_forall_ne_some.mpr fun read h =>
          hnarrow (priceRecordFromJson_toJson.mp h).1
      simp [hread, orError, Except.map, PriceReadable, PriceResolution.record, hnarrow]
  | _ =>
    rfl

/-- What is left of a cost: an amount above 64 signed bits is unavailable, and says so. -/
def keptCost (cost : ObservedCatalogCost) : ObservedCatalogCost :=
  if cost.totalKnown.val < 9223372036854775808 then cost
  else ⟨.zero, .unavailable, pushUnique cost.reasons .arithmeticOverflow, cost.calculatorVersion⟩

/-- An amount as `attempt_facts` reads it. -/
def atomsFrom (atoms : Option I64) : UsdAtoms :=
  match atoms with
  | none => .zero
  | some atoms =>
    ⟨atoms.val, le_trans (by decide) atoms.le, lt_of_lt_of_le atoms.lt (by decide)⟩

/-- A cost is not negative, and zero where it is unavailable. -/
structure CostCoherent (cost : ObservedCatalogCost) : Prop where
  nonneg : 0 ≤ cost.totalKnown.val
  zero : cost.status = .unavailable → cost.totalKnown = .zero

theorem atomsFrom_storableCost {cost : ObservedCatalogCost} (hcost : CostCoherent cost) :
    (⟨atomsFrom (storableCost cost).atoms, (storableCost cost).status, (storableCost cost).reasons,
      (storableCost cost).calculatorVersion⟩ : ObservedCatalogCost) = keptCost cost := by
  unfold storableCost keptCost
  by_cases hstatus : cost.status = .unavailable
  · have hzero := hcost.zero hstatus
    have hfits : cost.totalKnown.val < 9223372036854775808 := by rw [hzero]; decide
    cases cost
    simp_all [atomsFrom]
  · rw [if_neg hstatus]
    rcases hatoms : (tryFrom cost.totalKnown.val : Option I64) with _ | atoms
    · have hbound := tryFrom_eq_none.mp hatoms
      have hnonneg := hcost.nonneg
      rw [if_neg (by omega)]
      rfl
    · have hval := tryFrom_eq_some.mp hatoms
      rw [if_pos (hval ▸ atoms.lt)]
      have hsame : atomsFrom (some atoms) = cost.totalKnown := IntRange.ext hval.symm
      simp only [hsame]

/-! ## The row -/

/-- The facts of a row; the billable observations are read by the caller. -/
def AttemptRow.attemptFacts (row : AttemptRow) : Except UsageRepositoryError AttemptFacts := do
  let provider ← providerKindFrom row.provider
  let inclusion ← orError "failed to decode usage inclusion rules"
    (inclusionFromJson (inclusionToJson row.inclusion))
  let contractVersion ← orError "stored contract version is out of range"
    (tryFrom row.contractVersion)
  let normalizationVersion ← orError "stored normalization version is out of range"
    (tryFrom row.normalizationVersion)
  let cacheCapability ← cacheCapabilityFrom row.cacheCapability
  let cacheEligibility ← cacheEligibilityFrom row.cacheEligibility
  let cacheReporting ← cacheReportingFrom row.cacheReportingExpectation
  let pricingBasis ← pricingBasisFrom row.pricingContextBasis
  let pricingMode ← pricingModeFrom row.pricingMode
  let kinds ← orError "failed to decode token metric kinds"
    (kindsFromJson (kindsToJson row.tokenKinds))
  let warnings ← row.normalizationWarnings.mapM warningFrom
  let price ← priceResolutionFrom row.priceResolution (row.price.map priceRecordToJson)
  let status ← costStatusFrom row.costStatus
  let reasons ← row.costReasons.mapM costReasonFrom
  let calculatorVersion ← orError "stored calculator version is out of range"
    (tryFrom row.calculatorVersion)
  let sequence ← orError "stored attempt sequence is out of range" (IntRange.tryFrom row.sequence)
  let revision ← orError "stored credential identity revision is invalid"
    (tryFrom row.credentialIdentityRevision.val)
  let outcome ← row.attemptOutcome.mapM attemptOutcomeFrom
  let failoverReason ← row.failoverReason.mapM attemptFailoverReasonFrom
  let evidence ← dispatchEvidenceFrom row.dispatchEvidence
  let tracking ← trackingFrom row.trackingState row.trackingGapReason
  return {
    attemptId := row.id
    logicalRequestId := row.logicalRequestId
    sequence := sequence
    provider := provider
    accountId := row.accountId
    credentialIdentityRevision := revision
    configuredModel := row.configuredModel
    providerReportedModel := row.providerReportedModel
    startedAtMs := row.startedAtMs
    firstTokenAtMs := row.firstTokenAtMs
    completedAtMs := row.completedAtMs
    outcome := outcome
    failoverReason := failoverReason
    dispatchEvidence := evidence
    tracking := tracking
    contract :=
      { contractVersion := contractVersion
        normalizationVersion := normalizationVersion
        inclusion := inclusion
        cacheCapability := cacheCapability
        cacheEligibility := cacheEligibility
        cacheReportingExpectation := cacheReporting
        pricingContextBasis := pricingBasis
        pricingMode := pricingMode }
    observation :=
      { uncachedInputTokens := joinMetric row.values.uncachedInput kinds.uncachedInput
        cacheReadInputTokens := joinMetric row.values.cacheReadInput kinds.cacheReadInput
        cacheWriteInputTokens := joinMetric row.values.cacheWriteInput kinds.cacheWriteInput
        effectiveInputTokens := joinMetric row.values.effectiveInput kinds.effectiveInput
        outputTokens := joinMetric row.values.output kinds.output
        reasoningTokens := joinMetric row.values.reasoning kinds.reasoning
        inputAudioTokens := joinMetric row.values.inputAudio kinds.inputAudio
        outputAudioTokens := joinMetric row.values.outputAudio kinds.outputAudio
        totalTokens := joinMetric row.values.total kinds.total
        pricingContextTokens := joinMetric row.values.pricingContext kinds.pricingContext
        billable := []
        warnings := warnings }
    price := price
    cost := ⟨atomsFrom row.costAtoms, status, reasons, calculatorVersion⟩ }

/-- What is left of an observation, with the billable observations by the code of their
component. -/
def keptObservation (observation : ProviderUsageObservation) : ProviderUsageObservation where
  uncachedInputTokens := keptMetric observation.uncachedInputTokens
  cacheReadInputTokens := keptMetric observation.cacheReadInputTokens
  cacheWriteInputTokens := keptMetric observation.cacheWriteInputTokens
  effectiveInputTokens := keptMetric observation.effectiveInputTokens
  outputTokens := keptMetric observation.outputTokens
  reasoningTokens := keptMetric observation.reasoningTokens
  inputAudioTokens := keptMetric observation.inputAudioTokens
  outputAudioTokens := keptMetric observation.outputAudioTokens
  totalTokens := keptMetric observation.totalTokens
  pricingContextTokens := keptMetric observation.pricingContextTokens
  billable := observation.billable.insertionSort fun a b =>
    billableCodeStr a.componentCode ≤ billableCodeStr b.componentCode
  warnings := observation.warnings

/-- What is left of recorded facts: everything but counts and amounts above 64 signed bits. -/
def keptFacts (facts : AttemptFacts) : AttemptFacts :=
  { facts with observation := keptObservation facts.observation, cost := keptCost facts.cost }

/-- Facts with the given billable observations. -/
def withBillable (facts : AttemptFacts) (billable : List BillableObservation) : AttemptFacts :=
  { facts with observation := { facts.observation with billable := billable } }

theorem mapM_option_map {α : Type} {read : String → Except UsageRepositoryError α}
    {write : α → String} (h : Inverts read write) (value : Option α) :
    (value.map write).mapM read = .ok value := by
  cases value with
  | none => rfl
  | some a =>
    show (read (write a)).map some = _
    rw [h]
    rfl

/-- A written row is read back as what is left of the facts, unless its price cannot be. -/
theorem attemptFacts_attemptRow {facts : AttemptFacts} {revision : I64}
    (hrevision : tryFrom facts.credentialIdentityRevision.val = some revision)
    (hcost : CostCoherent facts.cost) :
    (attemptRow facts revision).attemptFacts =
      if PriceReadable facts.price then .ok (withBillable (keptFacts facts) [])
      else .error ⟨"failed to decode inline price record"⟩ := by
  have hback : (tryFrom revision.val : Option U64) =
      some facts.credentialIdentityRevision :=
    tryFrom_eq_some.mpr (tryFrom_eq_some.mp hrevision).symm
  have hwarnings := Fold.mapM_map (l := facts.observation.warnings)
    fun warning _ => warningFrom_str warning
  have hreasons := Fold.mapM_map (l := (storableCost facts.cost).reasons)
    fun reason _ => costReasonFrom_str reason
  have hprice := priceResolutionFrom_written facts.price
  have hcost := atomsFrom_storableCost hcost
  simp only [AttemptRow.attemptFacts, attemptRow, providerKindFrom_asStr,
    inclusionFromJson_toJson, kindsFromJson_toJson, tryFrom_val, orError,
    cacheCapabilityFrom_str, cacheEligibilityFrom_str, cacheReportingFrom_str,
    pricingBasisFrom_str, pricingModeFrom_str, hwarnings, hprice, costStatusFrom_str, hreasons,
    hback, mapM_option_map attemptOutcomeFrom_str, mapM_option_map attemptFailoverReasonFrom_str,
    dispatchEvidenceFrom_str, trackingFrom_columns, bind, Except.bind]
  split_ifs with hreadable
  · simp only [splitObservation, ByCategory.map, observationMetrics, joinMetric_splitMetric, hcost]
    rfl
  · rfl

end ProviderCore.Storage
