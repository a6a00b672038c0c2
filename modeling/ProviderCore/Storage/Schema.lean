import ProviderCore.Auth.Atoms
import ProviderCore.Lib.Tally
import ProviderCore.Storage.Codec

/-!
# The usage tables

The rows of `api_keys`, `api_key_quota_ledger`, `usage_logical_requests`, `usage_attempts`,
`usage_billable_observations` and `usage_tracking_gaps` as the migrations leave them, with their
`CHECK` constraints.  A
stored attempt and a stored billable observation carry the proof of their constraints, and the
primary keys are those of `Table`, so a database that breaks one cannot be written down.

Enumerations are columns of text and are checked as such.  A JSON column holds the value that
was written to it.  Columns that no modelled statement reads or writes (`last_used_at`,
`created_at`, `updated_at`) are left out.
-/

namespace ProviderCore.Storage

open Usage Auth

structure ApiKeyRow where
  id : String
  ownerUserId : String
  groupLabels : List String
  label : String
  /-- The secret itself; it is unique. -/
  key : String
  enabled : Bool
  expiresAt : Option ℤ
  quotaLimitAtoms : Option String
  spentAtoms : String
deriving DecidableEq

inductive LedgerState
  | reserved
  | settled
  | released
deriving DecidableEq

structure LedgerRow where
  entryId : String
  apiKeyId : String
  reservedAtoms : String
  settledAtoms : Option String
  state : LedgerState
  reservedAtMs : ℤ
  resolvedAtMs : Option ℤ
  dispatchedAtMs : Option ℤ
deriving DecidableEq

structure LogicalRequestRow where
  requestId : String
  ownerUserId : String
  apiKeyId : Option String
  apiKeyLabel : Option String
  apiKeyGroupLabels : Option (List String)
  endpoint : Option EndpointProtocol
  clientModelRaw : Option String
  routingModel : Option String
  reasoningEffort : Option String
  startedAtMs : ℤ
  completedAtMs : Option ℤ
  logicalStatus : LogicalStatus
  executionOutcome : Option ExecutionOutcome
  deliveryOutcome : Option DeliveryOutcome
  finalAttemptId : Option String
  tracking : TrackingState
  stateVersion : ℕ
deriving DecidableEq

/-- The constraints an inserted request row can break: the requested effort is not blank and at
most 32 characters long, and a list of group labels is not empty. -/
def LogicalRequestRow.Checks (row : LogicalRequestRow) : Prop :=
  (∀ effort ∈ row.reasoningEffort,
      (effort.toList.any fun c => c ≠ ' ') = true ∧ effort.toList.length ≤ 32) ∧
    ∀ labels ∈ row.apiKeyGroupLabels, labels ≠ []

instance (row : LogicalRequestRow) : Decidable row.Checks :=
  inferInstanceAs (Decidable (_ ∧ _))

structure AttemptRow where
  id : String
  logicalRequestId : String
  sequence : ℤ
  provider : String
  accountId : String
  credentialIdentityRevision : I64
  configuredModel : Option String
  providerReportedModel : Option String
  startedAtMs : ℤ
  firstTokenAtMs : Option ℤ
  completedAtMs : ℤ
  attemptOutcome : Option String
  failoverReason : Option String
  dispatchEvidence : String
  trackingState : String
  trackingGapReason : Option String
  contractVersion : ℤ
  normalizationVersion : ℤ
  inclusion : TokenInclusionRules
  cacheCapability : String
  cacheEligibility : String
  cacheReportingExpectation : String
  pricingContextBasis : String
  pricingMode : String
  values : StoredValues
  tokenKinds : StoredKinds
  normalizationWarnings : List String
  priceResolution : String
  catalogRevision : Option String
  selectedTier : Option String
  price : Option InlinePriceRecord
  calculatorVersion : ℤ
  costStatus : String
  costAtoms : Option I64
  costReasons : List String
deriving DecidableEq

def NonNegative (value : Option I64) : Prop := ∀ n ∈ value, 0 ≤ n.val

instance (value : Option I64) : Decidable (NonNegative value) :=
  inferInstanceAs (Decidable (∀ n ∈ value, 0 ≤ n.val))

/-- The token columns of an attempt are not negative. -/
@[mk_iff] structure StoredValues.Checks (values : StoredValues) : Prop where
  uncachedInput : NonNegative values.uncachedInput
  cacheReadInput : NonNegative values.cacheReadInput
  cacheWriteInput : NonNegative values.cacheWriteInput
  effectiveInput : NonNegative values.effectiveInput
  output : NonNegative values.output
  reasoning : NonNegative values.reasoning
  inputAudio : NonNegative values.inputAudio
  outputAudio : NonNegative values.outputAudio
  total : NonNegative values.total
  pricingContext : NonNegative values.pricingContext

instance (values : StoredValues) : Decidable (StoredValues.Checks values) :=
  decidable_of_iff' _ (StoredValues.checks_iff values)

/-- The `CHECK` constraints of `usage_attempts`, with the trigger on the failover reason. -/
@[mk_iff] structure AttemptRow.Checks (row : AttemptRow) : Prop where
  sequence : 1 ≤ row.sequence
  credentialIdentityRevision : 0 ≤ row.credentialIdentityRevision.val
  firstToken : ∀ at_ ∈ row.firstTokenAtMs, row.startedAtMs ≤ at_ ∧ at_ ≤ row.completedAtMs
  dispatchEvidence :
    row.dispatchEvidence ∈ ["not_invoked", "dispatch_invoked", "response_observed"]
  trackingState : row.trackingState ∈ ["complete", "gap"]
  trackingGapReason : ∀ reason ∈ row.trackingGapReason,
    reason ∈ ["write_failed", "writer_saturated", "recovered_in_flight", "ambiguous_cancel",
      "observation_lost"]
  contractVersion : 1 ≤ row.contractVersion
  normalizationVersion : 1 ≤ row.normalizationVersion
  cacheCapability : row.cacheCapability ∈ ["supported", "unsupported", "unknown"]
  cacheEligibility :
    row.cacheEligibility ∈ ["eligible", "not_requested", "not_applicable", "unknown"]
  cacheReportingExpectation :
    row.cacheReportingExpectation ∈ ["expected", "not_expected", "unknown"]
  pricingContextBasis : row.pricingContextBasis ∈ ["effective_input", "unknown"]
  pricingMode : row.pricingMode ∈ ["default", "unknown"]
  values : StoredValues.Checks row.values
  priceResolution : row.priceResolution ∈
    ["resolved", "catalog_unavailable", "provider_mapping_missing", "model_mapping_missing",
      "cost_missing", "catalog_entry_invalid", "pricing_rule_unsupported",
      "pricing_rule_conflict"]
  calculatorVersion : 1 ≤ row.calculatorVersion
  costStatus :
    row.costStatus ∈ ["complete_for_observed_catalog_components", "partial", "unavailable"]
  gapHasReason : row.trackingState = "gap" ↔ row.trackingGapReason ≠ none
  resolvedHasPrice : row.priceResolution = "resolved" ↔ row.price ≠ none
  unavailableHasNoCost : row.costStatus = "unavailable" ↔ row.costAtoms = none
  notInvokedHasNoUsage : row.dispatchEvidence ≠ "not_invoked" ∨
    (row.costStatus = "unavailable" ∧ row.values.effectiveInput = none ∧
      row.values.output = none ∧ row.values.total = none)
  attemptOutcome : ∀ outcome ∈ row.attemptOutcome, outcome ∈ ["succeeded", "failed", "cancelled"]
  failoverReason : ∀ reason ∈ row.failoverReason,
    reason ∈ ["authentication_exhausted", "quota_exhausted", "rate_limited", "preconnect_failure"]
  -- The trigger's comparison is `NULL`, hence not fired, for an absent outcome.
  failoverNeedsFailure : row.failoverReason = none ∨
    ∀ outcome ∈ row.attemptOutcome, outcome = "failed"

instance (row : AttemptRow) : Decidable row.Checks :=
  decidable_of_iff' _ (AttemptRow.checks_iff row)

/-- An attempt row that passed its constraints. -/
structure StoredAttempt where
  row : AttemptRow
  checks : row.Checks
deriving DecidableEq

def StoredAttempt.id (attempt : StoredAttempt) : String := attempt.row.id

structure BillableRow where
  attemptId : String
  componentCode : String
  unit : String
  quantity : I64
deriving DecidableEq

def BillableRow.key (row : BillableRow) : String × String := (row.attemptId, row.componentCode)

/-- The `CHECK` constraints of `usage_billable_observations`. -/
def BillableRow.Checks (row : BillableRow) : Prop :=
  row.componentCode ∈ ["cache_write_5m", "cache_write_1h", "server_tool_call",
      "image_input_tokens", "image_output_tokens"] ∧
    row.unit ∈ ["tokens", "calls"] ∧ 0 ≤ row.quantity.val

instance (row : BillableRow) : Decidable row.Checks :=
  inferInstanceAs (Decidable (_ ∧ _ ∧ _))

/-- The primary key of `usage_tracking_gaps`: owner, reason and start of the bucket.  The counts
do not leave 64 bits. -/
abbrev GapRowKey := String × String × ℤ

/-- The part of the database the usage repository works on. -/
structure UsageDb where
  apiKeys : Table ApiKeyRow.id
  ledger : Table LedgerRow.entryId
  requests : Table LogicalRequestRow.requestId
  attempts : Table StoredAttempt.id
  billable : Table BillableRow.key
  gaps : Tally GapRowKey := .empty
deriving DecidableEq

end ProviderCore.Storage
