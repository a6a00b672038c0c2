import ProviderCore.Usage.Observation

/-!
# Normalization

`normalize_usage` of `provider-core/src/usage/normalize.rs`.  The source threads one list of
warnings through its helpers; here every helper that may warn takes the list and returns it, in
the source's order of calls, so the warnings of an observation come out in the same order.
-/

namespace ProviderCore.Usage

def pushUnique {α : Type} [DecidableEq α] (l : List α) (a : α) : List α :=
  if a ∈ l then l else l ++ [a]

abbrev Warnings := List NormalizationWarning

def u64TryFrom (value : I64) : Option U64 := IntRange.tryFrom value.val

def classify (raw : Option I64) (applicable : Bool) (warnings : Warnings) :
    TokenMetric × Warnings :=
  if !applicable then
    match raw with
    | some value =>
      if value.val ≠ 0 then (.notApplicable, pushUnique warnings .fieldConflict)
      else (.notApplicable, warnings)
    | none => (.notApplicable, warnings)
  else
    match raw with
    | none => (.notReported, warnings)
    | some value =>
      match u64TryFrom value with
      | some value => (.providerReported value, warnings)
      | none => (.unknown .invalidReported, pushUnique warnings .negativeValue)

/-- Whether a reported total agrees with `effective_input + output`; cases that cannot be
decided answer `true`. -/
def totalReconciles (total effectiveInput output inputAudio outputAudio : TokenMetric) : Bool :=
  if [inputAudio, outputAudio].any fun metric =>
      metric.knownValue.any fun value => 0 < value.val then
    true
  else
    match total.knownValue, effectiveInput.knownValue, output.knownValue with
    | some total, some input, some output => input.checkedAdd output = some total
    | _, _, _ => true

def indeterminate : TokenMetric := .unknown .indeterminate

/-- A metric's contribution to a sum: a metric that does not apply contributes a real zero. -/
def sumContribution : TokenMetric → Option U64
  | .notApplicable => some (.lit 0 (Eq.refl true))
  | other => other.knownValue

/-- Record a positive quantity that is billed at its own rate. -/
def pushBillableTokens (billable : List BillableObservation) (componentCode : BillableComponentCode)
    (raw : Option I64) (warnings : Warnings) : List BillableObservation × Warnings :=
  match raw with
  | none => (billable, warnings)
  | some value =>
    match u64TryFrom value with
    | some quantity =>
      if quantity.val = 0 then (billable, warnings)
      else (billable ++ [⟨componentCode, .tokens, quantity⟩], warnings)
    | none => (billable, pushUnique warnings .negativeValue)

/-- The observation of a response that ended without usage. -/
def noUsageObservation : ProviderUsageObservation where
  uncachedInputTokens := .unknown .noUsageTerminal
  cacheReadInputTokens := .unknown .noUsageTerminal
  cacheWriteInputTokens := .unknown .noUsageTerminal
  effectiveInputTokens := .unknown .noUsageTerminal
  outputTokens := .unknown .noUsageTerminal
  reasoningTokens := .unknown .noUsageTerminal
  inputAudioTokens := .unknown .noUsageTerminal
  outputAudioTokens := .unknown .noUsageTerminal
  totalTokens := .unknown .noUsageTerminal
  pricingContextTokens := .unknown .noUsageTerminal
  billable := []
  warnings := []

/-- The uncached part of an input count that already includes the cached one. -/
def uncachedFromTotal (reportedInput cacheRead : TokenMetric) (ruleVersion : U16)
    (warnings : Warnings) : TokenMetric × Warnings :=
  match reportedInput.knownValue, cacheRead with
  | some input, .notApplicable => (.providerReported input, warnings)
  | some input, read =>
    match read.knownValue with
    | some cached =>
      match input.checkedSub cached with
      | some value => (.derivedFromReported value ruleVersion, warnings)
      -- Cached above the total is a contradiction, never clamped to zero.
      | none => (.unknown .invalidReported, pushUnique warnings .fieldConflict)
    | none => (indeterminate, warnings)
  | none, _ => (reportedInput, warnings)

/-- A derived sum, or indeterminate with a warning when it overflows. -/
def derivedSum (sum : Option U64) (ruleVersion : U16) (warnings : Warnings) :
    TokenMetric × Warnings :=
  match sum with
  | some value => (.derivedFromReported value ruleVersion, warnings)
  | none => (indeterminate, pushUnique warnings .overflow)

/-- The effective input of mutually exclusive categories. -/
def effectiveFromCategories (reportedInput cacheRead cacheWrite : TokenMetric) (ruleVersion : U16)
    (warnings : Warnings) : TokenMetric × Warnings :=
  match sumContribution reportedInput, sumContribution cacheRead, sumContribution cacheWrite with
  | some input, some read, some write =>
    derivedSum ((input.checkedAdd read).bind fun part => part.checkedAdd write) ruleVersion warnings
  | _, _, _ => (indeterminate, warnings)

/-- The uncached and the effective input, by the contract's inclusion rule. -/
def inputMetrics (inclusion : TokenInclusionRules)
    (reportedInput cacheRead cacheWrite : TokenMetric) (ruleVersion : U16) (warnings : Warnings) :
    TokenMetric × TokenMetric × Warnings :=
  if inclusion.inputIncludesCache then
    let (uncached, warnings) := uncachedFromTotal reportedInput cacheRead ruleVersion warnings
    (uncached, reportedInput, warnings)
  else if inclusion.inputCategoriesMutuallyExclusive then
    let (effective, warnings) :=
      effectiveFromCategories reportedInput cacheRead cacheWrite ruleVersion warnings
    (reportedInput, effective, warnings)
  else (reportedInput, indeterminate, warnings)

/-- The total, from the source the contract names. -/
def totalMetric (source : TotalSource) (reported : Option I64) (effectiveInput output : TokenMetric)
    (warnings : Warnings) : TokenMetric × Warnings :=
  match source with
  | .reported => classify reported true warnings
  | .derivedSum ruleVersion =>
    match effectiveInput.knownValue, output.knownValue with
    | some input, some out => derivedSum (input.checkedAdd out) ruleVersion warnings
    | _, _ => (indeterminate, warnings)
  | .unavailable => (.notApplicable, warnings)

/-- Normalize one response's usage; `none` means no usage-bearing terminal was observed. -/
def normalizeUsage (fields : Option RawUsageFields) (contract : UsageContractSnapshot) :
    ProviderUsageObservation :=
  match fields with
  | none => noUsageObservation
  | some fields =>
    let inclusion := contract.inclusion
    let ruleVersion := contract.normalizationVersion
    let cacheReadable := contract.cacheCapability ≠ .unsupported
    let (reportedInput, warnings) := classify fields.input true []
    let (cacheRead, warnings) :=
      if cacheReadable && fields.cacheRead.isNone && reportedInput.knownValue.isSome &&
          inclusion.missingCacheReadMeansZero then
        (.derivedFromReported (.lit 0 (Eq.refl true)) ruleVersion, warnings)
      else classify fields.cacheRead cacheReadable warnings
    let (cacheWrite, warnings) :=
      classify fields.cacheWrite (cacheReadable && inclusion.cacheWriteApplicable) warnings
    let (output, warnings) := classify fields.output true warnings
    let (reasoning, warnings) := classify fields.reasoning inclusion.reasoningApplicable warnings
    let (inputAudio, warnings) := classify fields.inputAudio inclusion.audioApplicable warnings
    let (outputAudio, warnings) := classify fields.outputAudio inclusion.audioApplicable warnings
    let (uncachedInput, effectiveInput, warnings) :=
      inputMetrics inclusion reportedInput cacheRead cacheWrite ruleVersion warnings
    let (total, warnings) :=
      totalMetric inclusion.totalSource fields.total effectiveInput output warnings
    let warnings :=
      if inclusion.totalSource = .reported ∧
          totalReconciles total effectiveInput output inputAudio outputAudio = false then
        pushUnique warnings .fieldConflict
      else warnings
    let pricingContext :=
      match contract.pricingContextBasis with
      | .effectiveInput => effectiveInput
      | .unknown => indeterminate
    let (billable, warnings) := pushBillableTokens [] .imageInputTokens fields.imageInput warnings
    let (billable, warnings) :=
      pushBillableTokens billable .imageOutputTokens fields.imageOutput warnings
    { uncachedInputTokens := uncachedInput
      cacheReadInputTokens := cacheRead
      cacheWriteInputTokens := cacheWrite
      effectiveInputTokens := effectiveInput
      outputTokens := output
      reasoningTokens := reasoning
      inputAudioTokens := inputAudio
      outputAudioTokens := outputAudio
      totalTokens := total
      pricingContextTokens := pricingContext
      billable := billable
      warnings := warnings }

end ProviderCore.Usage
