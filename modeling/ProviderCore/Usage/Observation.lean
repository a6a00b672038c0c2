import ProviderCore.Lib.IntRange

/-!
# Reported usage and the contract it is read under

The vocabulary of `provider-core/src/usage`: the raw counts a provider reported, the tagged
metrics they are turned into, and the contract that is fixed for an attempt before its response
is read.  Raw counts are signed 64-bit and optional, since a missing count is not a zero and a
negative one has to be seen to be rejected; metrics are unsigned 64-bit.
-/

namespace ProviderCore.Usage

/-! ## Token metrics (`token.rs`) -/

/-- Why a token field could not be resolved to a count. -/
inductive TokenUnknownReason
  | indeterminate
  | invalidReported
  | noUsageTerminal
deriving DecidableEq

/-- One token field, with the quality of its value as the tag. -/
inductive TokenMetric
  | providerReported (value : U64)
  | derivedFromReported (value : U64) (ruleVersion : U16)
  | notReported
  | notApplicable
  | unknown (reason : TokenUnknownReason)
deriving DecidableEq

/-- The count when one is known, reported or derived. -/
def TokenMetric.knownValue : TokenMetric → Option U64
  | .providerReported value => some value
  | .derivedFromReported value _ => some value
  | .notReported | .notApplicable | .unknown _ => none

/-- Billable components that fit no token category. -/
inductive BillableComponentCode
  | cacheWrite5m
  | cacheWrite1h
  | serverToolCall
  | imageInputTokens
  | imageOutputTokens
deriving DecidableEq

inductive BillableUnit
  | tokens
  | calls
deriving DecidableEq

structure BillableObservation where
  componentCode : BillableComponentCode
  unit : BillableUnit
  quantity : U64
deriving DecidableEq

/-- A non-fatal signal raised while normalizing. -/
inductive NormalizationWarning
  | negativeValue
  | overflow
  | fieldConflict
  | providerModelMismatch
deriving DecidableEq

/-- The usage one response was normalized into. -/
structure ProviderUsageObservation where
  uncachedInputTokens : TokenMetric
  cacheReadInputTokens : TokenMetric
  cacheWriteInputTokens : TokenMetric
  effectiveInputTokens : TokenMetric
  outputTokens : TokenMetric
  reasoningTokens : TokenMetric
  inputAudioTokens : TokenMetric
  outputAudioTokens : TokenMetric
  totalTokens : TokenMetric
  /-- Selects a context price tier, never billed on its own. -/
  pricingContextTokens : TokenMetric
  billable : List BillableObservation
  warnings : List NormalizationWarning
deriving DecidableEq

/-! ## Raw counts (`raw.rs`) -/

/-- The counts a provider reported, before normalization. -/
structure RawUsageFields where
  input : Option I64 := none
  cacheRead : Option I64 := none
  cacheWrite : Option I64 := none
  output : Option I64 := none
  reasoning : Option I64 := none
  inputAudio : Option I64 := none
  outputAudio : Option I64 := none
  imageInput : Option I64 := none
  imageOutput : Option I64 := none
  total : Option I64 := none
deriving DecidableEq

/-! ## The contract (`cache.rs`, `contract.rs`) -/

inductive CacheCapability
  | supported
  | unsupported
  | unknown
deriving DecidableEq

inductive CacheEligibility
  | eligible
  | notRequested
  | notApplicable
  | unknown
deriving DecidableEq

inductive CacheReportingExpectation
  | expected
  | notExpected
  | unknown
deriving DecidableEq

/-- Where a total may come from. -/
inductive TotalSource
  | reported
  | derivedSum (ruleVersion : U16)
  | unavailable
deriving DecidableEq

/-- How a provider's raw fields include one another. -/
structure TokenInclusionRules where
  inputIncludesCache : Bool
  inputCategoriesMutuallyExclusive : Bool
  reasoningIncludedInOutput : Bool
  reasoningApplicable : Bool
  audioApplicable : Bool
  cacheWriteApplicable : Bool
  missingCacheReadMeansZero : Bool
  totalSource : TotalSource
deriving DecidableEq

inductive PricingContextBasis
  | effectiveInput
  | unknown
deriving DecidableEq

inductive PricingMode
  | default
  | unknown
deriving DecidableEq

/-- The contract fixed for one attempt before its response is read. -/
structure UsageContractSnapshot where
  contractVersion : U16
  normalizationVersion : U16
  inclusion : TokenInclusionRules
  cacheCapability : CacheCapability
  cacheEligibility : CacheEligibility
  cacheReportingExpectation : CacheReportingExpectation
  pricingContextBasis : PricingContextBasis
  pricingMode : PricingMode
deriving DecidableEq

/-- The upstream families (`provider-core/src/account.rs`). -/
inductive ProviderKind
  | grok
  | codex
  | antigravity
  | openAiCompatible
  | anthropicCompatible
deriving DecidableEq

def ProviderKind.asStr : ProviderKind → String
  | .grok => "grok"
  | .codex => "codex"
  | .antigravity => "antigravity"
  | .openAiCompatible => "openai_compatible"
  | .anthropicCompatible => "anthropic_compatible"

end ProviderCore.Usage
