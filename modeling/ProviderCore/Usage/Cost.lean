import ProviderCore.Usage.Normalize
import ProviderCore.Usage.Price

/-!
# Observed catalog cost

`compute_observed_catalog_cost` of `provider-usage/src/cost.rs`: the seven token components are
priced one by one with checked 128-bit arithmetic, and everything that keeps the sum from
covering the metered usage is collected as a reason.  A cost is complete exactly when no reason
was collected.
-/

namespace ProviderCore.Usage

def calculatorVersion : U16 := .lit 2 (Eq.refl true)

inductive CostStatus
  | completeForObservedCatalogComponents
  | partial_
  | unavailable
deriving DecidableEq

inductive CostReason
  | catalogUnavailable
  | providerMappingMissing
  | modelMappingMissing
  | costMissing
  | catalogEntryInvalid
  | pricingRuleUnsupported
  | pricingRuleConflict
  | tierBasisUnavailable
  | priceModeUnknown
  | unmodeledBillableComponent
  | componentPriceMissing
  | usageComponentMissing
  | inputCategorySplitUnavailable
  | usageFieldConflict
  | modelMismatch
  | arithmeticOverflow
  | notDispatched
deriving DecidableEq

structure ObservedCatalogCost where
  totalKnown : UsdAtoms
  status : CostStatus
  reasons : List CostReason
  calculatorVersion : U16
deriving DecidableEq

namespace ObservedCatalogCost

def unavailable (reason : CostReason) : ObservedCatalogCost :=
  ⟨UsdAtoms.zero, .unavailable, [reason], Usage.calculatorVersion⟩

/-- The cost of an attempt that never reached the upstream. -/
def notDispatched : ObservedCatalogCost := unavailable .notDispatched

end ObservedCatalogCost

/-- What pricing a single component produced. -/
inductive ComponentOutcome
  | priced (atoms : UsdAtoms)
  | skip
  | incomplete (reason : CostReason)
  | overflow
deriving DecidableEq

/-- Price one component: an explicit zero needs no price, a positive quantity needs one, and a
quantity that is not known is incomplete only when the component is priced. -/
def priceComponent (quantity : TokenMetric) (price : Option UnitPrice) : ComponentOutcome :=
  match quantity.knownValue with
  | some count =>
    if count.val = 0 then .priced UsdAtoms.zero else
      match price with
      | some unit =>
        match componentCostAtoms count unit with
        | some atoms => .priced atoms
        | none => .overflow
      | none => .incomplete .componentPriceMissing
  | none =>
    match quantity with
    | .notApplicable => .skip
    | _ => if price.isSome then .incomplete .usageComponentMissing else .skip

/-- The loop over the component outcomes: the running total and the reasons so far, `none` once
something overflowed. -/
def sumComponents : UsdAtoms × List CostReason → List ComponentOutcome →
    Option (UsdAtoms × List CostReason)
  | state, [] => some state
  | (total, reasons), outcome :: rest =>
    match outcome with
    | .priced atoms =>
      match total.checkedAdd atoms with
      | some sum => sumComponents (sum, reasons) rest
      | none => none
    | .skip => sumComponents (total, reasons) rest
    | .incomplete reason => sumComponents (total, pushUnique reasons reason) rest
    | .overflow => none

section

variable (observation : ProviderUsageObservation)

/-- The seven priced components, in the source's order. -/
def pricedComponents (contract : UsageContractSnapshot)
    (prices : ComponentPrices) : List ComponentOutcome :=
  -- Reasoning that is already inside the output must not be priced again.
  let reasoningTokens :=
    if contract.inclusion.reasoningIncludedInOutput then .notApplicable
    else observation.reasoningTokens
  [ priceComponent observation.uncachedInputTokens prices.uncachedInputPerMillion,
    priceComponent observation.cacheReadInputTokens prices.cacheReadPerMillion,
    priceComponent observation.cacheWriteInputTokens prices.cacheWritePerMillion,
    priceComponent observation.outputTokens prices.outputPerMillion,
    priceComponent reasoningTokens prices.reasoningPerMillion,
    priceComponent observation.inputAudioTokens prices.inputAudioPerMillion,
    priceComponent observation.outputAudioTokens prices.outputAudioPerMillion ]

/-- The reasons that do not come from a single component, in the source's order. -/
def coverageReasons (contract : UsageContractSnapshot)
    (record : InlinePriceRecord) (reasons : List CostReason) : List CostReason :=
  let reasons := if contract.pricingMode = .unknown then pushUnique reasons .priceModeUnknown
    else reasons
  let reasons := if record.unmodeledBillableComponent ∨ observation.billable ≠ [] then
    pushUnique reasons .unmodeledBillableComponent else reasons
  let reasons := if record.unmodeledPricingRule then pushUnique reasons .pricingRuleUnsupported
    else reasons
  let reasons := if record.hasContextTiers ∧ observation.pricingContextTokens.knownValue = none then
    pushUnique reasons .tierBasisUnavailable else reasons
  let reasons := if NormalizationWarning.providerModelMismatch ∈ observation.warnings then
    pushUnique reasons .modelMismatch else reasons
  if NormalizationWarning.fieldConflict ∈ observation.warnings then
    pushUnique reasons .usageFieldConflict else reasons

def costOfRecord (contract : UsageContractSnapshot)
    (record : InlinePriceRecord) : ObservedCatalogCost :=
  let prices := record.pricesForContext observation.pricingContextTokens.knownValue
  match sumComponents (UsdAtoms.zero, []) (pricedComponents observation contract prices) with
  | none => .unavailable .arithmeticOverflow
  | some (total, reasons) =>
    let reasons := coverageReasons observation contract record reasons
    let status := if reasons = [] then .completeForObservedCatalogComponents else .partial_
    ⟨total, status, reasons, calculatorVersion⟩

def computeObservedCatalogCost
    (contract : UsageContractSnapshot) (resolution : PriceResolution) : ObservedCatalogCost :=
  match resolution with
  | .resolved record => costOfRecord observation contract record
  | .catalogUnavailable => .unavailable .catalogUnavailable
  | .providerMappingMissing => .unavailable .providerMappingMissing
  | .modelMappingMissing => .unavailable .modelMappingMissing
  | .costMissing => .unavailable .costMissing
  | .catalogEntryInvalid => .unavailable .catalogEntryInvalid
  | .pricingRuleUnsupported => .unavailable .pricingRuleUnsupported
  | .pricingRuleConflict => .unavailable .pricingRuleConflict

end

end ProviderCore.Usage
