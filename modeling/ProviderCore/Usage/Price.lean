import ProviderCore.Lib.Decimal
import ProviderCore.Usage.Observation

/-!
# Exact prices

The fixed-point money of `provider-usage/src/money.rs`, the inline price record of `price.rs`,
and the conversion of a saved model price into one (`catalog.rs`, `tracking.rs`).  A unit price
is USD per million tokens scaled by `10 ^ 8`, so that a quantity times a price is already an
amount in atoms of `10 ^ -14` USD.  The frozen catalog is known here only by its exact lookup.
-/

namespace ProviderCore.Usage

/-- Fractional decimal digits of a unit price. -/
def priceScale : ℕ := 8

abbrev UnitPrice := I128

abbrev UsdAtoms := I128

def UsdAtoms.zero : UsdAtoms := .lit 0 (Eq.refl true)

/-- The exact cost of one component, `none` on overflow. -/
def componentCostAtoms (quantity : U64) (price : UnitPrice) : Option UsdAtoms :=
  IntRange.tryFrom (quantity.val * price.val)

/-! ## Price records (`price.rs`) -/

/-- Per-component unit prices; an absent one makes a positive quantity partial, not free. -/
structure ComponentPrices where
  uncachedInputPerMillion : Option UnitPrice := none
  cacheReadPerMillion : Option UnitPrice := none
  cacheWritePerMillion : Option UnitPrice := none
  outputPerMillion : Option UnitPrice := none
  reasoningPerMillion : Option UnitPrice := none
  inputAudioPerMillion : Option UnitPrice := none
  outputAudioPerMillion : Option UnitPrice := none
deriving DecidableEq

structure ContextPriceTier where
  thresholdTokens : U64
  prices : ComponentPrices
deriving DecidableEq

/-- The historical record; still read, no longer written. -/
structure CatalogInlinePriceRecordV1 where
  formatVersion : U16
  parserVersion : U16
  catalogRevision : String
  catalogProviderId : String
  catalogModelId : String
  mappingRevision : U32
  prices : ComponentPrices
  contextTier : Option ContextPriceTier
  selectedTier : Option String
  unmodeledBillableComponent : Bool
  unmodeledPricingRule : Bool
deriving DecidableEq

inductive ProviderModelPricingSource
  | catalog
  | manual
deriving DecidableEq

structure ModelInlinePriceRecordV2 where
  formatVersion : U16
  source : ProviderModelPricingSource
  prices : ComponentPrices
  tiers : List ContextPriceTier
deriving DecidableEq

inductive InlinePriceRecord
  | catalogV1 (record : CatalogInlinePriceRecordV1)
  | modelV2 (record : ModelInlinePriceRecordV2)
deriving DecidableEq

namespace InlinePriceRecord

def prices : InlinePriceRecord → ComponentPrices
  | .catalogV1 record => record.prices
  | .modelV2 record => record.prices

def hasContextTiers : InlinePriceRecord → Bool
  | .catalogV1 record => record.contextTier.isSome
  | .modelV2 record => !record.tiers.isEmpty

/-- The prices of the tier the pricing context selects, the base prices without one. -/
def pricesForContext (record : InlinePriceRecord) (contextTokens : Option U64) : ComponentPrices :=
  match contextTokens with
  | none => record.prices
  | some contextTokens =>
    match record with
    | .catalogV1 record =>
      match record.contextTier with
      | none => record.prices
      | some tier =>
        if tier.thresholdTokens.val < contextTokens.val then tier.prices else record.prices
    | .modelV2 record =>
      match (record.tiers.takeWhile fun tier =>
          tier.thresholdTokens.val < contextTokens.val).getLast? with
      | none => record.prices
      | some tier => tier.prices

def selectedTier : InlinePriceRecord → Option String
  | .catalogV1 record => record.selectedTier
  | .modelV2 _ => none

def catalogRevision : InlinePriceRecord → Option String
  | .catalogV1 record => some record.catalogRevision
  | .modelV2 _ => none

def unmodeledBillableComponent : InlinePriceRecord → Bool
  | .catalogV1 record => record.unmodeledBillableComponent
  | .modelV2 _ => false

def unmodeledPricingRule : InlinePriceRecord → Bool
  | .catalogV1 record => record.unmodeledPricingRule
  | .modelV2 _ => false

/-! ## The selected tier -/

open List

def tiers : InlinePriceRecord → List ContextPriceTier
  | .catalogV1 record => record.contextTier.toList
  | .modelV2 record => record.tiers

/-- The prices that a context selects: those of the last of the leading tiers that it passes, the
base prices if it passes none or is not known. -/
inductive Selects (record : InlinePriceRecord) : Option U64 → ComponentPrices → Prop
  | unknown : Selects record none record.prices
  | below {context : U64}
      (hfirst : ∀ tier ∈ record.tiers.head?, context.val ≤ tier.thresholdTokens.val) :
      Selects record (some context) record.prices
  | above {context : U64} {passed after : List ContextPriceTier} {tier : ContextPriceTier}
      (htiers : record.tiers = passed ++ tier :: after)
      (hpassed : ∀ tier' ∈ passed ++ [tier], tier'.thresholdTokens.val < context.val)
      (hnext : ∀ tier' ∈ after.head?, context.val ≤ tier'.thresholdTokens.val) :
      Selects record (some context) tier.prices

/-- The prices of the highest threshold that the context passes, the base prices if it passes
none. -/
def Highest (record : InlinePriceRecord) (context : U64) (prices : ComponentPrices) : Prop :=
  (∃ tier ∈ record.tiers, tier.thresholdTokens.val < context.val ∧
    (∀ tier' ∈ record.tiers, tier'.thresholdTokens.val < context.val →
      tier'.thresholdTokens.val ≤ tier.thresholdTokens.val) ∧ prices = tier.prices) ∨
  (∀ tier ∈ record.tiers, context.val ≤ tier.thresholdTokens.val) ∧ prices = record.prices

theorem pricesForContext_some (record : InlinePriceRecord) (context : U64) :
    record.pricesForContext (some context) =
      (((record.tiers.takeWhile fun tier => tier.thresholdTokens.val < context.val).getLast?).elim
        record.prices (·.prices)) := by
  rcases record with record | record
  · rcases htier : record.contextTier with _ | tier
    · simp [pricesForContext, tiers, htier, prices]
    · by_cases hpassed : tier.thresholdTokens.val < context.val <;>
        simp [pricesForContext, tiers, htier, hpassed, prices]
  · simp only [pricesForContext, tiers]
    split
    · next hnone => rw [hnone]; rfl
    · next hsome => rw [hsome]; rfl

theorem selects_pricesForContext (record : InlinePriceRecord) (context : Option U64) :
    record.Selects context (record.pricesForContext context) := by
  rcases context with _ | context
  · exact .unknown
  rw [pricesForContext_some]
  have hsplit := takeWhile_append_dropWhile
    (p := fun tier : ContextPriceTier => tier.thresholdTokens.val < context.val)
    (l := record.tiers)
  have hnext := head?_dropWhile_not
    (fun tier : ContextPriceTier => tier.thresholdTokens.val < context.val) record.tiers
  rcases hlast : (record.tiers.takeWhile fun tier =>
      tier.thresholdTokens.val < context.val).getLast? with _ | tier
  · rw [getLast?_eq_none_iff.mp hlast, nil_append] at hsplit
    rw [hlast]
    refine .below fun tier htier => ?_
    rw [hsplit] at hnext
    simpa [Option.mem_def.mp htier] using hnext
  · obtain ⟨passed, hpassed⟩ := getLast?_eq_some_iff.mp hlast
    rw [hlast]
    refine .above (by rw [← hsplit, hpassed, append_assoc, singleton_append]) ?_ ?_
    · intro tier' htier'
      rw [← hpassed] at htier'
      simpa using mem_takeWhile_imp htier'
    · intro tier' htier'
      simpa [Option.mem_def.mp htier'] using hnext

variable {record : InlinePriceRecord} {prices : ComponentPrices}

theorem Selects.mem {context : Option U64} (h : record.Selects context prices) :
    prices = record.prices ∨ ∃ tier ∈ record.tiers, prices = tier.prices := by
  cases h with
  | unknown | below => exact .inl rfl
  | above htiers => exact .inr ⟨_, by simp [htiers], rfl⟩

/-- With increasing thresholds the selected tier is the highest one passed. -/
theorem Selects.highest {context : U64} (h : record.Selects (some context) prices)
    (hincreasing : record.tiers.Pairwise fun tier tier' =>
      tier.thresholdTokens.val < tier'.thresholdTokens.val) : record.Highest context prices := by
  -- what follows a tier that is not passed is not passed either
  have hbeyond {tiers : List ContextPriceTier} (hsorted : tiers.Pairwise fun tier tier' =>
      tier.thresholdTokens.val < tier'.thresholdTokens.val)
      (hfirst : ∀ tier ∈ tiers.head?, context.val ≤ tier.thresholdTokens.val) :
      ∀ tier ∈ tiers, context.val ≤ tier.thresholdTokens.val := by
    rcases tiers with _ | ⟨first, rest⟩
    · simp
    · have hle := hfirst first rfl
      rw [forall_mem_cons]
      exact ⟨hle, fun tier htier => hle.trans ((pairwise_cons.mp hsorted).1 tier htier).le⟩
  cases h with
  | below hfirst => exact .inr ⟨hbeyond hincreasing hfirst, rfl⟩
  | @above _ passed after tier htiers hpassed hnext =>
    rw [htiers] at hincreasing
    obtain ⟨-, htail, hacross⟩ := pairwise_append.mp hincreasing
    refine .inl ⟨tier, by simp [htiers], hpassed tier (by simp), fun tier' htier' hlt => ?_, rfl⟩
    rw [htiers, mem_append, mem_cons] at htier'
    rcases htier' with hbefore | rfl | hafter
    · exact (hacross tier' hbefore tier (by simp)).le
    · exact le_rfl
    · have := hbeyond (pairwise_cons.mp htail).2 hnext tier' hafter
      omega

end InlinePriceRecord

inductive PriceResolution
  | resolved (record : InlinePriceRecord)
  | catalogUnavailable
  | providerMappingMissing
  | modelMappingMissing
  | costMissing
  | catalogEntryInvalid
  | pricingRuleUnsupported
  | pricingRuleConflict
deriving DecidableEq

def PriceResolution.record : PriceResolution → Option InlinePriceRecord
  | .resolved record => some record
  | _ => none

/-! ## Saved model prices (`provider-core/src/model.rs`, `catalog.rs`) -/

structure ProviderModelPricingTier where
  thresholdTokens : U64
  input : Option String := none
  output : Option String := none
  cacheRead : Option String := none
  cacheWrite : Option String := none
  reasoning : Option String := none
  inputAudio : Option String := none
  outputAudio : Option String := none
deriving DecidableEq

structure ProviderModelPricing where
  input : Option String := none
  output : Option String := none
  cacheRead : Option String := none
  cacheWrite : Option String := none
  reasoning : Option String := none
  inputAudio : Option String := none
  outputAudio : Option String := none
  tiers : List ProviderModelPricingTier := []
deriving DecidableEq

def ProviderModelPricing.isEmpty (pricing : ProviderModelPricing) : Bool :=
  pricing.input.isNone && pricing.output.isNone && pricing.cacheRead.isNone &&
    pricing.cacheWrite.isNone && pricing.reasoning.isNone && pricing.inputAudio.isNone &&
    pricing.outputAudio.isNone

structure ProviderModelPricingRecord where
  source : ProviderModelPricingSource
  pricing : ProviderModelPricing
deriving DecidableEq

/-- Exact-id prices saved for one account, by the lookup they answer. -/
structure ProviderModelPricingLookup where
  exact : String → Option ProviderModelPricingRecord

/-- A catalog snapshot, by the lookup an attempt may use. -/
structure CatalogSnapshot where
  exactModelPricing : String → Option ProviderModelPricing

def maxPriceLiteral : ℕ := 32

def maxSafeInteger : ℤ := 9007199254740991

/-- Append one decimal digit to a scaled price, `none` on overflow. -/
def pushDigit (scaled : I128) (digit : ℕ) : Option I128 :=
  (IntRange.tryFrom (scaled.val * 10)).bind fun shifted : I128 =>
    IntRange.tryFrom (shifted.val + digit)

/-- Parse a decimal price: plain notation, at most eight fractional digits, not negative. -/
def parseUnitPrice (text : String) : Option UnitPrice :=
  let text := Text.trim text
  if text.isEmpty ∨ maxPriceLiteral < text.utf8ByteSize then none else
    let (integer, fraction) := (Text.splitOnce '.' text.toList).getD (text.toList, [])
    if integer.isEmpty ∧ fraction.isEmpty then none
    else if ¬(Decimal.AllDigits integer ∧ Decimal.AllDigits fraction) then none
    else if priceScale < fraction.length then none
    else
      ((integer ++ fraction).foldlM (fun scaled c => pushDigit scaled (Decimal.digitVal c))
          UsdAtoms.zero).bind fun scaled =>
        (List.replicate (priceScale - fraction.length) 0).foldlM pushDigit scaled

def parseOptionalPrice : Option String → Option (Option UnitPrice)
  | none => some none
  | some value => (parseUnitPrice value).map some

def componentPricesFromModelPricing (pricing : ProviderModelPricing) : Option ComponentPrices :=
  if pricing.isEmpty then none else do
    let uncachedInput ← parseOptionalPrice pricing.input
    let output ← parseOptionalPrice pricing.output
    let cacheRead ← parseOptionalPrice pricing.cacheRead
    let cacheWrite ← parseOptionalPrice pricing.cacheWrite
    let reasoning ← parseOptionalPrice pricing.reasoning
    let inputAudio ← parseOptionalPrice pricing.inputAudio
    let outputAudio ← parseOptionalPrice pricing.outputAudio
    return {
      uncachedInputPerMillion := uncachedInput
      outputPerMillion := output
      cacheReadPerMillion := cacheRead
      cacheWritePerMillion := cacheWrite
      reasoningPerMillion := reasoning
      inputAudioPerMillion := inputAudio
      outputAudioPerMillion := outputAudio }

def componentPricesFromModelTier (tier : ProviderModelPricingTier) : Option ComponentPrices :=
  componentPricesFromModelPricing {
    input := tier.input
    output := tier.output
    cacheRead := tier.cacheRead
    cacheWrite := tier.cacheWrite
    reasoning := tier.reasoning
    inputAudio := tier.inputAudio
    outputAudio := tier.outputAudio
    tiers := [] }

/-- The loop over the tiers; `previous` is the last accepted threshold. -/
def contextPriceTiers (previous : Option U64) :
    List ProviderModelPricingTier → Option (List ContextPriceTier)
  | [] => some []
  | tier :: rest =>
    if maxSafeInteger < tier.thresholdTokens.val then none
    else if previous.any fun previous => tier.thresholdTokens.val ≤ previous.val then none
    else do
      let prices ← componentPricesFromModelTier tier
      let tiers ← contextPriceTiers (some tier.thresholdTokens) rest
      return ⟨tier.thresholdTokens, prices⟩ :: tiers

def contextPriceTiersFromModelPricing (pricing : ProviderModelPricing) :
    Option (List ContextPriceTier) :=
  contextPriceTiers none pricing.tiers

/-- The price outcome of a routed model price (`tracking.rs`). -/
def modelPriceResolution (pricing : Option ProviderModelPricingRecord) : PriceResolution :=
  match pricing with
  | none => .modelMappingMissing
  | some pricing =>
    match componentPricesFromModelPricing pricing.pricing with
    | none => .catalogEntryInvalid
    | some prices =>
      match contextPriceTiersFromModelPricing pricing.pricing with
      | none => .catalogEntryInvalid
      | some tiers =>
        .resolved (.modelV2 ⟨.lit 2 (Eq.refl true), pricing.source, prices, tiers⟩)

/-- The trimmed model name, if there is one. -/
def namedModel (model : Option String) : Option String :=
  (model.map Text.trim).filter fun model => !model.isEmpty

/-- The price of the pricing alias, the account's before the snapshot's. -/
def resolvePricingAlias (routePrice : PriceResolution) (pricingModelAlias : Option String)
    (providerPricing : Option ProviderModelPricingLookup)
    (catalogSnapshot : Option CatalogSnapshot) : PriceResolution × Bool :=
  match namedModel pricingModelAlias with
  | none => (routePrice, false)
  | some name =>
    match providerPricing.bind fun pricing => pricing.exact name with
    | some pricing => (modelPriceResolution (some pricing), false)
    | none =>
      match catalogSnapshot.bind fun snapshot => snapshot.exactModelPricing name with
      | none => (routePrice, false)
      | some pricing => (modelPriceResolution (some ⟨.catalog, pricing⟩), false)

/-- Resolve a missing route price from the model the provider reported.  The flag says whether
the price is the reported model's own. -/
def resolveAttemptPrice (routePrice : PriceResolution) (providerReportedModel : Option String)
    (pricingModelAlias : Option String) (providerPricing : Option ProviderModelPricingLookup)
    (catalogSnapshot : Option CatalogSnapshot) : PriceResolution × Bool :=
  if routePrice ≠ .modelMappingMissing then (routePrice, false) else
    match namedModel providerReportedModel with
    | none => resolvePricingAlias routePrice pricingModelAlias providerPricing catalogSnapshot
    | some model =>
      match providerPricing.bind fun pricing => pricing.exact model with
      | some pricing =>
        let resolved := modelPriceResolution (some pricing)
        (resolved, resolved.record.isSome)
      | none =>
        match catalogSnapshot.bind fun snapshot => snapshot.exactModelPricing model with
        | some pricing =>
          let resolved := modelPriceResolution (some ⟨.catalog, pricing⟩)
          (resolved, resolved.record.isSome)
        | none => resolvePricingAlias routePrice pricingModelAlias providerPricing catalogSnapshot

end ProviderCore.Usage
