import ProviderCore.Usage.PriceText

/-!
# Canonical model prices

The saved form of an operator's price (`catalog.rs`): every price of the base and of the tiers is
read and written back canonically.  Writing keeps the number; reading it again, and so saving the
saved form once more, succeeds exactly while every price is below `10 ^ 23` dollars.
-/

namespace ProviderCore.Usage

open List

/-! ## Writing saved prices -/

def decimalPrice (price : Option UnitPrice) : Option String := price.map UnitPrice.toDecimalString

def modelPricingFromComponents (prices : ComponentPrices) : ProviderModelPricing where
  input := decimalPrice prices.uncachedInputPerMillion
  output := decimalPrice prices.outputPerMillion
  cacheRead := decimalPrice prices.cacheReadPerMillion
  cacheWrite := decimalPrice prices.cacheWritePerMillion
  reasoning := decimalPrice prices.reasoningPerMillion
  inputAudio := decimalPrice prices.inputAudioPerMillion
  outputAudio := decimalPrice prices.outputAudioPerMillion
  tiers := []

def modelPricingTier (thresholdTokens : U64) (prices : ComponentPrices) :
    ProviderModelPricingTier where
  thresholdTokens := thresholdTokens
  input := decimalPrice prices.uncachedInputPerMillion
  output := decimalPrice prices.outputPerMillion
  cacheRead := decimalPrice prices.cacheReadPerMillion
  cacheWrite := decimalPrice prices.cacheWritePerMillion
  reasoning := decimalPrice prices.reasoningPerMillion
  inputAudio := decimalPrice prices.inputAudioPerMillion
  outputAudio := decimalPrice prices.outputAudioPerMillion

def canonicalModelPricing (pricing : ProviderModelPricing) : Option ProviderModelPricing := do
  let prices ← componentPricesFromModelPricing pricing
  let tiers ← contextPriceTiersFromModelPricing pricing
  let canonical := modelPricingFromComponents prices
  return { canonical with
    tiers := tiers.map fun tier => modelPricingTier tier.thresholdTokens tier.prices }

/-! ## The seven prices of a block -/

/-- The texts of the base prices, one for each component. -/
def ProviderModelPricing.texts (pricing : ProviderModelPricing) : List (Option String) :=
  [pricing.input, pricing.output, pricing.cacheRead, pricing.cacheWrite, pricing.reasoning,
    pricing.inputAudio, pricing.outputAudio]

def ProviderModelPricingTier.texts (tier : ProviderModelPricingTier) : List (Option String) :=
  [tier.input, tier.output, tier.cacheRead, tier.cacheWrite, tier.reasoning, tier.inputAudio,
    tier.outputAudio]

def ComponentPrices.perMillion (prices : ComponentPrices) : List (Option UnitPrice) :=
  [prices.uncachedInputPerMillion, prices.outputPerMillion, prices.cacheReadPerMillion,
    prices.cacheWritePerMillion, prices.reasoningPerMillion, prices.inputAudioPerMillion,
    prices.outputAudioPerMillion]

theorem ComponentPrices.perMillion_inj {prices prices' : ComponentPrices} :
    prices.perMillion = prices'.perMillion ↔ prices = prices' := by
  constructor
  · intro h
    cases prices
    cases prices'
    simp only [ComponentPrices.perMillion, List.cons.injEq] at h
    grind
  · rintro rfl
    rfl

/-- What a text is read as, an absent one as an absent price. -/
def ReadAs (text : Option String) (price : Option UnitPrice) : Prop :=
  parseOptionalPrice text = some price

variable {price : Option UnitPrice} {text : Option String}

theorem ReadAs.isNone (h : ReadAs text price) : text.isNone = price.isNone := by
  rcases text with _ | text
  · cases h
    rfl
  · obtain ⟨_, -, rfl⟩ := Option.map_eq_some_iff.mp h
    rfl

theorem isEmpty_eq_all (pricing : ProviderModelPricing) :
    pricing.isEmpty = pricing.texts.all Option.isNone := by
  simp [ProviderModelPricing.isEmpty, ProviderModelPricing.texts, Bool.and_assoc]

variable {prices : ComponentPrices} {pricing : ProviderModelPricing}

/-- A block is read component by component, and only if it has one. -/
theorem componentPricesFromModelPricing_eq_some :
    componentPricesFromModelPricing pricing = some prices ↔
      pricing.texts.all Option.isNone = false ∧
        List.Forall₂ ReadAs pricing.texts prices.perMillion := by
  rw [← isEmpty_eq_all]
  unfold componentPricesFromModelPricing
  split
  · next hempty => simp [hempty]
  · next hempty =>
      simp only [Option.bind_eq_bind, Option.bind_eq_some_iff, Option.pure_def,
        ProviderModelPricing.texts, ComponentPrices.perMillion, forall₂_cons,
        forall₂_nil_left_iff, ReadAs, Option.some.injEq]
      constructor
      · rintro ⟨_, h₁, _, h₂, _, h₃, _, h₄, _, h₅, _, h₆, _, h₇, rfl⟩
        exact ⟨Bool.eq_false_iff.mpr hempty, h₁, h₂, h₃, h₄, h₅, h₆, h₇, trivial⟩
      · rintro ⟨-, h₁, h₂, h₃, h₄, h₅, h₆, h₇, -⟩
        exact ⟨_, h₁, _, h₂, _, h₃, _, h₄, _, h₅, _, h₆, _, h₇, rfl⟩

/-! ## Reading what was written -/

/-- Every price is below `10 ^ 31` units, which is `10 ^ 23` dollars. -/
def Rereadable (prices : ComponentPrices) : Prop :=
  ∀ price ∈ prices.perMillion, ∀ unit ∈ price, unit.val < 10 ^ 31

theorem readAs_decimalPrice {price price' : Option UnitPrice} (h : PriceNonneg price) :
    ReadAs (decimalPrice price) price' ↔ price = price' ∧ ∀ unit ∈ price, unit.val < 10 ^ 31 := by
  rcases price with _ | unit
  · simp [ReadAs, decimalPrice, parseOptionalPrice]
  · have hparse := parseUnitPrice_toDecimalString (h unit rfl)
    simp only [ReadAs, decimalPrice, Option.map_some, parseOptionalPrice, hparse]
    split <;> simp_all

theorem forall₂_readAs_map {prices prices' : List (Option UnitPrice)}
    (h : ∀ price ∈ prices, PriceNonneg price) :
    List.Forall₂ ReadAs (prices.map decimalPrice) prices' ↔
      prices = prices' ∧ ∀ price ∈ prices, ∀ unit ∈ price, unit.val < 10 ^ 31 := by
  induction prices generalizing prices' with
  | nil => simp
  | cons _ _ ih =>
    rw [forall_mem_cons] at h
    rcases prices' with _ | ⟨price', prices'⟩
    · simp
    · rw [map_cons, forall₂_cons, readAs_decimalPrice h.1, ih h.2, List.cons.injEq, forall_mem_cons]
      tauto

theorem ComponentPrices.Nonneg.perMillion (h : prices.Nonneg) :
    ∀ price ∈ prices.perMillion, PriceNonneg price := by
  simp only [ComponentPrices.perMillion, forall_mem_cons]
  exact ⟨h.uncachedInput, h.output, h.cacheRead, h.cacheWrite, h.reasoning, h.inputAudio,
    h.outputAudio, by simp⟩

theorem all_isNone_map (prices : List (Option UnitPrice)) :
    (prices.map decimalPrice).all Option.isNone = prices.all Option.isNone := by
  simp [Function.comp_def, decimalPrice]

variable {texts : List (Option String)}

theorem all_isNone_of_forall₂ {prices : List (Option UnitPrice)}
    (h : List.Forall₂ ReadAs texts prices) :
    texts.all Option.isNone = prices.all Option.isNone := by
  induction h with
  | nil => rfl
  | cons hread _ ih => rw [all_cons, all_cons, hread.isNone, ih]

theorem all_isNone_perMillion : prices.perMillion.all Option.isNone = false ↔ prices ≠ {} := by
  have hnone : prices.perMillion.all Option.isNone = true ↔ prices = {} := by
    rw [← ComponentPrices.perMillion_inj]
    simp [ComponentPrices.perMillion]
  rw [← Bool.not_eq_true, hnone]

variable {saved : List ProviderModelPricingTier}

/-- A block that is written is read again exactly if there is a price in it and all are small. -/
theorem componentPrices_written {prices prices' : ComponentPrices} (h : prices.Nonneg) :
    componentPricesFromModelPricing { modelPricingFromComponents prices with tiers := saved } =
      some prices' ↔ prices = prices' ∧ prices ≠ {} ∧ Rereadable prices := by
  rw [componentPricesFromModelPricing_eq_some]
  change (prices.perMillion.map decimalPrice).all _ = _ ∧
    List.Forall₂ _ (prices.perMillion.map decimalPrice) _ ↔ _
  rw [all_isNone_map, forall₂_readAs_map h.perMillion, ComponentPrices.perMillion_inj,
    all_isNone_perMillion]
  exact and_left_comm

theorem componentPricesFromModelPricing_ne_empty
    (h : componentPricesFromModelPricing pricing = some prices) : prices ≠ {} := by
  obtain ⟨hsome, hread⟩ := componentPricesFromModelPricing_eq_some.mp h
  rw [← all_isNone_perMillion, ← all_isNone_of_forall₂ hread, hsome]

/-- The threshold of a tier is exact as a number and larger than the one before. -/
def Follows (previous : Option U64) (threshold : U64) : Prop :=
  threshold.val ≤ maxSafeInteger ∧ ∀ before ∈ previous, before.val < threshold.val

variable {tiers : List ContextPriceTier} {previous : Option U64}

theorem contextPriceTiers_cons {tier : ProviderModelPricingTier}
    {rest : List ProviderModelPricingTier} :
    contextPriceTiers previous (tier :: rest) = some tiers ↔
      Follows previous tier.thresholdTokens ∧ ∃ prices tiers',
        componentPricesFromModelTier tier = some prices ∧
          contextPriceTiers (some tier.thresholdTokens) rest = some tiers' ∧
            ⟨tier.thresholdTokens, prices⟩ :: tiers' = tiers := by
  rw [contextPriceTiers, Follows]
  rcases previous with _ | before
  · split_ifs with hlarge <;> simp_all [Option.bind_eq_some_iff]
  · split_ifs with hlarge hbefore <;> simp_all [Option.bind_eq_some_iff]

/-- Tiers with increasing thresholds, each with a price. -/
structure WellOrdered (previous : Option U64) (tiers : List ContextPriceTier) : Prop where
  follows : ∀ tier ∈ tiers, Follows previous tier.thresholdTokens
  increasing : tiers.Pairwise fun tier tier' =>
    tier.thresholdTokens.val < tier'.thresholdTokens.val
  priced : ∀ tier ∈ tiers, tier.prices ≠ {}

theorem wellOrdered_nil (previous : Option U64) : WellOrdered previous [] :=
  ⟨by simp, .nil, by simp⟩

theorem wellOrdered_cons {tier : ContextPriceTier} : WellOrdered previous (tier :: tiers) ↔
      Follows previous tier.thresholdTokens ∧ tier.prices ≠ {} ∧
        WellOrdered (some tier.thresholdTokens) tiers := by
  constructor
  · rintro ⟨hfollows, hincreasing, hpriced⟩
    rw [forall_mem_cons] at hfollows hpriced
    rw [pairwise_cons] at hincreasing
    refine ⟨hfollows.1, hpriced.1, fun tier' htier' => ⟨(hfollows.2 tier' htier').1, ?_⟩,
      hincreasing.2, hpriced.2⟩
    rintro _ ⟨⟩
    exact hincreasing.1 tier' htier'
  · rintro ⟨hfollows, hpriced, hrest⟩
    have hlt (tier' : ContextPriceTier) (htier' : tier' ∈ tiers) :=
      (hrest.follows tier' htier').2 tier.thresholdTokens rfl
    refine ⟨forall_mem_cons.mpr ⟨hfollows, fun tier' htier' =>
      ⟨(hrest.follows tier' htier').1, fun before hbefore => ?_⟩⟩,
      pairwise_cons.mpr ⟨hlt, hrest.increasing⟩,
      forall_mem_cons.mpr ⟨hpriced, hrest.priced⟩⟩
    exact (hfollows.2 before hbefore).trans (hlt tier' htier')

theorem wellOrdered_of_contextPriceTiers
    (h : contextPriceTiers previous saved = some tiers) : WellOrdered previous tiers := by
  induction saved generalizing previous tiers with
  | nil =>
    cases h
    exact wellOrdered_nil previous
  | cons _ _ ih =>
    obtain ⟨hfollows, _, _, hprices, hrest, rfl⟩ := contextPriceTiers_cons.mp h
    exact wellOrdered_cons.mpr
      ⟨hfollows, componentPricesFromModelPricing_ne_empty hprices, ih hrest⟩

/-- Tiers that are written are read again exactly if they are in order and their prices small. -/
theorem contextPriceTiers_written {tiers tiers' : List ContextPriceTier}
    (h : ∀ tier ∈ tiers, tier.prices.Nonneg) :
    contextPriceTiers previous (tiers.map fun tier =>
        modelPricingTier tier.thresholdTokens tier.prices) = some tiers' ↔
      tiers = tiers' ∧ WellOrdered previous tiers ∧ ∀ tier ∈ tiers, Rereadable tier.prices := by
  induction tiers generalizing previous tiers' with
  | nil => simp [contextPriceTiers, wellOrdered_nil]
  | cons tier tiers ih =>
    rw [forall_mem_cons] at h
    rw [map_cons, contextPriceTiers_cons, forall_mem_cons, wellOrdered_cons]
    have hprices {prices'} : componentPricesFromModelTier
        (modelPricingTier tier.thresholdTokens tier.prices) = some prices' ↔ _ :=
      componentPrices_written h.1
    simp only [hprices, ih h.2]
    constructor
    · rintro ⟨hfollows, _, _, ⟨rfl, hpriced, hbase⟩, ⟨rfl, hrest, hmore⟩, rfl⟩
      exact ⟨rfl, ⟨hfollows, hpriced, hrest⟩, hbase, hmore⟩
    · rintro ⟨rfl, ⟨hfollows, hpriced, hrest⟩, hbase, hmore⟩
      exact ⟨hfollows, _, _, ⟨rfl, hpriced, hbase⟩, ⟨rfl, hrest, hmore⟩, rfl⟩

/-! ## Canonical pricing -/

theorem canonicalModelPricing_eq_some {pricing canonical : ProviderModelPricing} :
    canonicalModelPricing pricing = some canonical ↔ ∃ prices tiers,
      componentPricesFromModelPricing pricing = some prices ∧
        contextPriceTiersFromModelPricing pricing = some tiers ∧
          { modelPricingFromComponents prices with
            tiers := tiers.map fun tier =>
              modelPricingTier tier.thresholdTokens tier.prices } = canonical := by
  simp only [canonicalModelPricing, Option.bind_eq_bind, Option.bind_eq_some_iff,
    Option.pure_def, Option.some.injEq]
  grind

/-- Two texts of the same decimal number. -/
def SameNumber (text text' : String) : Prop :=
  ∃ number, decimalNumber text = some number ∧ decimalNumber text' = some number

/-- The same components are priced, each with the same decimal number. -/
def SameNumbers (texts texts' : List (Option String)) : Prop :=
  List.Forall₂ (Option.Rel SameNumber) texts texts'

/-- The same numbers, in the base and in every tier. -/
structure ProviderModelPricing.SameAs (pricing canonical : ProviderModelPricing) : Prop where
  base : SameNumbers pricing.texts canonical.texts
  tiers : List.Forall₂ (fun tier tier' : ProviderModelPricingTier =>
    tier.thresholdTokens = tier'.thresholdTokens ∧ SameNumbers tier.texts tier'.texts)
    pricing.tiers canonical.tiers

/-- Every text stands for a number below `limit`. -/
def NumbersBelow (limit : ℚ) (texts : List (Option String)) : Prop :=
  ∀ text, some text ∈ texts → ∀ number, decimalNumber text = some number → number < limit

/-- Every price of the base and of the tiers is below `limit` dollars per million tokens. -/
def ProviderModelPricing.Below (limit : ℚ) (pricing : ProviderModelPricing) : Prop :=
  NumbersBelow limit pricing.texts ∧ ∀ tier ∈ pricing.tiers, NumbersBelow limit tier.texts

theorem ReadAs.sameNumber
    (h : ReadAs text price) : Option.Rel SameNumber text (decimalPrice price) := by
  rcases text with _ | text
  · cases h
    exact .none
  · obtain ⟨_, hparse, rfl⟩ := Option.map_eq_some_iff.mp h
    exact .some ⟨_, decimalNumber_of_parseUnitPrice hparse,
      decimalNumber_toDecimalString (parseUnitPrice_nonneg hparse)⟩

theorem sameNumbers_of_forall₂ {prices : List (Option UnitPrice)}
    (h : List.Forall₂ ReadAs texts prices) : SameNumbers texts (prices.map decimalPrice) :=
  forall₂_map_right_iff.mpr (h.imp fun _ _ hread => hread.sameNumber)

theorem ReadAs.below_iff (h : ReadAs text price) :
    (∀ t ∈ text, ∀ number, decimalNumber t = some number → number < 10 ^ 23) ↔
      ∀ unit ∈ price, unit.val < 10 ^ 31 := by
  rcases text with _ | text
  · cases h
    simp
  · obtain ⟨unit, hparse, rfl⟩ := Option.map_eq_some_iff.mp h
    have hlimit : (unit.val / 10 ^ priceScale : ℚ) < 10 ^ 23 ↔ unit.val < 10 ^ 31 := by
      rw [div_lt_iff₀ (by positivity), ← pow_add]
      exact_mod_cast Iff.rfl
    simp [decimalNumber_of_parseUnitPrice hparse, hlimit]

theorem numbersBelow_iff {prices : List (Option UnitPrice)}
    (h : List.Forall₂ ReadAs texts prices) : NumbersBelow (10 ^ 23) texts ↔
      ∀ price ∈ prices, ∀ unit ∈ price, unit.val < 10 ^ 31 := by
  induction h with
  | nil => simp [NumbersBelow]
  | @cons text price texts prices hread _ ih =>
    rw [forall_mem_cons, ← ih, ← hread.below_iff]
    simp only [NumbersBelow, mem_cons, Option.mem_def, eq_comm (a := some _) (b := text)]
    grind

/-- Each tier is read as one with its threshold and its prices. -/
theorem forall₂_tiers (h : contextPriceTiers previous saved = some tiers) :
    List.Forall₂ (fun tier tier' => tier.thresholdTokens = tier'.thresholdTokens ∧
      componentPricesFromModelTier tier = some tier'.prices) saved tiers := by
  induction saved generalizing previous tiers with
  | nil =>
    cases h
    exact .nil
  | cons _ _ ih =>
    obtain ⟨-, _, _, hprices, hrest, rfl⟩ := contextPriceTiers_cons.mp h
    exact .cons ⟨rfl, hprices⟩ (ih hrest)

theorem tiers_below_iff
    (h : List.Forall₂ (fun tier tier' => tier.thresholdTokens = tier'.thresholdTokens ∧
      List.Forall₂ ReadAs tier.texts tier'.prices.perMillion) saved tiers) :
    (∀ tier ∈ saved, NumbersBelow (10 ^ 23) tier.texts) ↔
      ∀ tier ∈ tiers, Rereadable tier.prices := by
  induction h with
  | nil => simp
  | cons hread _ ih =>
    rw [forall_mem_cons, forall_mem_cons, ih, numbersBelow_iff hread.2]
    rfl

/-- The price an attempt is opened with is resolved exactly if the pricing can be read. -/
theorem modelPriceResolution_eq_resolved {saved : ProviderModelPricingRecord}
    {record : InlinePriceRecord} : modelPriceResolution (some saved) = .resolved record ↔
      ∃ prices tiers, componentPricesFromModelPricing saved.pricing = some prices ∧
        contextPriceTiersFromModelPricing saved.pricing = some tiers ∧
          .modelV2 ⟨.lit 2 (Eq.refl true), saved.source, prices, tiers⟩ = record := by
  simp only [modelPriceResolution]
  split
  · next hprices => simp [hprices]
  · next prices hprices =>
      split
      · next htiers => simp [htiers]
      · next tiers htiers => simp [hprices, htiers]

/-- A canonical price stands for the number of the original text, always.  It is accepted again,
is its own canonical form and resolves to the same record exactly if every price is below
`10 ^ 23` dollars per million tokens: from there on its text is longer than a price may be. -/
theorem canonical_stable_iff {pricing canonical : ProviderModelPricing}
    (h : canonicalModelPricing pricing = some canonical) :
    pricing.SameAs canonical ∧
      ((canonicalModelPricing canonical = some canonical ∧
          ∀ source, modelPriceResolution (some ⟨source, canonical⟩) =
            modelPriceResolution (some ⟨source, pricing⟩)) ↔
        pricing.Below (10 ^ 23)) := by
  obtain ⟨prices, tiers, hprices, htiers, rfl⟩ := canonicalModelPricing_eq_some.mp h
  have hread := (componentPricesFromModelPricing_eq_some.mp hprices).2
  have htiersRead : List.Forall₂ (fun tier tier' => tier.thresholdTokens = tier'.thresholdTokens ∧
      List.Forall₂ ReadAs tier.texts tier'.prices.perMillion) pricing.tiers tiers :=
    (forall₂_tiers htiers).imp fun _ _ htier =>
      ⟨htier.1, (componentPricesFromModelPricing_eq_some.mp htier.2).2⟩
  refine ⟨⟨sameNumbers_of_forall₂ hread, forall₂_map_right_iff.mpr
    (htiersRead.imp fun _ _ htier => ⟨htier.1, sameNumbers_of_forall₂ htier.2⟩)⟩, ?_⟩
  have hnonneg := componentPricesFromModelPricing_nonneg hprices
  have htiersNonneg := contextPriceTiers_nonneg htiers
  have hbelow : pricing.Below (10 ^ 23) ↔
      Rereadable prices ∧ ∀ tier ∈ tiers, Rereadable tier.prices :=
    and_congr (numbersBelow_iff hread) (tiers_below_iff htiersRead)
  rw [hbelow]
  constructor
  · rintro ⟨hagain, -⟩
    -- Reading the written prices again is reading the base block and the tiers again.
    obtain ⟨_, _, hprices', htiers', -⟩ := canonicalModelPricing_eq_some.mp hagain
    exact ⟨((componentPrices_written hnonneg).mp hprices').2.2,
      ((contextPriceTiers_written htiersNonneg).mp htiers').2.2⟩
  · rintro ⟨hsmall, hsmallTiers⟩
    have hpriced := componentPricesFromModelPricing_ne_empty hprices
    have hprices' {saved} := (@componentPrices_written saved _ _ hnonneg).mpr ⟨rfl, hpriced, hsmall⟩
    have htiers' := (contextPriceTiers_written htiersNonneg).mpr
      ⟨rfl, wellOrdered_of_contextPriceTiers htiers, hsmallTiers⟩
    refine ⟨canonicalModelPricing_eq_some.mpr ⟨prices, tiers, hprices', htiers', rfl⟩, ?_⟩
    intro source
    simp only [contextPriceTiersFromModelPricing] at htiers
    simp [modelPriceResolution, contextPriceTiersFromModelPricing, *]

/-- A price with a tier, as an operator may write it. -/
def tieredPricing : ProviderModelPricing where
  input := some " 1.5"
  tiers := [{ thresholdTokens := .lit 200000 (Eq.refl true), output := some ".25" }]

/-- The saved form of an operator's price has the same numbers, which are small. -/
theorem canonical_stable_tiered : ∃ canonical,
    canonicalModelPricing tieredPricing = some canonical ∧ tieredPricing.SameAs canonical ∧
      tieredPricing.Below (10 ^ 23) := by
  obtain ⟨hsame, hstable⟩ :=
    canonical_stable_iff (show canonicalModelPricing tieredPricing = some _ from rfl)
  exact ⟨_, rfl, hsame, hstable.mp ⟨rfl, fun _ => rfl⟩⟩

/-- A price of `10 ^ 23` dollars is accepted, but its canonical form is not. -/
theorem canonical_not_stable : ∃ canonical,
    canonicalModelPricing { input := some "100000000000000000000000" } = some canonical ∧
      canonicalModelPricing canonical = none :=
  ⟨_, rfl, rfl⟩

end ProviderCore.Usage
