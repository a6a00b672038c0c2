import ProviderCore.Usage.Catalog

/-!
# Prices of the catalog in use

What the catalog parser accepts, the resolver of an attempt has to accept again.  The two have rules
of their own: `catalog_pricing_usable_iff` says for which cost blocks they agree.  Both leave tiers
in the order of their thresholds, so that the last tier below the context is the right one
(`context_tier_selected`).
-/

namespace ProviderCore.Usage

open List Fold

/-! ## What a cost block says -/

/-- The texts of a block's prices, where `null` is no text. -/
def RawPrices.texts (cost : RawPrices) : List (Option String) :=
  [cost.input, cost.output, cost.cacheRead, cost.cacheWrite, cost.reasoning, cost.inputAudio,
    cost.outputAudio].map (Option.filter (· ≠ "null"))

/-- The tiers that a cost block lists, in its own order. -/
def RawCost.tierBlocks (reader : CatalogReader) (cost : RawCost) :
    Option (List (U64 × RawPrices)) :=
  match presentText cost.tiers with
  | some raw => (reader.tierCosts raw).map
      (List.map fun tier => (tier.tier.size, tier.toRawPrices))
  | none =>
    match presentText cost.contextOver200k with
    | none => some []
    | some raw => (reader.contextCost raw).map fun tier => [(.lit 200000 (Eq.refl true), tier)]

theorem optionalPrice_eq (raw : Option String) :
    optionalPrice raw = parseOptionalPrice (raw.filter (· ≠ "null")) := by
  rcases raw with _ | text
  · rfl
  · by_cases hnull : text = "null"
    · subst hnull
      rfl
    · rw [Option.filter_some_pos (by simpa using hnull)]
      exact if_neg hnull

variable {prices : ComponentPrices}

theorem componentPricesFromFields_eq_some {cost : RawPrices} :
    componentPricesFromFields cost = some prices ↔
      List.Forall₂ ReadAs cost.texts prices.perMillion := by
  simp only [componentPricesFromFields, optionalPrice_eq, Option.bind_eq_bind,
    Option.bind_eq_some_iff, Option.pure_def, RawPrices.texts, map_cons, map_nil,
    ComponentPrices.perMillion, forall₂_cons, forall₂_nil_left_iff, ReadAs, Option.some.injEq]
  constructor
  · rintro ⟨_, h₁, _, h₂, _, h₃, _, h₄, _, h₅, _, h₆, _, h₇, rfl⟩
    exact ⟨h₁, h₄, h₂, h₃, h₅, h₆, h₇, trivial⟩
  · rintro ⟨h₁, h₄, h₂, h₃, h₅, h₆, h₇, -⟩
    exact ⟨_, h₁, _, h₂, _, h₃, _, h₄, _, h₅, _, h₆, _, h₇, rfl⟩

variable {texts : List (Option String)}

theorem nonneg_of_forall₂ (h : List.Forall₂ ReadAs texts prices.perMillion) : prices.Nonneg := by
  have hall : ∀ price ∈ prices.perMillion, PriceNonneg price := by
    intro price hprice
    obtain ⟨_, -, hread⟩ := exists_of_forall₂ h hprice
    exact parseOptionalPrice_nonneg hread
  simp only [ComponentPrices.perMillion, forall_mem_cons] at hall
  obtain ⟨h₁, h₂, h₃, h₄, h₅, h₆, h₇, -⟩ := hall
  exact ⟨h₁, h₃, h₄, h₂, h₅, h₆, h₇⟩

variable {tier : ProviderModelPricingTier}

/-- A tier of the record is written for each tier of the block. -/
theorem pricedTier_eq_some {threshold : U64} {cost : RawPrices} :
    pricedTier threshold cost = some tier ↔ ∃ prices,
      List.Forall₂ ReadAs cost.texts prices.perMillion ∧ prices ≠ {} ∧
        modelPricingTier threshold prices = tier := by
  simp only [pricedTier, Option.bind_eq_some_iff, componentPricesFromFields_eq_some]
  constructor
  · rintro ⟨prices, hread, h⟩
    split_ifs at h with hnone
    cases h
    exact ⟨prices, hread, hnone, rfl⟩
  · rintro ⟨prices, hread, hsome, rfl⟩
    exact ⟨prices, hread, if_neg hsome⟩

/-- The tier that a listed block is read as. -/
def ReadTier (block : U64 × RawPrices) (tier : ContextPriceTier) : Prop :=
  block.1 = tier.thresholdTokens ∧ List.Forall₂ ReadAs block.2.texts tier.prices.perMillion ∧
    tier.prices ≠ {}

variable {tiers : List ProviderModelPricingTier}

/-- The tiers an attempt is priced with, for blocks that were accepted one by one. -/
theorem exists_readTiers {blocks : List (U64 × RawPrices)}
    (h : List.Forall₂ (fun block tier => pricedTier block.1 block.2 = some tier) blocks tiers) :
    ∃ context, List.Forall₂ ReadTier blocks context ∧
      tiers = context.map fun tier => modelPricingTier tier.thresholdTokens tier.prices := by
  induction h with
  | nil => exact ⟨[], .nil, rfl⟩
  | @cons block tier _ _ htier _ ih =>
    obtain ⟨context, hread, rfl⟩ := ih
    obtain ⟨prices, hprices, hsome, rfl⟩ := pricedTier_eq_some.mp htier
    exact ⟨⟨block.1, prices⟩ :: context, .cons ⟨rfl, hprices, hsome⟩ hread, rfl⟩

theorem pricedTier_of_explicitTier {raw : RawTierCost} (h : explicitTier raw = some tier) :
    pricedTier raw.tier.size raw.toRawPrices = some tier := by
  unfold explicitTier at h
  split_ifs at h with hkind
  exact h

variable {reader : CatalogReader} {cost : RawCost}

/-- Accepted tiers are the listed ones, sorted by their thresholds. -/
theorem tiers_of_parse (h : parseModelPricingTiers reader cost = some tiers) :
    Increasing tiers ∧ ∃ blocks order context, cost.tierBlocks reader = some blocks ∧
      blocks.Perm order ∧ List.Forall₂ ReadTier order context ∧
        tiers = context.map fun tier => modelPricingTier tier.thresholdTokens tier.prices := by
  unfold parseModelPricingTiers at h
  split at h
  · -- the explicit encoding, in any order
    next raw hraw =>
      obtain ⟨rawTiers, hread, hexplicit⟩ := Option.bind_eq_some_iff.mp h
      obtain ⟨hincreasing, unsorted, hmap, rfl⟩ := explicitTiers_eq_some.mp hexplicit
      have hblocks : List.Forall₂ (fun block tier => pricedTier block.1 block.2 = some tier)
          (rawTiers.map fun tier => (tier.tier.size, tier.toRawPrices)) unsorted :=
        forall₂_map_left_iff.mpr
          ((forall₂_of_mapM hmap).imp fun _ _ => pricedTier_of_explicitTier)
      have hsorted : Relation.Comp List.Perm (List.Forall₂ fun block tier =>
          pricedTier block.1 block.2 = some tier)
          (rawTiers.map fun tier => (tier.tier.size, tier.toRawPrices))
          (sortByThreshold unsorted) := by
        rw [← forall₂_comp_perm_eq_perm_comp_forall₂]
        exact ⟨unsorted, hblocks, (sortByThreshold_perm unsorted).symm⟩
      obtain ⟨order, hperm, horder⟩ := hsorted
      obtain ⟨context, hcontext, hwritten⟩ := exists_readTiers horder
      exact ⟨hincreasing, _, order, context, by simp [RawCost.tierBlocks, hraw, hread], hperm,
        hcontext, hwritten⟩
  · next hraw =>
      split at h
      · next hlegacy =>
          cases h
          exact ⟨.nil, [], [], [], by simp [RawCost.tierBlocks, hraw, hlegacy], .refl _,
            .nil, rfl⟩
      · next raw hlegacy =>
          obtain ⟨cost, hread, hpriced⟩ := Option.bind_eq_some_iff.mp h
          obtain ⟨tier, htier, rfl⟩ := Option.map_eq_some_iff.mp hpriced
          have hone : List.Forall₂ (fun block tier => pricedTier block.1 block.2 = some tier)
              [(.lit 200000 (Eq.refl true), cost)] [tier] := .cons htier .nil
          obtain ⟨context, hcontext, hwritten⟩ := exists_readTiers hone
          exact ⟨pairwise_singleton _ _, _, _, context,
            by simp [RawCost.tierBlocks, hraw, hlegacy, hread], .refl _, hcontext, hwritten⟩

/-! ## Usable prices -/

/-- The prices are the decimal numbers of the texts, component by component. -/
def Quotes (texts : List (Option String)) (prices : ComponentPrices) : Prop :=
  List.Forall₂ (Option.Rel fun text unit =>
    decimalNumber text = some (unit.val / 10 ^ priceScale : ℚ)) texts prices.perMillion

/-- The base prices and the tiers are those of the cost block. -/
structure QuotesCost (reader : CatalogReader) (cost : RawCost)
    (record : ModelInlinePriceRecordV2) : Prop where
  base : Quotes cost.texts record.prices
  tiers : ∃ blocks order, cost.tierBlocks reader = some blocks ∧ blocks.Perm order ∧
    List.Forall₂ (fun block tier => block.1 = tier.thresholdTokens ∧
      Quotes block.2.texts tier.prices) order record.tiers

/-- The catalog offers a pricing for a cost block. -/
def Offers (reader : CatalogReader) (cost : RawCost) (pricing : ProviderModelPricing) : Prop :=
  modelPricingFromEntry (catalogPricing reader ⟨some cost⟩) = some pricing

/-- A body lists a cost block for a model of a provider. -/
def Lists (reader : CatalogReader) (body provider model : String) (cost : RawCost) : Prop :=
  ∃ raw rawProvider, reader.catalog body = some raw ∧ (provider, rawProvider) ∈ raw.rows ∧
    (model, ⟨some cost⟩) ∈ rawProvider.models.rows

/-- There is a base price, no price reaches `10 ^ 23` dollars per million tokens, and every
threshold is exact as a JSON number. -/
structure Usable (reader : CatalogReader) (cost : RawCost) : Prop where
  priced : cost.texts.all Option.isNone = false
  below : NumbersBelow (10 ^ 23) cost.texts
  tiers : ∀ blocks, cost.tierBlocks reader = some blocks → ∀ block ∈ blocks,
    block.1.val ≤ maxSafeInteger ∧ NumbersBelow (10 ^ 23) block.2.texts

theorem quotes_of_forall₂
    (h : List.Forall₂ ReadAs texts prices.perMillion) : Quotes texts prices := by
  refine h.imp fun text price hread => ?_
  rcases text with _ | text
  · cases hread
    exact .none
  · obtain ⟨_, hparse, rfl⟩ := Option.map_eq_some_iff.mp hread
    exact .some (decimalNumber_of_parseUnitPrice hparse)

variable {pricing : ProviderModelPricing}

theorem offers_iff :
    Offers reader cost pricing ↔ ∃ prices tiers, componentPrices cost = some prices ∧
      parseModelPricingTiers reader cost = some tiers ∧
        { modelPricingFromComponents prices with tiers := tiers } = pricing := by
  unfold Offers
  simp only [catalogPricing]
  split
  · next prices tiers hprices htiers => simp [modelPricingFromEntry, hprices, htiers]
  · next hnone =>
      refine ⟨fun h => (by cases h), ?_⟩
      rintro ⟨prices, tiers, hprices, htiers, -⟩
      exact absurd htiers (hnone prices tiers hprices)

variable {context : List ContextPriceTier} {order : List (U64 × RawPrices)}

theorem readTiers_small_iff (h : List.Forall₂ ReadTier order context) :
    (∀ block ∈ order, block.1.val ≤ maxSafeInteger ∧ NumbersBelow (10 ^ 23) block.2.texts) ↔
      ∀ tier ∈ context, tier.thresholdTokens.val ≤ maxSafeInteger ∧ Rereadable tier.prices := by
  induction h with
  | nil => simp
  | @cons block tier _ _ hread _ ih =>
    obtain ⟨hthreshold, hprices, -⟩ := hread
    rw [forall_mem_cons, forall_mem_cons, ih, hthreshold, numbersBelow_iff hprices]
    rfl

theorem wellOrdered_readTiers (h : List.Forall₂ ReadTier order context) (hincreasing : Increasing
      (context.map fun tier => modelPricingTier tier.thresholdTokens tier.prices)) :
    WellOrdered none context ↔ ∀ tier ∈ context, tier.thresholdTokens.val ≤ maxSafeInteger := by
  rw [Increasing, pairwise_map] at hincreasing
  refine ⟨fun hordered tier htier => (hordered.follows tier htier).1, fun hsafe => ?_⟩
  refine ⟨fun tier htier => ⟨hsafe tier htier, by simp⟩, hincreasing, ?_⟩
  intro tier htier
  obtain ⟨_, -, hread⟩ := exists_of_forall₂ h htier
  exact hread.2.2

/-- An offered pricing is resolved, with the numbers of its cost block, exactly if the block is
usable. -/
theorem offered_usable_iff (h : Offers reader cost pricing) (source : ProviderModelPricingSource) :
    (∃ record, modelPriceResolution (some ⟨source, pricing⟩) = .resolved (.modelV2 record) ∧
      QuotesCost reader cost record) ↔ Usable reader cost := by
  obtain ⟨prices, tiers, hprices, htiers, rfl⟩ := offers_iff.mp h
  have hread := componentPricesFromFields_eq_some.mp hprices
  obtain ⟨hincreasing, blocks, order, context, hblocks, hperm, hcontext, rfl⟩ :=
    tiers_of_parse htiers
  have hnonneg : ∀ tier ∈ context, tier.prices.Nonneg := by
    intro tier htier
    obtain ⟨_, -, hblock⟩ := exists_of_forall₂ hcontext htier
    exact nonneg_of_forall₂ hblock.2.1
  have hsmall : (∀ block ∈ blocks, block.1.val ≤ maxSafeInteger ∧
      NumbersBelow (10 ^ 23) block.2.texts) ↔
        WellOrdered none context ∧ ∀ tier ∈ context, Rereadable tier.prices := by
    rw [wellOrdered_readTiers hcontext hincreasing]
    simp only [hperm.mem_iff, readTiers_small_iff hcontext]
    exact ⟨fun h => ⟨fun tier ht => (h tier ht).1, fun tier ht => (h tier ht).2⟩,
      fun h tier ht => ⟨h.1 tier ht, h.2 tier ht⟩⟩
  simp only [modelPriceResolution_eq_resolved, contextPriceTiersFromModelPricing,
    componentPrices_written (nonneg_of_forall₂ hread), contextPriceTiers_written hnonneg]
  constructor
  · rintro ⟨_, ⟨_, _, ⟨rfl, hsome, hreread⟩, ⟨rfl, hordered, htiersSmall⟩, -⟩, -⟩
    refine ⟨?_, (numbersBelow_iff hread).mpr hreread, ?_⟩
    · rw [all_isNone_of_forall₂ hread, all_isNone_perMillion]
      exact hsome
    · intro blocks' hblocks'
      cases hblocks.symm.trans hblocks'
      exact hsmall.mpr ⟨hordered, htiersSmall⟩
  · rintro ⟨hpriced, hbelow, hlisted⟩
    rw [all_isNone_of_forall₂ hread, all_isNone_perMillion] at hpriced
    refine ⟨_, ⟨prices, context, ⟨rfl, hpriced, (numbersBelow_iff hread).mp hbelow⟩,
      ⟨rfl, hsmall.mp (hlisted blocks hblocks)⟩, rfl⟩, quotes_of_forall₂ hread,
      blocks, order, hblocks, hperm, ?_⟩
    exact hcontext.imp fun _ _ hblock => ⟨hblock.1, quotes_of_forall₂ hblock.2.1⟩

/-- Whatever a lookup returns was offered for a cost block that the body lists for the model. -/
theorem lists_of_exactPricing {body revision : String}
    {parsed catalog : ParsedCatalog} {catalogProvider : Option String} {model : String}
    (hparse : ParsedCatalog.parse reader body revision = .ok parsed)
    (horder : catalog.SameEntries parsed)
    (h : catalog.exactPricing catalogProvider model = some pricing) :
    ∃ provider cost, (∀ named ∈ catalogProvider, named = provider) ∧
      Lists reader body provider model cost ∧ Offers reader cost pricing := by
  obtain ⟨_, _, hmem, hnamed, hentry⟩ := ParsedCatalog.exists_entry_of_exactPricing h
  have hrow := horder.mem_iff.mp hmem
  unfold ParsedCatalog.parse at hparse
  split at hparse
  · cases hparse
  split at hparse
  · cases hparse
  next raw hraw =>
    cases hparse
    simp only [catalogRows, mem_flatMap, mem_map, Prod.mk.injEq] at hrow
    obtain ⟨⟨_, rawProvider⟩, hprovider, ⟨_, rawModel⟩, hmodel, ⟨rfl, rfl⟩, rfl⟩ := hrow
    obtain ⟨_ | cost⟩ := rawModel
    · cases hentry
    · exact ⟨_, cost, hnamed, ⟨raw, rawProvider, hraw, hprovider, hmodel⟩, hentry⟩

/-- A price that a lookup of the catalog returns was listed for the model.  It resolves to a record
with exactly the listed numbers if and only if the cost block it was read from has a base price, no
price of `10 ^ 23` dollars or more and no threshold above `2 ^ 53 - 1`. -/
theorem catalog_pricing_usable_iff {reader : CatalogReader} {body revision : String}
    {parsed catalog : ParsedCatalog} {catalogProvider : Option String} {model : String}
    {pricing : ProviderModelPricing}
    (hparse : ParsedCatalog.parse reader body revision = .ok parsed)
    (horder : catalog.SameEntries parsed)
    (h : catalog.exactPricing catalogProvider model = some pricing) :
    (∃ provider cost, (∀ named ∈ catalogProvider, named = provider) ∧
      Lists reader body provider model cost ∧ Offers reader cost pricing) ∧
    ∀ cost, Offers reader cost pricing → ∀ source,
      (∃ record, modelPriceResolution (some ⟨source, pricing⟩) = .resolved (.modelV2 record) ∧
        QuotesCost reader cost record) ↔ Usable reader cost :=
  ⟨lists_of_exactPricing hparse horder h, fun _ hoffers source => offered_usable_iff hoffers source⟩

/-- The reader of a body that lists one model. -/
def oneModelReader (body : String) (cost : RawCost) : CatalogReader where
  catalog text := if text = body then
    some ⟨[("openai", ⟨⟨[("gpt-5", ⟨some cost⟩)], by simp⟩⟩)], by simp⟩ else none
  tierCosts _ := none
  contextCost _ := none

def pricedBody : String :=
  "\x7b\"openai\":\x7b\"models\":\x7b\"gpt-5\":\x7b\"cost\":\x7b\"input\":1.25\x7d\x7d\x7d\x7d\x7d"

def pricedCost : RawCost := { input := some "1.25" }

/-- A catalog with a price of `1.25` dollars. -/
theorem catalog_pricing_usable_priced : let reader := oneModelReader pricedBody pricedCost
    ∃ parsed pricing record, ParsedCatalog.parse reader pricedBody "" = .ok parsed ∧
      parsed.exactPricing none "gpt-5" = some pricing ∧
      (∃ provider cost, Lists reader pricedBody provider "gpt-5" cost ∧
        Offers reader cost pricing) ∧
      modelPriceResolution (some ⟨.catalog, pricing⟩) = .resolved (.modelV2 record) ∧
      QuotesCost reader pricedCost record := by
  intro reader
  obtain ⟨parsed, hparse⟩ : ∃ parsed, ParsedCatalog.parse reader pricedBody "" = .ok parsed :=
    ⟨_, rfl⟩
  obtain ⟨pricing, hpricing, hoffers⟩ : ∃ pricing,
      parsed.exactPricing none "gpt-5" = some pricing ∧ Offers reader pricedCost pricing := by
    cases hparse
    exact ⟨_, rfl, rfl⟩
  obtain ⟨⟨provider, cost, -, hlists⟩, husable⟩ :=
    catalog_pricing_usable_iff hparse (.refl _) hpricing
  have hsmall : NumbersBelow (10 ^ 23) pricedCost.texts := by
    intro text htext number hnumber
    obtain rfl : text = "1.25" := by
      simpa [pricedCost, RawPrices.texts, Option.filter] using htext
    have hread : parseUnitPrice "1.25" = some (.lit 125000000 (Eq.refl true)) := by decide
    cases hnumber.symm.trans (decimalNumber_of_parseUnitPrice hread)
    show ((125000000 : ℤ) / 10 ^ 8 : ℚ) < 10 ^ 23
    norm_num
  obtain ⟨record, hresolved, hquotes⟩ := (husable pricedCost hoffers .catalog).mpr
    ⟨rfl, hsmall, fun blocks hblocks => by cases (show some [] = some blocks from hblocks); simp⟩
  exact ⟨parsed, pricing, record, hparse, hpricing, ⟨provider, cost, hlists⟩, hresolved, hquotes⟩

def emptyCostBody : String :=
  "\x7b\"openai\":\x7b\"models\":\x7b\"gpt-5\":\x7b\"cost\":\x7b\x7d\x7d\x7d\x7d\x7d"

/-- A model with a cost block without any price is offered, and the offer is then invalid. -/
theorem catalog_pricing_not_usable : ∃ parsed pricing,
    ParsedCatalog.parse (oneModelReader emptyCostBody {}) emptyCostBody "" = .ok parsed ∧
      parsed.exactPricing none "gpt-5" = some pricing ∧
        modelPriceResolution (some ⟨.catalog, pricing⟩) = .catalogEntryInvalid :=
  ⟨_, _, rfl, rfl, rfl⟩

/-! ## Context tiers -/

/-- The prices of the tier with the greatest threshold strictly below the context, the base prices
if no threshold is below it. -/
def SelectedFor (record : ModelInlinePriceRecordV2) (context : U64) (prices : ComponentPrices) :
    Prop :=
  (∃ tier ∈ record.tiers, tier.thresholdTokens.val < context.val ∧
    (∀ other ∈ record.tiers, other.thresholdTokens.val < context.val →
      other.thresholdTokens.val ≤ tier.thresholdTokens.val) ∧ prices = tier.prices) ∨
  (∀ tier ∈ record.tiers, context.val ≤ tier.thresholdTokens.val) ∧ prices = record.prices

/-- A record with increasing thresholds selects the right tier. -/
theorem selectedFor_pricesForContext {record : ModelInlinePriceRecordV2}
    (h : WellOrdered none record.tiers) (context : U64) :
    SelectedFor record context ((InlinePriceRecord.modelV2 record).pricesForContext
      (some context)) :=
  (InlinePriceRecord.selects_pricesForContext (.modelV2 record) (some context)).highest
    h.increasing

/-- A repeated threshold in the explicit encoding. -/
theorem parseModelPricingTiers_of_repeated {raw : String}
    {rawTiers : List RawTierCost} (hraw : presentText cost.tiers = some raw)
    (hread : reader.tierCosts raw = some rawTiers)
    (hrepeated : ¬(rawTiers.map fun tier => tier.tier.size).Nodup) :
    parseModelPricingTiers reader cost = none := by
  rw [Option.eq_none_iff_forall_ne_some]
  intro tiers htiers
  simp only [parseModelPricingTiers, hraw, hread, Option.bind_some] at htiers
  obtain ⟨hincreasing, unsorted, hmap, rfl⟩ := explicitTiers_eq_some.mp htiers
  have hsizes : rawTiers.map (fun tier => tier.tier.size) = unsorted.map (·.thresholdTokens) := by
    rw [← forall₂_eq_eq_eq, forall₂_map_left_iff, forall₂_map_right_iff]
    refine (forall₂_of_mapM hmap).imp fun rawTier tier htier => ?_
    obtain ⟨_, -, -, rfl⟩ := pricedTier_eq_some.mp (pricedTier_of_explicitTier htier)
    rfl
  refine hrepeated ?_
  rw [hsizes, ← ((sortByThreshold_perm unsorted).map _).nodup_iff, List.Nodup, pairwise_map]
  exact hincreasing.imp fun hlt heq => hlt.ne (congrArg IntRange.val heq)

/-- Context tiers select the right price: for every pricing that resolves and every context, and
because both parsers leave the thresholds strictly increasing. -/
theorem context_tier_selected :
    (∀ saved record, modelPriceResolution (some saved) = .resolved record → ∃ record₂,
      record = .modelV2 record₂ ∧
        componentPricesFromModelPricing saved.pricing = some record₂.prices ∧
        List.Forall₂ (fun tier tier' => tier.thresholdTokens = tier'.thresholdTokens ∧
          componentPricesFromModelTier tier = some tier'.prices) saved.pricing.tiers record₂.tiers ∧
        ∀ context, SelectedFor record₂ context (record.pricesForContext (some context))) ∧
    (∀ reader cost tiers, parseModelPricingTiers reader cost = some tiers → Increasing tiers) ∧
    ∀ (reader : CatalogReader) (cost : RawCost) raw rawTiers,
      presentText cost.tiers = some raw → reader.tierCosts raw = some rawTiers →
        ¬(rawTiers.map fun tier => tier.tier.size).Nodup →
          parseModelPricingTiers reader cost = none := by
  refine ⟨?_, fun _ _ _ htiers => (tiers_of_parse htiers).1, fun _ _ _ _ hraw hread hrepeated =>
    parseModelPricingTiers_of_repeated hraw hread hrepeated⟩
  intro saved record hrecord
  obtain ⟨_, _, hprices, htiers, rfl⟩ := modelPriceResolution_eq_resolved.mp hrecord
  refine ⟨_, rfl, hprices, forall₂_tiers htiers, fun context => ?_⟩
  apply selectedFor_pricesForContext
  exact wellOrdered_of_contextPriceTiers htiers

/-- The tier of an operator's price is selected above its threshold. -/
theorem context_tier_selected_tiered : ∃ record record₂,
    modelPriceResolution (some ⟨.manual, tieredPricing⟩) = .resolved record ∧
      record = .modelV2 record₂ ∧
        ∀ context, SelectedFor record₂ context (record.pricesForContext (some context)) := by
  obtain ⟨record, hrecord⟩ : ∃ record,
      modelPriceResolution (some ⟨.manual, tieredPricing⟩) = .resolved record := ⟨_, rfl⟩
  obtain ⟨record₂, heq, -, -, hselected⟩ := context_tier_selected.1 _ record hrecord
  exact ⟨record, record₂, hrecord, heq, hselected⟩

end ProviderCore.Usage
