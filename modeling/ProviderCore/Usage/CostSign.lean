import ProviderCore.Lib.Fold
import ProviderCore.Usage.Tracking

/-!
# Costs are not negative

A price is parsed digit by digit and every component is a count times a price, so no cost the
tracker computes from saved model prices is negative.  Both ways of settling a quota claim depend
on it: an amount is text without a sign.
-/

namespace ProviderCore.Usage

open IntRange

/-! ## Prices -/

theorem pushDigit_nonneg {scaled next : I128} {digit : ℕ} (hscaled : 0 ≤ scaled.val)
    (h : pushDigit scaled digit = some next) : 0 ≤ next.val := by
  obtain ⟨_, hshift, hadd⟩ := Option.bind_eq_some_iff.mp h
  have hshifted := tryFrom_eq_some.mp hshift
  have hnext := tryFrom_eq_some.mp hadd
  omega

theorem parseUnitPrice_nonneg {text : String} {price : UnitPrice}
    (h : parseUnitPrice text = some price) : 0 ≤ price.val := by
  simp only [parseUnitPrice] at h
  split at h
  · cases h
  split at h
  · cases h
  split at h
  · cases h
  split at h
  · cases h
  obtain ⟨scaled, hdigits, hzeros⟩ := Option.bind_eq_some_iff.mp h
  have hscaled : 0 ≤ scaled.val :=
    Fold.some_induction (fun scaled : I128 => 0 ≤ scaled.val)
      (fun _ _ _ hb hone => pushDigit_nonneg hb hone) (le_refl (0 : ℤ)) hdigits
  exact Fold.some_induction (fun scaled : I128 => 0 ≤ scaled.val)
    (fun _ _ _ hb hone => pushDigit_nonneg hb hone) hscaled hzeros

/-- A price that is not negative, if there is one. -/
def PriceNonneg (price : Option UnitPrice) : Prop := ∀ unit ∈ price, 0 ≤ unit.val

variable {price : Option UnitPrice}

theorem parseOptionalPrice_nonneg {text : Option String}
    (h : parseOptionalPrice text = some price) : PriceNonneg price := by
  cases text with
  | none =>
    cases h
    exact fun unit hunit => nomatch hunit
  | some =>
    obtain ⟨_, hparse, rfl⟩ := Option.map_eq_some_iff.mp h
    intro unit' hunit'
    cases hunit'
    exact parseUnitPrice_nonneg hparse

structure ComponentPrices.Nonneg (prices : ComponentPrices) : Prop where
  uncachedInput : PriceNonneg prices.uncachedInputPerMillion
  cacheRead : PriceNonneg prices.cacheReadPerMillion
  cacheWrite : PriceNonneg prices.cacheWritePerMillion
  output : PriceNonneg prices.outputPerMillion
  reasoning : PriceNonneg prices.reasoningPerMillion
  inputAudio : PriceNonneg prices.inputAudioPerMillion
  outputAudio : PriceNonneg prices.outputAudioPerMillion

theorem componentPricesFromModelPricing_nonneg {pricing : ProviderModelPricing}
    {prices : ComponentPrices} (h : componentPricesFromModelPricing pricing = some prices) :
    prices.Nonneg := by
  unfold componentPricesFromModelPricing at h
  split at h
  · cases h
  · simp only [Option.bind_eq_bind, Option.bind_eq_some_iff, Option.pure_def] at h
    obtain ⟨_, h₁, _, h₂, _, h₃, _, h₄, _, h₅, _, h₆, _, h₇, hprices⟩ := h
    cases hprices
    exact ⟨parseOptionalPrice_nonneg h₁, parseOptionalPrice_nonneg h₃,
      parseOptionalPrice_nonneg h₄, parseOptionalPrice_nonneg h₂, parseOptionalPrice_nonneg h₅,
      parseOptionalPrice_nonneg h₆, parseOptionalPrice_nonneg h₇⟩

theorem contextPriceTiers_nonneg {previous : Option U64}
    {saved : List ProviderModelPricingTier} {tiers : List ContextPriceTier}
    (h : contextPriceTiers previous saved = some tiers) : ∀ tier ∈ tiers, tier.prices.Nonneg := by
  induction saved generalizing previous tiers with
  | nil =>
    cases h
    simp
  | cons _ _ ih =>
    unfold contextPriceTiers at h
    split at h
    · cases h
    split at h
    · cases h
    simp only [Option.bind_eq_bind, Option.bind_eq_some_iff, Option.pure_def] at h
    obtain ⟨_, hprices, _, hrest, heq⟩ := h
    cases heq
    rw [List.forall_mem_cons]
    exact ⟨componentPricesFromModelPricing_nonneg hprices, ih hrest⟩

/-- No price of the record is negative, in whatever context. -/
def InlinePriceRecord.Nonneg (record : InlinePriceRecord) : Prop :=
  ∀ contextTokens, (record.pricesForContext contextTokens).Nonneg

/-- A resolution whose record, if it has one, has no negative price. -/
def PriceResolution.Nonneg (price : PriceResolution) : Prop :=
  ∀ record ∈ price.record, record.Nonneg

theorem modelPriceResolution_nonneg (pricing : Option ProviderModelPricingRecord) :
    (modelPriceResolution pricing).Nonneg := by
  intro record hrecord
  unfold modelPriceResolution at hrecord
  split at hrecord
  · cases hrecord
  split at hrecord
  · cases hrecord
  next prices hprices =>
    split at hrecord
    · cases hrecord
    next tiers htiers =>
      cases hrecord
      have hbase := componentPricesFromModelPricing_nonneg hprices
      intro contextTokens
      unfold InlinePriceRecord.pricesForContext
      split
      · exact hbase
      · simp only
        split
        · exact hbase
        · next contextTokens tier htier =>
            refine contextPriceTiers_nonneg htiers tier ?_
            exact (List.takeWhile_sublist _).subset (List.mem_of_getLast? htier)

/-- A price resolved for the reported model is the route's or a saved model's. -/
theorem resolveAttemptPrice_nonneg {routePrice : PriceResolution} (hroute : routePrice.Nonneg)
    (providerReportedModel pricingModelAlias : Option String)
    (providerPricing : Option ProviderModelPricingLookup)
    (catalogSnapshot : Option CatalogSnapshot) :
    (resolveAttemptPrice routePrice providerReportedModel pricingModelAlias providerPricing
      catalogSnapshot).1.Nonneg := by
  have halias : (resolvePricingAlias routePrice pricingModelAlias providerPricing
      catalogSnapshot).1.Nonneg := by
    unfold resolvePricingAlias
    split
    · exact hroute
    split
    · next pricing _ => exact modelPriceResolution_nonneg (some pricing)
    split
    · exact hroute
    · next pricing _ => exact modelPriceResolution_nonneg (some ⟨.catalog, pricing⟩)
  unfold resolveAttemptPrice
  split
  · exact hroute
  split
  · exact halias
  split
  · next pricing _ => exact modelPriceResolution_nonneg (some pricing)
  split
  · next pricing _ => exact modelPriceResolution_nonneg (some ⟨.catalog, pricing⟩)
  · exact halias

/-! ## Costs -/

def ComponentOutcome.Nonneg : ComponentOutcome → Prop
  | .priced atoms => 0 ≤ atoms.val
  | _ => True

theorem priceComponent_nonneg (quantity : TokenMetric)
    (hprice : PriceNonneg price) : (priceComponent quantity price).Nonneg := by
  unfold priceComponent
  split
  · next count _ =>
      split
      · exact le_refl (0 : ℤ)
      split
      · next unit =>
          split
          · next atoms hatoms =>
              have hval := tryFrom_eq_some.mp hatoms
              change 0 ≤ atoms.val
              rw [← hval]
              exact mul_nonneg count.le (hprice unit rfl)
          · trivial
      · trivial
  · split
    · trivial
    · split <;> trivial

theorem sumComponents_nonneg {outcomes : List ComponentOutcome} {total total' : UsdAtoms}
    {reasons reasons' : List CostReason} (houtcomes : ∀ outcome ∈ outcomes, outcome.Nonneg)
    (htotal : 0 ≤ total.val)
    (h : sumComponents (total, reasons) outcomes = some (total', reasons')) : 0 ≤ total'.val := by
  induction outcomes generalizing total reasons with
  | nil =>
    cases h
    exact htotal
  | cons outcome _ ih =>
    rw [List.forall_mem_cons] at houtcomes
    cases outcome with
    | priced atoms =>
      rcases hadd : total.checkedAdd atoms with _ | sum
      · simp [sumComponents, hadd] at h
      · have hsum := checkedAdd_eq_some.mp hadd
        have hatoms : 0 ≤ atoms.val := houtcomes.1
        simp only [sumComponents, hadd] at h
        exact ih houtcomes.2 (by omega) h
    | skip | incomplete => exact ih houtcomes.2 htotal h
    | overflow => cases h

theorem computeObservedCatalogCost_nonneg (observation : ProviderUsageObservation)
    (contract : UsageContractSnapshot) {price : PriceResolution} (hprice : price.Nonneg) :
    0 ≤ (computeObservedCatalogCost observation contract price).totalKnown.val := by
  cases price with
  | resolved record =>
    simp only [computeObservedCatalogCost, costOfRecord]
    split
    · exact le_refl (0 : ℤ)
    · next total reasons hsum =>
        refine sumComponents_nonneg ?_ (le_refl (0 : ℤ)) hsum
        have hprices := hprice record rfl observation.pricingContextTokens.knownValue
        simp only [pricedComponents, List.forall_mem_cons, List.not_mem_nil, false_implies,
          implies_true, and_true]
        exact ⟨priceComponent_nonneg _ hprices.uncachedInput,
          priceComponent_nonneg _ hprices.cacheRead, priceComponent_nonneg _ hprices.cacheWrite,
          priceComponent_nonneg _ hprices.output, priceComponent_nonneg _ hprices.reasoning,
          priceComponent_nonneg _ hprices.inputAudio,
          priceComponent_nonneg _ hprices.outputAudio⟩
  | _ => exact le_refl (0 : ℤ)

theorem attemptFacts_cost_nonneg (requestId : String) {attempt : AttemptTracker}
    (completedAtMs : ℤ) (hprice : attempt.spec.price.Nonneg) :
    0 ≤ (attemptFacts requestId attempt completedAtMs).cost.totalKnown.val := by
  simp only [attemptFacts, attemptCost]
  split
  · exact le_refl (0 : ℤ)
  · exact computeObservedCatalogCost_nonneg _ _ (resolveAttemptPrice_nonneg hprice _ _ _ _)

end ProviderCore.Usage
