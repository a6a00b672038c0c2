import Mathlib.Algebra.Order.BigOperators.Group.List
import ProviderCore.Usage.CostExact
import ProviderCore.Usage.CostSign

/-!
# The maximum cost of a text request

`compute_maximum_text_request_cost` of `provider-usage/src/cost.rs` bounds the cost of a request
before it is sent.  It prices every input token at the dearest rate that may apply to it.  That is
a bound as long as no token is charged twice and no cache that the contract rules out is read.
-/

namespace ProviderCore.Usage

open List IntRange Fold

/-! ## The computation -/

inductive MaximumCostError
  | invalidPricing
  | missingComponentPrice
  | unsupportedPricingMode
  | arithmeticOverflow
  | invalidAttemptLimit
deriving DecidableEq

def cacheReadCanApply (contract : UsageContractSnapshot) : Bool :=
  contract.cacheCapability ≠ .unsupported ∧
    contract.cacheEligibility ∉ [.notRequested, .notApplicable]

def requiredPrice (price : Option UnitPrice) : Except MaximumCostError UnitPrice :=
  match price with
  | some price => .ok price
  | none => .error .missingComponentPrice

def checkedAddComponent (current : UsdAtoms) (quantity : U64) (price : UnitPrice) :
    Except MaximumCostError UsdAtoms :=
  match (componentCostAtoms quantity price).bind current.checkedAdd with
  | some sum => .ok sum
  | none => .error .arithmeticOverflow

def dearer (price other : UnitPrice) : UnitPrice := if price.val ≤ other.val then other else price

/-- A rate that has to be paid as well, if it applies. -/
def raiseTo (applies : Bool) (price : Option UnitPrice) (rate : UnitPrice) :
    Except MaximumCostError UnitPrice :=
  if applies then (requiredPrice price).map (dearer rate) else .ok rate

section

variable (prices : ComponentPrices) (contract : UsageContractSnapshot)

/-- The dearest rate of an input token. -/
def inputRate : Except MaximumCostError UnitPrice := do
  let rate ← requiredPrice prices.uncachedInputPerMillion
  let rate ← raiseTo (cacheReadCanApply contract) prices.cacheReadPerMillion rate
  raiseTo contract.inclusion.cacheWriteApplicable prices.cacheWritePerMillion rate

def maximumInputCost (inputTokens : U64) (total : UsdAtoms) : Except MaximumCostError UsdAtoms :=
  if 0 < inputTokens.val then do
    checkedAddComponent total inputTokens (← inputRate prices contract)
  else pure total

def maximumOutputCost (maxOutputTokens : U64) (total : UsdAtoms) :
    Except MaximumCostError UsdAtoms :=
  if 0 < maxOutputTokens.val then do
    let total ← checkedAddComponent total maxOutputTokens (← requiredPrice prices.outputPerMillion)
    if contract.inclusion.reasoningApplicable && !contract.inclusion.reasoningIncludedInOutput then
      checkedAddComponent total maxOutputTokens (← requiredPrice prices.reasoningPerMillion)
    else pure total
  else pure total

def maximumCostForPrices (inputTokens maxOutputTokens : U64) :
    Except MaximumCostError UsdAtoms := do
  let total ← maximumInputCost prices contract inputTokens UsdAtoms.zero
  maximumOutputCost prices contract maxOutputTokens total

end

/-- The dearest of the prices, whichever tier the request turns out to be in. -/
def maximumOverTiers (contract : UsageContractSnapshot) (inputTokens maxOutputTokens : U64) :
    UsdAtoms → List ContextPriceTier → Except MaximumCostError UsdAtoms
  | maximum, [] => .ok maximum
  | maximum, tier :: tiers => do
      let candidate ← maximumCostForPrices tier.prices contract inputTokens maxOutputTokens
      maximumOverTiers contract inputTokens maxOutputTokens (dearer maximum candidate) tiers

def computeMaximumTextRequestCost (pricing : ProviderModelPricing)
    (contract : UsageContractSnapshot) (inputTokens maxOutputTokens : U64)
    (maximumAttempts : U32) : Except MaximumCostError UsdAtoms :=
  if maximumAttempts.val = 0 then .error .invalidAttemptLimit
  else if contract.pricingMode = .unknown then .error .unsupportedPricingMode
  else
    match componentPricesFromModelPricing pricing, contextPriceTiersFromModelPricing pricing with
    | some base, some tiers => do
        let maximum ← maximumCostForPrices base contract inputTokens maxOutputTokens
        let maximum ← maximumOverTiers contract inputTokens maxOutputTokens maximum tiers
        match (IntRange.tryFrom (maximum.val * maximumAttempts.val) : Option UsdAtoms) with
        | some total => .ok total
        | none => .error .arithmeticOverflow
    | _, _ => .error .invalidPricing

/-! ## What a computed maximum is made of -/

variable {pricing : ProviderModelPricing} {prices : ComponentPrices}
  {contract : UsageContractSnapshot} {fields : Option RawUsageFields}
  {inputTokens maxOutputTokens : U64} {current maximum total : UsdAtoms} {price : Option UnitPrice}

theorem requiredPrice_eq_ok {unit : UnitPrice} :
    requiredPrice price = .ok unit ↔ price = some unit := by
  cases price <;> simp [requiredPrice]

theorem checkedAddComponent_eq_ok {quantity : U64} {price : UnitPrice}
    (h : checkedAddComponent current quantity price = .ok total) :
    total.val = current.val + quantity.val * price.val := by
  unfold checkedAddComponent at h
  split at h
  · rename_i sum hsum
    cases h
    obtain ⟨_, hatoms, hadd⟩ := Option.bind_eq_some_iff.mp hsum
    have hproduct := tryFrom_eq_some.mp hatoms
    have hval := checkedAdd_eq_some.mp hadd
    rw [← hval, ← hproduct]
  · cases h

theorem le_dearer (price other : UnitPrice) :
    price.val ≤ (dearer price other).val ∧ other.val ≤ (dearer price other).val := by
  unfold dearer
  split <;> omega

/-- A price counts as zero where there is none. -/
def priceOf (price : Option UnitPrice) : ℤ := (price.map IntRange.val).getD 0

@[simp] theorem priceOf_some (unit : UnitPrice) : priceOf (some unit) = unit.val := rfl

theorem raiseTo_eq_ok {applies : Bool} {rate rate' : UnitPrice}
    (h : raiseTo applies price rate = .ok rate') :
    rate.val ≤ rate'.val ∧ (applies = true → priceOf price ≤ rate'.val) := by
  unfold raiseTo at h
  split at h
  · obtain ⟨_, hunit, rfl⟩ := map_eq_ok.mp h
    rw [requiredPrice_eq_ok] at hunit
    rw [hunit]
    exact (le_dearer _ _).imp_right fun hle _ => hle
  · rename_i hcannot
    cases h
    exact ⟨le_refl _, fun happlies => absurd happlies hcannot⟩

theorem inputRate_eq_ok {rate : UnitPrice} (h : inputRate prices contract = .ok rate) :
    priceOf prices.uncachedInputPerMillion ≤ rate.val ∧
      (cacheReadCanApply contract = true → priceOf prices.cacheReadPerMillion ≤ rate.val) ∧
      (contract.inclusion.cacheWriteApplicable = true →
        priceOf prices.cacheWritePerMillion ≤ rate.val) := by
  obtain ⟨_, huncached, h⟩ := bind_eq_ok.mp h
  obtain ⟨_, hread, hwrite⟩ := bind_eq_ok.mp h
  rw [requiredPrice_eq_ok] at huncached
  have hread := raiseTo_eq_ok hread
  have hwrite := raiseTo_eq_ok hwrite
  rw [huncached]
  exact ⟨hread.1.trans hwrite.1, fun hcan => (hread.2 hcan).trans hwrite.1, hwrite.2⟩

theorem maximumInputCost_eq_ok
    (h : maximumInputCost prices contract inputTokens current = .ok total) :
    (0 < inputTokens.val → ∃ rate, inputRate prices contract = .ok rate ∧
        total.val = current.val + inputTokens.val * rate.val) ∧
      (inputTokens.val = 0 → total = current) := by
  unfold maximumInputCost at h
  split at h
  · obtain ⟨rate, hrate, h⟩ := bind_eq_ok.mp h
    exact ⟨fun _ => ⟨rate, hrate, checkedAddComponent_eq_ok h⟩, fun hzero => by omega⟩
  · rename_i hzero
    cases h
    exact ⟨fun hpos => absurd hpos hzero, fun _ => rfl⟩

/-- Reasoning that is counted beside the output. -/
def separateReasoning (contract : UsageContractSnapshot) : Bool :=
  contract.inclusion.reasoningApplicable && !contract.inclusion.reasoningIncludedInOutput

theorem maximumOutputCost_eq_ok
    (h : maximumOutputCost prices contract maxOutputTokens current = .ok total) :
    total.val = current.val + maxOutputTokens.val * priceOf prices.outputPerMillion +
      if separateReasoning contract then maxOutputTokens.val * priceOf prices.reasoningPerMillion
      else 0 := by
  unfold maximumOutputCost at h
  split at h
  · obtain ⟨unit, hunit, h⟩ := bind_eq_ok.mp h
    obtain ⟨partial_, hpartial, h⟩ := bind_eq_ok.mp h
    rw [requiredPrice_eq_ok] at hunit
    have houtput := checkedAddComponent_eq_ok hpartial
    rw [hunit, priceOf_some]
    split at h
    · rename_i hseparate
      obtain ⟨_, hreasoning, h⟩ := bind_eq_ok.mp h
      rw [requiredPrice_eq_ok] at hreasoning
      have htotal := checkedAddComponent_eq_ok h
      rw [if_pos (show separateReasoning contract = true from hseparate), hreasoning, priceOf_some]
      omega
    · rename_i hinside
      cases h
      rw [if_neg (show ¬separateReasoning contract = true from hinside)]
      omega
  · cases h
    have hnone : maxOutputTokens.val = 0 := by
      have := maxOutputTokens.le
      omega
    simp [hnone]

/-! ## The bound -/

/-- A quantity counts as zero where it is not known. -/
def quantityOf (metric : TokenMetric) : ℤ := metric.value.getD 0

theorem CostComponent.exact_eq (component : CostComponent) :
    component.exact = quantityOf component.quantity * priceOf component.price := by
  unfold CostComponent.exact quantityOf priceOf
  rcases component.quantity.value with _ | n
  · simp
  · rcases component.price with _ | unit <;> simp

theorem quantityOf_nonneg (metric : TokenMetric) : 0 ≤ quantityOf metric := by
  unfold quantityOf TokenMetric.value
  rcases metric.knownValue with _ | v
  · exact le_refl 0
  · exact v.le

theorem priceOf_nonneg (h : PriceNonneg price) : 0 ≤ priceOf price := by
  rcases price with _ | unit
  · exact le_refl 0
  · exact h unit rfl

structure ProviderUsageObservation.TextOnly (observation : ProviderUsageObservation) : Prop where
  inputAudio : ∀ n, observation.inputAudioTokens.value = some n → n = 0
  outputAudio : ∀ n, observation.outputAudioTokens.value = some n → n = 0
  billable : observation.billable = []

/-- Usage of text alone, within the bounds that a maximum was computed for. -/
structure WithinBounds (contract : UsageContractSnapshot) (observation : ProviderUsageObservation)
    (inputTokens maxOutputTokens : U64) : Prop where
  effectiveInput : ∃ n, observation.effectiveInputTokens.value = some n ∧ n ≤ inputTokens.val
  output : ∀ n, observation.outputTokens.value = some n → n ≤ maxOutputTokens.val
  reasoning : contract.inclusion.reasoningIncludedInOutput = false →
    ∀ n, observation.reasoningTokens.value = some n → n ≤ maxOutputTokens.val
  textOnly : observation.TextOnly

/-- No input token is charged twice, and none is read from a cache that cannot apply. -/
def ChargedOnce (contract : UsageContractSnapshot) (observation : ProviderUsageObservation) :
    Prop :=
  ∀ effective, observation.effectiveInputTokens.value = some effective →
    quantityOf observation.uncachedInputTokens + quantityOf observation.cacheReadInputTokens +
        quantityOf observation.cacheWriteInputTokens ≤ effective ∧
      (cacheReadCanApply contract = true ∨ quantityOf observation.cacheReadInputTokens = 0)

variable {metric : TokenMetric}

theorem quantityOf_eq_zero (h : ∀ n, metric.value = some n → n = 0) : quantityOf metric = 0 := by
  unfold quantityOf
  rcases hvalue : metric.value with _ | n
  · rfl
  · exact h n hvalue

theorem quantityOf_le {bound : U64}
    (h : ∀ n, metric.value = some n → n ≤ bound.val) : quantityOf metric ≤ bound.val := by
  unfold quantityOf
  rcases hvalue : metric.value with _ | n
  · exact bound.le
  · exact h n hvalue

theorem exact_sum_eq (observation : ProviderUsageObservation) (contract : UsageContractSnapshot)
    (prices : ComponentPrices) :
    ((costComponents observation contract prices).map CostComponent.exact).sum =
      quantityOf observation.uncachedInputTokens * priceOf prices.uncachedInputPerMillion +
      quantityOf observation.cacheReadInputTokens * priceOf prices.cacheReadPerMillion +
      quantityOf observation.cacheWriteInputTokens * priceOf prices.cacheWritePerMillion +
      quantityOf observation.outputTokens * priceOf prices.outputPerMillion +
      (if contract.inclusion.reasoningIncludedInOutput then 0 else
        quantityOf observation.reasoningTokens * priceOf prices.reasoningPerMillion) +
      quantityOf observation.inputAudioTokens * priceOf prices.inputAudioPerMillion +
      quantityOf observation.outputAudioTokens * priceOf prices.outputAudioPerMillion := by
  simp only [costComponents, map_cons, map_nil, sum_cons, sum_nil, CostComponent.exact_eq]
  have hreasoning : quantityOf (if contract.inclusion.reasoningIncludedInOutput then .notApplicable
      else observation.reasoningTokens) * priceOf prices.reasoningPerMillion =
      if contract.inclusion.reasoningIncludedInOutput then 0 else
        quantityOf observation.reasoningTokens * priceOf prices.reasoningPerMillion := by
    split
    · simp [quantityOf, value_notApplicable]
    · rfl
  rw [hreasoning]
  ring

/-- What does not apply is not counted. -/
theorem quantityOf_cacheWrite (h : contract.inclusion.cacheWriteApplicable = false) :
    quantityOf (normalizeUsage fields contract).cacheWriteInputTokens = 0 := by
  refine quantityOf_eq_zero fun n hn => ?_
  rw [(normalizeUsage_exact fields contract).cacheWrite] at hn
  simp [exactCacheWrite, exactField, UsageContractSnapshot.cacheWritable, h] at hn

theorem quantityOf_reasoning (h : contract.inclusion.reasoningApplicable = false) :
    quantityOf (normalizeUsage fields contract).reasoningTokens = 0 := by
  refine quantityOf_eq_zero fun n hn => ?_
  rw [(normalizeUsage_exact fields contract).reasoning] at hn
  simp [exactField, h] at hn

section

variable (hnonneg : prices.Nonneg)
  (hmax : maximumCostForPrices prices contract inputTokens maxOutputTokens = .ok maximum)

include hnonneg hmax

/-- No tokens within the bounds cost more than the maximum, however they are split up. -/
theorem charges_le_maximum {u r w o g : ℤ} (hu : 0 ≤ u) (hr : 0 ≤ r) (hw : 0 ≤ w)
    (hinput : u + r + w ≤ inputTokens.val)
    (hread : cacheReadCanApply contract = true ∨ r = 0)
    (hwrite : contract.inclusion.cacheWriteApplicable = true ∨ w = 0)
    (hoLe : o ≤ maxOutputTokens.val) (hgLe : g ≤ maxOutputTokens.val)
    (hseparate : separateReasoning contract = true ∨ g = 0) :
    u * priceOf prices.uncachedInputPerMillion + r * priceOf prices.cacheReadPerMillion +
        w * priceOf prices.cacheWritePerMillion + o * priceOf prices.outputPerMillion +
        g * priceOf prices.reasoningPerMillion ≤ maximum.val := by
  obtain ⟨afterInput, hfirst, hsecond⟩ := bind_eq_ok.mp hmax
  have hin : u * priceOf prices.uncachedInputPerMillion + r * priceOf prices.cacheReadPerMillion +
      w * priceOf prices.cacheWritePerMillion ≤ afterInput.val := by
    obtain ⟨hpos, hzero⟩ := maximumInputCost_eq_ok hfirst
    rcases inputTokens.le.eq_or_lt with hnone | hsome
    · -- nothing may be read, and nothing is
      rw [hzero hnone.symm]
      obtain rfl : u = 0 := by omega
      obtain rfl : r = 0 := by omega
      obtain rfl : w = 0 := by omega
      simp [UsdAtoms.zero]
    · obtain ⟨rate, hrate, htotal⟩ := hpos hsome
      obtain ⟨huncached, hcacheRead, hcacheWrite⟩ := inputRate_eq_ok hrate
      have hone := mul_le_mul_of_nonneg_left huncached hu
      have htwo : r * priceOf prices.cacheReadPerMillion ≤ r * rate.val := by
        rcases hread with hcan | rfl
        · exact mul_le_mul_of_nonneg_left (hcacheRead hcan) hr
        · simp
      have hthree : w * priceOf prices.cacheWritePerMillion ≤ w * rate.val := by
        rcases hwrite with hcan | rfl
        · exact mul_le_mul_of_nonneg_left (hcacheWrite hcan) hw
        · simp
      have hall : (u + r + w) * rate.val ≤ inputTokens.val * rate.val :=
        mul_le_mul_of_nonneg_right hinput ((priceOf_nonneg hnonneg.uncachedInput).trans huncached)
      have hsplit : (u + r + w) * rate.val = u * rate.val + r * rate.val + w * rate.val := by ring
      simp only [UsdAtoms.zero, lit_val, zero_add] at htotal
      omega
  have hout := mul_le_mul_of_nonneg_right hoLe (priceOf_nonneg hnonneg.output)
  have hreasoning : g * priceOf prices.reasoningPerMillion ≤
      if separateReasoning contract then maxOutputTokens.val * priceOf prices.reasoningPerMillion
      else 0 := by
    split
    · exact mul_le_mul_of_nonneg_right hgLe (priceOf_nonneg hnonneg.reasoning)
    · next hinside => simp [hseparate.resolve_left hinside]
  have htotal := maximumOutputCost_eq_ok hsecond
  omega

theorem cost_le_maximum
    (hwithin : WithinBounds contract (normalizeUsage fields contract) inputTokens maxOutputTokens)
    (hcharged : ChargedOnce contract (normalizeUsage fields contract)) :
    ((costComponents (normalizeUsage fields contract) contract prices).map
      CostComponent.exact).sum ≤ maximum.val := by
  obtain ⟨effective, heffective, hle⟩ := hwithin.effectiveInput
  obtain ⟨hsum, hread⟩ := hcharged effective heffective
  have hwrite : contract.inclusion.cacheWriteApplicable = true ∨
      quantityOf (normalizeUsage fields contract).cacheWriteInputTokens = 0 :=
    (Bool.eq_false_or_eq_true _).imp_right quantityOf_cacheWrite
  have hcost (g : ℤ) := charges_le_maximum (g := g) hnonneg hmax (quantityOf_nonneg _)
    (quantityOf_nonneg _) (quantityOf_nonneg _) (hsum.trans hle) hread hwrite
    (quantityOf_le hwithin.output)
  rw [exact_sum_eq, quantityOf_eq_zero hwithin.textOnly.inputAudio,
    quantityOf_eq_zero hwithin.textOnly.outputAudio]
  rcases hinside : contract.inclusion.reasoningIncludedInOutput with _ | _
  · have hseparate : separateReasoning contract = true ∨
        quantityOf (normalizeUsage fields contract).reasoningTokens = 0 := by
      rw [separateReasoning, hinside, Bool.not_false, Bool.and_true]
      exact (Bool.eq_false_or_eq_true _).imp_right quantityOf_reasoning
    simpa using hcost _ (quantityOf_le (hwithin.reasoning hinside)) hseparate
  · simpa using hcost 0 maxOutputTokens.le (.inr rfl)

theorem maximumCostForPrices_nonneg : 0 ≤ maximum.val := by
  simpa using charges_le_maximum (u := 0) (r := 0) (w := 0) (o := 0) (g := 0) hnonneg hmax
    (le_refl 0) (le_refl 0) (le_refl 0) inputTokens.le (.inr rfl) (.inr rfl) maxOutputTokens.le
    maxOutputTokens.le (.inr rfl)

end

/-! ## Whole requests -/

/-- The maximum is at least that of every tier. -/
theorem maximumOverTiers_eq_ok {maximum' : UsdAtoms} {tiers : List ContextPriceTier}
    (h : maximumOverTiers contract inputTokens maxOutputTokens maximum tiers = .ok maximum') :
    maximum.val ≤ maximum'.val ∧ ∀ tier ∈ tiers, ∃ candidate,
      maximumCostForPrices tier.prices contract inputTokens maxOutputTokens = .ok candidate ∧
        candidate.val ≤ maximum'.val := by
  induction tiers generalizing maximum with
  | nil =>
    cases h
    exact ⟨le_refl _, by simp⟩
  | cons _ _ ih =>
    obtain ⟨candidate, hcandidate, h⟩ := bind_eq_ok.mp h
    obtain ⟨hfirst, hrest⟩ := ih h
    obtain ⟨hleft, hright⟩ := le_dearer _ _
    refine ⟨hleft.trans hfirst, ?_⟩
    rw [forall_mem_cons]
    exact ⟨⟨candidate, hcandidate, hright.trans hfirst⟩, hrest⟩

/-- The cost that a report is given under a saved model price. -/
def reportedCost (source : ProviderModelPricingSource) (pricing : ProviderModelPricing)
    (contract : UsageContractSnapshot) (fields : Option RawUsageFields) : ℤ :=
  (computeObservedCatalogCost (normalizeUsage fields contract) contract
    (modelPriceResolution (some ⟨source, pricing⟩))).totalKnown.val

variable {source : ProviderModelPricingSource}

section

variable {base : ComponentPrices} {tiers : List ContextPriceTier}
  (hbase : componentPricesFromModelPricing pricing = some base)
  (htiers : contextPriceTiersFromModelPricing pricing = some tiers)

include hbase htiers

theorem modelPriceResolution_eq :
    modelPriceResolution (some ⟨source, pricing⟩) =
      .resolved (.modelV2 ⟨.lit 2 rfl, source, base, tiers⟩) := by
  simp [modelPriceResolution, hbase, htiers]

theorem reportedCost_le {first : UsdAtoms}
    (hfirst : maximumCostForPrices base contract inputTokens maxOutputTokens = .ok first)
    (hmax : maximumOverTiers contract inputTokens maxOutputTokens first tiers = .ok maximum)
    (hwithin : WithinBounds contract (normalizeUsage fields contract) inputTokens maxOutputTokens)
    (hcharged : ChargedOnce contract (normalizeUsage fields contract)) :
    reportedCost source pricing contract fields ≤ maximum.val := by
  obtain ⟨hle, hall⟩ := maximumOverTiers_eq_ok hmax
  have hnonneg := componentPricesFromModelPricing_nonneg hbase
  unfold reportedCost
  rw [modelPriceResolution_eq hbase htiers]
  rcases cost_cases (normalizeUsage fields contract) contract
    (.modelV2 ⟨.lit 2 rfl, source, base, tiers⟩) with ⟨-, hcost⟩ | ⟨-, hcost⟩
  · rw [hcost]
    exact (maximumCostForPrices_nonneg hnonneg hfirst).trans hle
  · rw [hcost, recordComponents]
    rcases (InlinePriceRecord.selects_pricesForContext _ _).mem with
      hprices | ⟨tier, htier, hprices⟩
    · rw [hprices]
      exact (cost_le_maximum hnonneg hfirst hwithin hcharged).trans hle
    · obtain ⟨_, hcandidate, hcandidateLe⟩ := hall tier htier
      rw [hprices]
      exact (cost_le_maximum (contextPriceTiers_nonneg htiers tier htier) hcandidate hwithin
        hcharged).trans hcandidateLe

end

theorem computeMaximum_eq_ok {maximumAttempts : U32}
    (h : computeMaximumTextRequestCost pricing contract inputTokens maxOutputTokens
      maximumAttempts = .ok total) :
    contract.pricingMode ≠ .unknown ∧ ∃ base tiers first maximum,
      componentPricesFromModelPricing pricing = some base ∧
      contextPriceTiersFromModelPricing pricing = some tiers ∧
      maximumCostForPrices base contract inputTokens maxOutputTokens = .ok first ∧
      maximumOverTiers contract inputTokens maxOutputTokens first tiers = .ok maximum ∧
      total.val = maximum.val * maximumAttempts.val := by
  unfold computeMaximumTextRequestCost at h
  split at h
  · cases h
  split at h
  · cases h
  rename_i hmode
  split at h
  · rename_i base tiers hbase htiers
    obtain ⟨first, hfirst, h⟩ := bind_eq_ok.mp h
    obtain ⟨maximum, hmaximum, h⟩ := bind_eq_ok.mp h
    split at h
    · rename_i product hproduct
      cases h
      exact ⟨hmode, base, tiers, first, maximum, hbase, htiers, hfirst, hmaximum,
        (tryFrom_eq_some.mp hproduct).symm⟩
    · cases h
  · cases h

/-- Requests within the bounds cost at most the maximum, if no token is charged twice. -/
theorem total_le_maximum {maximumAttempts : U32} {attempts : List (Option RawUsageFields)}
    (hmax : computeMaximumTextRequestCost pricing contract inputTokens maxOutputTokens
      maximumAttempts = .ok maximum) (hlength : attempts.length ≤ maximumAttempts.val)
    (hattempts : ∀ fields ∈ attempts,
      WithinBounds contract (normalizeUsage fields contract) inputTokens maxOutputTokens ∧
        ChargedOnce contract (normalizeUsage fields contract)) :
    (attempts.map (reportedCost source pricing contract)).sum ≤ maximum.val := by
  obtain ⟨-, _, _, _, each, hbase, htiers, hfirst, heach, htotal⟩ :=
    computeMaximum_eq_ok hmax
  have hnonneg : 0 ≤ each.val :=
    (maximumCostForPrices_nonneg (componentPricesFromModelPricing_nonneg hbase) hfirst).trans
      (maximumOverTiers_eq_ok heach).1
  have hall : ∀ cost ∈ attempts.map (reportedCost source pricing contract), cost ≤ each.val := by
    rw [forall_mem_map]
    intro fields hfields
    obtain ⟨hwithin, hcharged⟩ := hattempts fields hfields
    exact reportedCost_le hbase htiers hfirst heach hwithin hcharged
  calc (attempts.map (reportedCost source pricing contract)).sum
      ≤ each.val * attempts.length := by simpa [mul_comm] using List.sum_le_card_nsmul _ _ hall
    _ ≤ each.val * maximumAttempts.val := mul_le_mul_of_nonneg_left hlength hnonneg
    _ = maximum.val := htotal.symm

/-! ## Prices under which a token too many shows -/

/-- A price for the input and one for cached input; the rest is free. -/
def probePricing (input read : String) : ProviderModelPricing :=
  { input := some input, output := some "0", cacheRead := some read, cacheWrite := some input,
    reasoning := some "0" }

def free : UnitPrice := .lit 0 (Eq.refl true)

def oneDollar : UnitPrice := .lit 100000000 (Eq.refl true)

def probePrices (input read : UnitPrice) : ComponentPrices :=
  { uncachedInputPerMillion := some input, outputPerMillion := some free,
    cacheReadPerMillion := some read, cacheWritePerMillion := some input,
    reasoningPerMillion := some free }

def unbounded : U64 := .lit 18446744073709551615 (Eq.refl true)

section

variable {input read : UnitPrice}

theorem dearer_self (price : UnitPrice) : dearer price price = price := by
  unfold dearer
  split <;> rfl

theorem inputRate_probe (hread : cacheReadCanApply contract = true → read = input) :
    inputRate (probePrices input read) contract = .ok input := by
  have hfirst : raiseTo (cacheReadCanApply contract) (some read) input = .ok input := by
    rcases hcan : cacheReadCanApply contract with _ | _
    · rfl
    · rw [hread hcan]
      exact congrArg Except.ok (dearer_self input)
  have hsecond : raiseTo contract.inclusion.cacheWriteApplicable (some input) input =
      .ok input := by
    rcases contract.inclusion.cacheWriteApplicable with _ | _
    · rfl
    · exact congrArg Except.ok (dearer_self input)
  show (raiseTo (cacheReadCanApply contract) (some read) input).bind _ = _
  rw [hfirst]
  exact hsecond

theorem checkedAddComponent_of_fits {quantity : U64} {price : UnitPrice}
    (hproduct : InI128 (quantity.val * price.val))
    (htotal : total.val = current.val + quantity.val * price.val) :
    checkedAddComponent current quantity price = .ok total := by
  have hatoms : componentCostAtoms quantity price =
      some ⟨quantity.val * price.val, hproduct.1, hproduct.2⟩ := tryFrom_eq_some.mpr rfl
  have hadd : current.checkedAdd ⟨quantity.val * price.val, hproduct.1, hproduct.2⟩ = some total :=
    checkedAdd_eq_some.mpr htotal.symm
  simp [checkedAddComponent, hatoms, hadd]

theorem maximumOutputCost_probe (total : UsdAtoms) :
    maximumOutputCost (probePrices input read) contract unbounded total = .ok total := by
  have hfree : checkedAddComponent total unbounded free = .ok total :=
    checkedAddComponent_of_fits ⟨by decide, by decide⟩ (by simp [free])
  have hreasoning : (if contract.inclusion.reasoningApplicable &&
      !contract.inclusion.reasoningIncludedInOutput then
        checkedAddComponent total unbounded free else .ok total) = .ok total := by
    split
    · exact hfree
    · rfl
  show (checkedAddComponent total unbounded free).bind _ = _
  rw [hfree]
  exact hreasoning

variable (hbase : componentPricesFromModelPricing pricing = some (probePrices input read))
  (htiers : contextPriceTiersFromModelPricing pricing = some [])

include hbase htiers

theorem computeMaximum_probe (hmode : contract.pricingMode ≠ .unknown)
    (hread : cacheReadCanApply contract = true → read = input)
    (hmaximum : maximum.val = inputTokens.val * input.val) :
    computeMaximumTextRequestCost pricing contract inputTokens unbounded (.lit 1 rfl) =
      .ok maximum := by
  have hfits : InI128 (inputTokens.val * input.val) := hmaximum ▸ inI128_val maximum
  have hinput : maximumInputCost (probePrices input read) contract inputTokens UsdAtoms.zero =
      .ok maximum := by
    unfold maximumInputCost
    split
    · show (inputRate (probePrices input read) contract).bind _ = _
      rw [inputRate_probe hread]
      exact checkedAddComponent_of_fits hfits (by simpa [UsdAtoms.zero] using hmaximum)
    · have hzero : maximum.val = 0 := by
        have := inputTokens.le
        rw [hmaximum, show inputTokens.val = 0 by omega, zero_mul]
      exact congrArg Except.ok (IntRange.ext hzero.symm)
  have hfirst : maximumCostForPrices (probePrices input read) contract inputTokens unbounded =
      .ok maximum := by
    show (maximumInputCost (probePrices input read) contract inputTokens UsdAtoms.zero).bind _ = _
    rw [hinput]
    exact maximumOutputCost_probe maximum
  unfold computeMaximumTextRequestCost
  rw [if_neg (by simp), if_neg hmode, hbase, htiers]
  show (maximumCostForPrices (probePrices input read) contract inputTokens unbounded).bind _ = _
  rw [hfirst]
  simp [Except.bind, bind, maximumOverTiers]

omit hbase htiers in
/-- Terms that are small enough to be summed up. -/
theorem sumFits_of_le (bound : ℤ) {total : ℤ} {terms : List ℤ} (htotal : 0 ≤ total)
    (hterms : ∀ n ∈ terms, 0 ≤ n ∧ n ≤ bound)
    (hsmall : total + bound * terms.length < 170141183460469231731687303715884105728) :
    SumFits total terms := by
  induction terms generalizing total with
  | nil => trivial
  | cons _ terms ih =>
    rw [forall_mem_cons] at hterms
    obtain ⟨⟨hn, hle⟩, hrest⟩ := hterms
    rw [length_cons] at hsmall
    push_cast at hsmall
    have hbound : 0 ≤ bound * (terms.length : ℤ) :=
      mul_nonneg (hn.trans hle) (Int.natCast_nonneg _)
    have hexpand : bound * ((terms.length : ℤ) + 1) = bound * terms.length + bound := by ring
    refine ⟨⟨by omega, by omega⟩, ⟨by omega, by omega⟩, ih (by omega) hrest (by omega)⟩

omit hbase htiers in
theorem quantityOf_lt (metric : TokenMetric) : quantityOf metric < 18446744073709551616 := by
  unfold quantityOf TokenMetric.value
  rcases metric.knownValue with _ | v
  · decide
  · exact v.lt

theorem reportedCost_probe (hinput : 0 ≤ input.val ∧ input.val ≤ 100000000)
    (hread : 0 ≤ read.val ∧ read.val ≤ 100000000) :
    reportedCost source pricing contract fields =
      quantityOf (normalizeUsage fields contract).uncachedInputTokens * input.val +
        quantityOf (normalizeUsage fields contract).cacheReadInputTokens * read.val +
        quantityOf (normalizeUsage fields contract).cacheWriteInputTokens * input.val := by
  have hcomponents : recordComponents (normalizeUsage fields contract) contract
      (.modelV2 ⟨.lit 2 rfl, source, probePrices input read, []⟩) =
      costComponents (normalizeUsage fields contract) contract (probePrices input read) := by
    unfold recordComponents InlinePriceRecord.pricesForContext
    split <;> rfl
  have hterm (metric : TokenMetric) {price : ℤ} (hprice : 0 ≤ price ∧ price ≤ 100000000) :
      0 ≤ quantityOf metric * price ∧
        quantityOf metric * price ≤ 18446744073709551616 * 100000000 := by
    have hq := quantityOf_nonneg metric
    have hlt := quantityOf_lt metric
    exact ⟨mul_nonneg hq hprice.1, mul_le_mul hlt.le hprice.2 hprice.1 (by decide)⟩
  have hfits : SumFits 0 ((costComponents (normalizeUsage fields contract) contract
      (probePrices input read)).map CostComponent.exact) := by
    refine sumFits_of_le (18446744073709551616 * 100000000) (le_refl 0) ?_
      (by simp [costComponents])
    have hnone : 0 ≤ (0 : ℤ) ∧ (0 : ℤ) ≤ 100000000 := by decide
    simp only [costComponents, map_cons, map_nil, forall_mem_cons, not_mem_nil,
      false_implies, implies_true, and_true, CostComponent.exact_eq]
    exact ⟨hterm _ hinput, hterm _ hread, hterm _ hinput, hterm _ hnone, hterm _ hnone,
      hterm _ hnone, hterm _ hnone⟩
  unfold reportedCost
  rw [modelPriceResolution_eq hbase htiers]
  rcases cost_cases (normalizeUsage fields contract) contract
    (.modelV2 ⟨.lit 2 rfl, source, probePrices input read, []⟩) with ⟨hover, -⟩ | ⟨-, hcost⟩
  · rw [hcomponents] at hover
    exact absurd hfits hover
  · rw [hcost, hcomponents, exact_sum_eq]
    simp [probePrices, priceOf, free]

end

/-- The maximum computed before a request bounds what its attempts cost, for every price and every
number of attempts, if and only if none of their reports charges an input token twice or reads
from a cache that the contract rules out. -/
theorem maximum_cost_bounds_iff (contract : UsageContractSnapshot)
    (usages : Set (Option RawUsageFields)) :
    (∀ source pricing inputTokens maxOutputTokens maximumAttempts maximum,
      computeMaximumTextRequestCost pricing contract inputTokens maxOutputTokens
        maximumAttempts = .ok maximum →
      ∀ attempts : List (Option RawUsageFields), attempts.length ≤ maximumAttempts.val →
        (∀ fields ∈ attempts, fields ∈ usages ∧
          WithinBounds contract (normalizeUsage fields contract) inputTokens maxOutputTokens) →
        (attempts.map (reportedCost source pricing contract)).sum ≤ maximum.val) ↔
    (contract.pricingMode = .unknown ∨
      ∀ fields ∈ usages, (normalizeUsage fields contract).TextOnly →
        ChargedOnce contract (normalizeUsage fields contract)) := by
  constructor
  · intro hbound
    by_cases hmode : contract.pricingMode = .unknown
    · exact .inl hmode
    refine .inr fun fields hfields htext effective heffective => ?_
    obtain ⟨inputTokens, -, rfl⟩ := TokenMetric.value_eq_some.mp heffective
    have hwithin :
        WithinBounds contract (normalizeUsage fields contract) inputTokens unbounded := by
      have hle (metric : TokenMetric) (n : ℤ) (hn : metric.value = some n) :
          n ≤ unbounded.val := by
        obtain ⟨v, -, rfl⟩ := TokenMetric.value_eq_some.mp hn
        exact Int.le_of_lt_add_one v.lt
      exact ⟨⟨_, heffective, le_refl _⟩, hle _, fun _ => hle _, htext⟩
    -- one attempt with this report, under a price that makes it show
    have hprobe (pricing : ProviderModelPricing) (input read : UnitPrice)
        (hread : cacheReadCanApply contract = true → read = input)
        (hbase : componentPricesFromModelPricing pricing = some (probePrices input read))
        (htiers : contextPriceTiersFromModelPricing pricing = some [])
        (hinput : 0 ≤ input.val ∧ input.val ≤ 100000000)
        (hcached : 0 ≤ read.val ∧ read.val ≤ 100000000) :
        quantityOf (normalizeUsage fields contract).uncachedInputTokens * input.val +
          quantityOf (normalizeUsage fields contract).cacheReadInputTokens * read.val +
          quantityOf (normalizeUsage fields contract).cacheWriteInputTokens * input.val ≤
            inputTokens.val * input.val := by
      have hlt := inputTokens.lt
      have hproduct : inputTokens.val * input.val ≤ 18446744073709551616 * 100000000 :=
        mul_le_mul hlt.le hinput.2 hinput.1 (by decide)
      have hnonneg := mul_nonneg inputTokens.le hinput.1
      have hcost := hbound .manual pricing inputTokens unbounded (.lit 1 rfl)
        ⟨inputTokens.val * input.val, by omega, by omega⟩
        (computeMaximum_probe hbase htiers hmode hread rfl) [fields] (by simp)
        (by simpa using ⟨hfields, hwithin⟩)
      simpa [reportedCost_probe hbase htiers hinput hcached] using hcost
    constructor
    · have hall := hprobe (probePricing "1" "1") oneDollar oneDollar (fun _ => rfl) rfl rfl
        (by decide) (by decide)
      simp only [oneDollar, lit_val] at hall
      omega
    · by_contra hboth
      push Not at hboth
      obtain ⟨hcannot, hused⟩ := hboth
      have hall := hprobe (probePricing "0" "1") free oneDollar
        (fun hcan => absurd hcan hcannot) rfl rfl (by decide) (by decide)
      have hnonneg := quantityOf_nonneg (normalizeUsage fields contract).cacheReadInputTokens
      simp only [oneDollar, free, lit_val] at hall
      omega
  · rintro (hmode | hcharged) source pricing inputTokens maxOutputTokens maximumAttempts maximum
      hmax attempts hlength hattempts
    · exact absurd hmode (computeMaximum_eq_ok hmax).1
    · refine total_le_maximum hmax hlength fun fields hfields => ?_
      obtain ⟨husage, hwithin⟩ := hattempts fields hfields
      exact ⟨hwithin, hcharged fields husage hwithin.textOnly⟩

/-- A report that claims more cached tokens than its whole input has costs more than the maximum. -/
theorem maximum_cost_exceeded :
    let contract := sampleContract
      { sampleInclusion with inputIncludesCache := true, cacheWriteApplicable := false }
    let pricing : ProviderModelPricing :=
      { input := some "1", output := some "1", cacheRead := some "1" }
    let fields : RawUsageFields :=
      { input := some (.lit 1 rfl), cacheRead := some (.lit 1000 rfl), output := some (.lit 1 rfl) }
    let one : U64 := .lit 1 rfl
    computeMaximumTextRequestCost pricing contract one one (.lit 1 rfl) =
        .ok (.lit 200000000 rfl) ∧
      WithinBounds contract (normalizeUsage (some fields) contract) one one ∧
      reportedCost .manual pricing contract (some fields) = 100100000000 := by
  intro contract pricing fields one
  refine ⟨rfl, ⟨⟨1, rfl, le_refl _⟩, ?_, by decide, ⟨?_, ?_, rfl⟩⟩, rfl⟩
  · rintro _ ⟨⟩
    exact le_refl (1 : ℤ)
  · rintro _ ⟨⟩
  · rintro _ ⟨⟩

end ProviderCore.Usage
