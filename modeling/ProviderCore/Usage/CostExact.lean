import ProviderCore.Usage.NormalizeSound

/-!
# What a cost is made of

A cost is the exact sum of seven products, unless one of them or a partial sum leaves 128 bits.  It
is complete exactly when nothing that has a price is unknown, nothing that was used lacks a price
and the report gives no other reason for doubt.
-/

namespace ProviderCore.Usage

open List IntRange

/-! ## Components -/

/-- What a cost counts: a quantity, its price, and whether the contract knows such a quantity. -/
structure CostComponent where
  quantity : TokenMetric
  price : Option UnitPrice
  applicable : Bool

/-- The seven components of a cost.  Reasoning inside the output is none of its own. -/
def costComponents (observation : ProviderUsageObservation) (contract : UsageContractSnapshot)
    (prices : ComponentPrices) : List CostComponent :=
  let inclusion := contract.inclusion
  [ ⟨observation.uncachedInputTokens, prices.uncachedInputPerMillion, true⟩,
    ⟨observation.cacheReadInputTokens, prices.cacheReadPerMillion, contract.cacheReadable⟩,
    ⟨observation.cacheWriteInputTokens, prices.cacheWritePerMillion, contract.cacheWritable⟩,
    ⟨observation.outputTokens, prices.outputPerMillion, true⟩,
    ⟨if inclusion.reasoningIncludedInOutput then .notApplicable else observation.reasoningTokens,
      prices.reasoningPerMillion,
      inclusion.reasoningApplicable && !inclusion.reasoningIncludedInOutput⟩,
    ⟨observation.inputAudioTokens, prices.inputAudioPerMillion, inclusion.audioApplicable⟩,
    ⟨observation.outputAudioTokens, prices.outputAudioPerMillion, inclusion.audioApplicable⟩ ]

def CostComponent.outcome (component : CostComponent) : ComponentOutcome :=
  priceComponent component.quantity component.price

theorem pricedComponents_eq (observation : ProviderUsageObservation)
    (contract : UsageContractSnapshot) (prices : ComponentPrices) :
    pricedComponents observation contract prices =
      (costComponents observation contract prices).map CostComponent.outcome := rfl

/-- The cost of a component without any bound: nothing if its quantity or its price is missing. -/
def CostComponent.exact (component : CostComponent) : ℤ :=
  match component.quantity.value, component.price with
  | some quantity, some price => quantity * price.val
  | _, _ => 0

/-- An integer of 128 bits. -/
def InI128 (n : ℤ) : Prop :=
  -170141183460469231731687303715884105728 ≤ n ∧ n < 170141183460469231731687303715884105728

/-- Every product and every partial sum has 128 bits. -/
def SumFits (total : ℤ) : List ℤ → Prop
  | [] => True
  | n :: rest => InI128 n ∧ InI128 (total + n) ∧ SumFits (total + n) rest

/-- A component that is neither unknown while it has a price, nor used while it has none. -/
def CostComponent.Settled (component : CostComponent) : Prop :=
  (component.price.isSome = true →
    component.quantity = .notApplicable ∨ ∃ n, component.quantity.value = some n) ∧
  ∀ n, component.quantity.value = some n → 0 < n → component.price.isSome = true

/-- What a component's outcome says about its exact cost. -/
inductive CostComponent.Outcome (component : CostComponent) : ComponentOutcome → Prop
  | priced {atoms : UsdAtoms} (hatoms : atoms.val = component.exact)
      (hsettled : component.Settled) : Outcome component (.priced atoms)
  | skip (hzero : component.exact = 0) (hsettled : component.Settled) : Outcome component .skip
  | incomplete {reason : CostReason} (hzero : component.exact = 0)
      (hunsettled : ¬component.Settled) : Outcome component (.incomplete reason)
  | overflow (hlarge : ¬InI128 component.exact) : Outcome component .overflow

theorem CostComponent.outcome_spec (component : CostComponent) :
    component.Outcome component.outcome := by
  obtain ⟨quantity, price, applicable⟩ := component
  unfold CostComponent.outcome priceComponent
  rcases hknown : quantity.knownValue with _ | count
  · -- nothing is known of the quantity
    have hvalue : quantity.value = none := TokenMetric.value_eq_none.mpr hknown
    have hzero : CostComponent.exact ⟨quantity, price, applicable⟩ = 0 := by
      simp [CostComponent.exact, hvalue]
    have hunused (n : ℤ) : quantity.value = some n → 0 < n → price.isSome = true := by
      simp [hvalue]
    by_cases happlies : quantity = .notApplicable
    · subst happlies
      exact .skip hzero ⟨fun _ => .inl rfl, hunused⟩
    · rcases price with _ | unit
      · have hskip : CostComponent.Outcome ⟨quantity, none, applicable⟩ .skip :=
          .skip hzero ⟨by simp, hunused⟩
        cases quantity <;> exact hskip
      · have hincomplete : CostComponent.Outcome ⟨quantity, some unit, applicable⟩
            (.incomplete .usageComponentMissing) :=
          .incomplete hzero fun hsettled => by simpa [happlies, hvalue] using hsettled.1 rfl
        cases quantity with
        | notApplicable => exact absurd rfl happlies
        | _ => exact hincomplete
  · have hvalue : quantity.value = some count.val := by simp [TokenMetric.value, hknown]
    dsimp only
    split
    · rename_i hcount
      refine .priced ?_ ⟨fun _ => .inr ⟨_, hvalue⟩, ?_⟩
      · cases price <;> simp [CostComponent.exact, hvalue, hcount, UsdAtoms.zero]
      · intro n hn hpos
        rw [hvalue] at hn
        cases hn
        omega
    · rename_i hcount
      have hpos : 0 < count.val := lt_of_le_of_ne count.le (Ne.symm hcount)
      rcases price with _ | unit
      · refine .incomplete (by simp [CostComponent.exact, hvalue]) fun hsettled => ?_
        simpa using hsettled.2 _ hvalue hpos
      · have hexact : CostComponent.exact ⟨quantity, some unit, applicable⟩ =
            count.val * unit.val := by simp [CostComponent.exact, hvalue]
        dsimp only
        rcases hatoms : componentCostAtoms count unit with _ | atoms
        · refine .overflow ?_
          rw [hexact, InI128]
          have hnone := tryFrom_eq_none.mp hatoms
          omega
        · refine .priced ?_ ⟨fun _ => .inr ⟨_, hvalue⟩, fun _ _ _ => rfl⟩
          rw [hexact]
          exact (tryFrom_eq_some.mp hatoms).symm

/-! ## Sums -/

theorem inI128_val (total : UsdAtoms) : InI128 total.val := ⟨total.le, total.lt⟩

/-- What the loop over the components gives, against the exact costs. -/
structure SumsTo (total total' : UsdAtoms) (reasons reasons' : List CostReason)
    (components : List CostComponent) : Prop where
  fits : SumFits total.val (components.map CostComponent.exact)
  total : total'.val = total.val + (components.map CostComponent.exact).sum
  reasons : reasons' = [] ↔ reasons = [] ∧ ∀ component ∈ components, component.Settled

theorem pushUnique_ne_nil {α : Type} [DecidableEq α] (l : List α) (a : α) : pushUnique l a ≠ [] :=
  ne_nil_of_mem (mem_pushUnique.mpr (.inr rfl))

variable {components : List CostComponent} {reasons reasons' : List CostReason}

variable {total total' : UsdAtoms}

/-- A component that adds nothing to the sum. -/
theorem SumsTo.cons_zero {component : CostComponent}
    (h : SumsTo total total' reasons reasons' components) (hzero : component.exact = 0) :
    SumFits total.val ((component :: components).map CostComponent.exact) ∧
      total'.val = total.val + ((component :: components).map CostComponent.exact).sum := by
  rw [map_cons, hzero, sum_cons, zero_add, SumFits, add_zero]
  exact ⟨⟨⟨by decide, by decide⟩, inI128_val total, h.fits⟩, h.total⟩

theorem sumComponents_eq_some
    (h : sumComponents (total, reasons) (components.map CostComponent.outcome) =
      some (total', reasons')) : SumsTo total total' reasons reasons' components := by
  induction components generalizing total reasons with
  | nil =>
    cases h
    exact ⟨trivial, by simp, by simp⟩
  | cons component _ ih =>
    rw [map_cons] at h
    have hspec := component.outcome_spec
    generalize component.outcome = outcome at h hspec
    cases hspec with
    | priced hatoms hsettled =>
      rename_i atoms
      rcases hadd : total.checkedAdd atoms with _ | sum
      · simp [sumComponents, hadd] at h
      · have hsum := checkedAdd_eq_some.mp hadd
        simp only [sumComponents, hadd] at h
        have hrest := ih h
        rw [hatoms] at hsum
        refine ⟨⟨hatoms ▸ inI128_val atoms, ?_, ?_⟩, ?_, ?_⟩
        · rw [hsum]
          exact inI128_val sum
        · rw [hsum]
          exact hrest.fits
        · rw [hrest.total, map_cons, sum_cons, ← hsum]
          ring
        · rw [hrest.reasons, forall_mem_cons]
          exact ⟨fun hall => ⟨hall.1, hsettled, hall.2⟩, fun hall => ⟨hall.1, hall.2.2⟩⟩
    | skip hzero hsettled =>
      have hrest := ih h
      obtain ⟨hfits, htotal⟩ := hrest.cons_zero hzero
      refine ⟨hfits, htotal, ?_⟩
      rw [hrest.reasons, forall_mem_cons]
      exact ⟨fun hall => ⟨hall.1, hsettled, hall.2⟩, fun hall => ⟨hall.1, hall.2.2⟩⟩
    | incomplete hzero hunsettled =>
      have hrest := ih h
      obtain ⟨hfits, htotal⟩ := hrest.cons_zero hzero
      refine ⟨hfits, htotal, ?_⟩
      rw [hrest.reasons, forall_mem_cons]
      exact ⟨fun hall => absurd hall.1 (pushUnique_ne_nil _ _),
        fun hall => absurd hall.2.1 hunsettled⟩
    | overflow => cases h

theorem sumComponents_eq_none {total : UsdAtoms} {reasons : List CostReason}
    (h : sumComponents (total, reasons) (components.map CostComponent.outcome) = none) :
    ¬SumFits total.val (components.map CostComponent.exact) := by
  induction components generalizing total reasons with
  | nil => cases h
  | cons component components ih =>
    rw [map_cons] at h
    have hspec := component.outcome_spec
    generalize component.outcome = outcome at h hspec
    rintro ⟨hone, hsum, hrest⟩
    cases hspec with
    | priced hatoms hsettled =>
      rename_i atoms
      rcases hadd : total.checkedAdd atoms with _ | sum
      · have hnone := tryFrom_eq_none.mp hadd
        rw [← hatoms, InI128] at hsum
        omega
      · simp only [sumComponents, hadd] at h
        have hval := checkedAdd_eq_some.mp hadd
        rw [hatoms] at hval
        exact ih h (hval ▸ hrest)
    | skip hzero | incomplete hzero =>
      rw [hzero, add_zero] at hrest
      exact ih h hrest
    | overflow hlarge => exact hlarge hone

/-! ## Exact costs -/

/-- The components under a resolved price. -/
def recordComponents (observation : ProviderUsageObservation) (contract : UsageContractSnapshot)
    (record : InlinePriceRecord) : List CostComponent :=
  costComponents observation contract
    (record.pricesForContext observation.pricingContextTokens.knownValue)

variable (observation : ProviderUsageObservation) (contract : UsageContractSnapshot)
  (record : InlinePriceRecord)

theorem costOfRecord_cases :
    (¬SumFits 0 ((recordComponents observation contract record).map CostComponent.exact) ∧
      costOfRecord observation contract record = .unavailable .arithmeticOverflow) ∨
    ∃ total reasons, SumsTo UsdAtoms.zero total [] reasons
        (recordComponents observation contract record) ∧
      costOfRecord observation contract record =
        ⟨total, if coverageReasons observation contract record reasons = [] then
          .completeForObservedCatalogComponents else .partial_,
          coverageReasons observation contract record reasons, calculatorVersion⟩ := by
  unfold costOfRecord
  dsimp only
  rw [pricedComponents_eq]
  split
  · rename_i hnone
    exact .inl ⟨sumComponents_eq_none hnone, rfl⟩
  · rename_i total reasons hsome
    exact .inr ⟨total, reasons, sumComponents_eq_some hsome, rfl⟩

theorem cost_cases :
    (¬SumFits 0 ((recordComponents observation contract record).map CostComponent.exact) ∧
        computeObservedCatalogCost observation contract (.resolved record) =
          .unavailable .arithmeticOverflow) ∨
      SumFits 0 ((recordComponents observation contract record).map CostComponent.exact) ∧
        (computeObservedCatalogCost observation contract (.resolved record)).totalKnown.val =
          ((recordComponents observation contract record).map CostComponent.exact).sum := by
  rcases costOfRecord_cases observation contract record with hover | ⟨total, reasons, hsums, hcost⟩
  · exact .inl hover
  · have htotal := hsums.total
    simp only [UsdAtoms.zero, lit_val, zero_add] at htotal
    refine .inr ⟨hsums.fits, ?_⟩
    show (costOfRecord observation contract record).totalKnown.val = _
    rw [hcost]
    exact htotal

variable {observation contract record}

theorem unavailable_iff :
    (computeObservedCatalogCost observation contract (.resolved record)).status = .unavailable ↔
      ¬SumFits 0 ((recordComponents observation contract record).map CostComponent.exact) := by
  show (costOfRecord observation contract record).status = _ ↔ _
  rcases costOfRecord_cases observation contract record with
    ⟨hover, hcost⟩ | ⟨total, reasons, hsums, hcost⟩
  · rw [hcost]
    exact ⟨fun _ => hover, fun _ => rfl⟩
  · rw [hcost]
    have hfits : SumFits 0 ((recordComponents observation contract record).map
      CostComponent.exact) := hsums.fits
    split <;> simp [hfits]

/-- A cost is unavailable because something leaves 128 bits, or it is the exact sum at the prices of
the selected tier. -/
theorem cost_exact (observation : ProviderUsageObservation) (contract : UsageContractSnapshot)
    (record : InlinePriceRecord) :
    let cost := computeObservedCatalogCost observation contract (.resolved record)
    let context := observation.pricingContextTokens.knownValue
    ∃ prices, record.Selects context prices ∧
      ((record.tiers.Pairwise fun tier tier' =>
        tier.thresholdTokens.val < tier'.thresholdTokens.val) →
          ∀ tokens ∈ context, record.Highest tokens prices) ∧
      let costs := (costComponents observation contract prices).map CostComponent.exact
      (¬SumFits 0 costs ∧ cost = .unavailable .arithmeticOverflow) ∨
        (SumFits 0 costs ∧ cost.status ≠ .unavailable ∧ cost.totalKnown.val = costs.sum) := by
  intro cost context
  have hselects := record.selects_pricesForContext context
  refine ⟨_, hselects, fun hincreasing tokens htokens => ?_, ?_⟩
  · rw [Option.mem_def.mp htokens] at hselects ⊢
    exact hselects.highest hincreasing
  · rcases cost_cases observation contract record with hover | ⟨hfits, htotal⟩
    · exact .inl hover
    · exact .inr ⟨hfits, fun hstatus => unavailable_iff.mp hstatus hfits, htotal⟩

/-! ## Complete costs -/

/-- Nothing but the components keeps a cost from being complete. -/
structure Covered (observation : ProviderUsageObservation) (contract : UsageContractSnapshot)
    (record : InlinePriceRecord) : Prop where
  mode : contract.pricingMode ≠ .unknown
  unmodeled : record.unmodeledBillableComponent = false
  billable : observation.billable = []
  rule : record.unmodeledPricingRule = false
  tier : record.hasContextTiers = true → observation.pricingContextTokens.knownValue ≠ none
  model : .providerModelMismatch ∉ observation.warnings
  conflict : .fieldConflict ∉ observation.warnings

theorem ite_pushUnique_eq_nil {α : Type} [DecidableEq α] {c : Prop} [Decidable c] {l : List α}
    {a : α} : (if c then pushUnique l a else l) = [] ↔ ¬c ∧ l = [] := by
  split
  · simp_all [pushUnique_ne_nil]
  · simp_all

theorem coverageReasons_eq_nil {reasons : List CostReason} :
    coverageReasons observation contract record reasons = [] ↔
      reasons = [] ∧ Covered observation contract record := by
  unfold coverageReasons
  simp only [ite_pushUnique_eq_nil]
  constructor
  · rintro ⟨hconflict, hmodel, htier, hrule, hbillable, hmode, hreasons⟩
    push Not at hbillable htier
    exact ⟨hreasons, hmode, by simpa using hbillable.1, hbillable.2, by simpa using hrule, htier,
      hmodel, hconflict⟩
  · rintro ⟨hreasons, h⟩
    refine ⟨h.conflict, h.model, fun htier => h.tier htier.1 htier.2, by simp [h.rule], ?_, h.mode,
      hreasons⟩
    simp [h.unmodeled, h.billable]

theorem complete_iff :
    (computeObservedCatalogCost observation contract (.resolved record)).status =
        .completeForObservedCatalogComponents ↔
      SumFits 0 ((recordComponents observation contract record).map CostComponent.exact) ∧
        (∀ component ∈ recordComponents observation contract record, component.Settled) ∧
        Covered observation contract record := by
  show (costOfRecord observation contract record).status = _ ↔ _
  rcases costOfRecord_cases observation contract record with
    ⟨hover, hcost⟩ | ⟨total, reasons, hsums, hcost⟩
  · rw [hcost]
    simp [ObservedCatalogCost.unavailable, hover]
  · rw [hcost]
    have hfits : SumFits 0 ((recordComponents observation contract record).map
      CostComponent.exact) := hsums.fits
    have hreasons := hsums.reasons
    simp only [true_and] at hreasons
    rw [← hreasons, ← coverageReasons_eq_nil]
    split <;> simp_all

/-- A metric that applies under the contract is not marked as one that does not. -/
theorem quantity_ne_notApplicable (fields : Option RawUsageFields)
    (contract : UsageContractSnapshot) (prices : ComponentPrices) :
    ∀ component ∈ costComponents (normalizeUsage fields contract) contract prices,
      component.applicable = true → component.quantity ≠ .notApplicable := by
  have hruled := normalizeUsage_nothingRuledOut fields contract
  have hof {metric : TokenMetric} {applicable : Bool}
      (h : metric = .notApplicable → applicable = false) : applicable = true →
      metric ≠ .notApplicable := by
    rintro happlies rfl
    simp [h rfl] at happlies
  simp only [costComponents, forall_mem_cons, not_mem_nil, false_implies, implies_true, and_true]
  refine ⟨fun _ => hruled.uncachedInput, hof hruled.cacheRead, hof hruled.cacheWrite,
    fun _ => hruled.output, ?_, hof hruled.inputAudio, hof hruled.outputAudio⟩
  intro happlies
  rw [Bool.and_eq_true, Bool.not_eq_true'] at happlies
  rw [happlies.2, if_neg Bool.false_ne_true]
  exact hof hruled.reasoning happlies.1

theorem quantity_value_of_no_usage (contract : UsageContractSnapshot) (prices : ComponentPrices) :
    ∀ component ∈ costComponents (normalizeUsage none contract) contract prices,
      component.quantity.value = none := by
  have hreasoning : TokenMetric.value (if contract.inclusion.reasoningIncludedInOutput then
      .notApplicable else .unknown .noUsageTerminal) = none := by split <;> rfl
  simp only [costComponents, forall_mem_cons, not_mem_nil, false_implies, implies_true, and_true]
  exact ⟨rfl, rfl, rfl, rfl, hreasoning, rfl, rfl⟩

end ProviderCore.Usage
