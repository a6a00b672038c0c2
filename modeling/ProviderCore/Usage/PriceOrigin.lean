import ProviderCore.Usage.CatalogPrices
import ProviderCore.Usage.CostExact
import ProviderCore.Usage.TrackingOnce

/-!
# Where an attempt's price comes from

The resolver of an attempt's price tries a list of sources in a fixed order; `rightPrice` is that
order as one expression.  A request takes the catalog as it finds it when it begins, so what is
installed later changes none of its prices, and the order of the catalog map never does.  A cost is
complete for a model that was not asked for only if the price is that model's own.
-/

namespace ProviderCore.Usage

/-! ## The order of sources -/

section Sources

variable (spec : AttemptSpec) (catalog : Option CatalogSnapshot)

/-- What is listed for a model: by the account, else by the catalog. -/
def listedPricing (model : Option String) : Option ProviderModelPricingRecord :=
  (namedModel model).bind fun name =>
    (spec.reportedModelPricing.bind fun pricing => pricing.exact name).or
      ((catalog.bind fun snapshot => snapshot.exactModelPricing name).map fun pricing =>
        ⟨.catalog, pricing⟩)

/-- The route's price if it has one, else what is listed for the reported model, else what is
listed for the alias. -/
def rightPrice (reported : Option String) : PriceResolution :=
  if spec.price = .modelMappingMissing then
    modelPriceResolution ((listedPricing spec catalog reported).or
      (listedPricing spec catalog spec.pricingModelAlias))
  else spec.price

/-- The price is resolved, from what is listed for the reported model. -/
def PricedFromReported (reported : Option String) : Prop :=
  spec.price = .modelMappingMissing ∧ ∃ saved record,
    listedPricing spec catalog reported = some saved ∧
      modelPriceResolution (some saved) = .resolved record

variable {spec catalog}

theorem resolvePricingAlias_eq (hroute : spec.price = .modelMappingMissing) :
    resolvePricingAlias spec.price spec.pricingModelAlias spec.reportedModelPricing catalog =
      (modelPriceResolution (listedPricing spec catalog spec.pricingModelAlias), false) := by
  unfold resolvePricingAlias listedPricing
  rcases namedModel spec.pricingModelAlias with _ | name
  · simp [hroute, modelPriceResolution]
  · simp only [Option.bind_some]
    rcases spec.reportedModelPricing.bind fun pricing => pricing.exact name with _ | saved
    · rcases catalog.bind fun snapshot => snapshot.exactModelPricing name with _ | pricing
      · simp [hroute, modelPriceResolution]
      · rfl
    · rfl

/-- The resolver tries the sources in the order of `rightPrice`, and its flag says whether the
price is the reported model's. -/
theorem resolveAttemptPrice_eq (reported : Option String) :
    (resolveAttemptPrice spec.price reported spec.pricingModelAlias spec.reportedModelPricing
        catalog).1 = rightPrice spec catalog reported ∧
      ((resolveAttemptPrice spec.price reported spec.pricingModelAlias spec.reportedModelPricing
        catalog).2 = true ↔ PricedFromReported spec catalog reported) := by
  unfold resolveAttemptPrice rightPrice PricedFromReported
  by_cases hroute : spec.price = .modelMappingMissing
  · rw [if_neg (not_not_intro hroute), if_pos hroute, resolvePricingAlias_eq hroute]
    have hflag (saved : ProviderModelPricingRecord) :
        (modelPriceResolution (some saved)).record.isSome = true ↔
          ∃ record, modelPriceResolution (some saved) = .resolved record := by
      rcases modelPriceResolution (some saved) <;> simp [PriceResolution.record]
    rcases hname : namedModel reported with _ | name
    · simp [listedPricing, hname]
    · have hlisted : listedPricing spec catalog reported =
          (spec.reportedModelPricing.bind fun pricing => pricing.exact name).or
            ((catalog.bind fun snapshot => snapshot.exactModelPricing name).map fun pricing =>
              ⟨.catalog, pricing⟩) := by
        rw [listedPricing, hname, Option.bind_some]
      simp only [hlisted]
      rcases spec.reportedModelPricing.bind fun pricing => pricing.exact name with _ | saved
      · rcases catalog.bind fun snapshot => snapshot.exactModelPricing name with _ | pricing
        · simp
        · simp [hroute, hflag]
      · simp [hroute, hflag]
  · simp [hroute]

end Sources

/-! ## A closed attempt -/

/-- The provider served another model than the one that was asked for. -/
def Mismatched (spec : AttemptSpec) (reported : Option String) : Prop :=
  ∃ configured served, spec.configuredModel = some configured ∧ reported = some served ∧
    reportedModelMatches spec.provider (Text.trim configured) (Text.trim served) = false

/-- The price of the facts is the right one, and a complete cost for another model is priced from
that model. -/
structure PricedRight (spec : AttemptSpec) (catalog : Option CatalogSnapshot)
    (facts : AttemptFacts) : Prop where
  price : facts.price = rightPrice spec catalog facts.providerReportedModel
  complete : facts.cost.status = .completeForObservedCatalogComponents →
    Mismatched spec facts.providerReportedModel →
      PricedFromReported spec catalog facts.providerReportedModel

theorem Mismatched.modelDisagrees {spec : AttemptSpec} {reported : Option String}
    (h : Mismatched spec reported) :
    modelDisagrees spec.provider spec.configuredModel reported = true := by
  obtain ⟨_, _, hconfigured, rfl, hdiffers⟩ := h
  rw [hconfigured]
  simp [Usage.modelDisagrees, hdiffers]

/-- A price that is not the served model's leaves a warning. -/
theorem mismatch_mem_warnings {spec : AttemptSpec} {state : AttemptState}
    (h : Mismatched spec state.providerReportedModel) :
    .providerModelMismatch ∈ (attemptObservation spec state false).warnings := by
  unfold attemptObservation
  simp only [h.modelDisagrees, Bool.true_and, Bool.not_false]
  split_ifs with hwarned
  · simp
  · simpa using hwarned

theorem resolved_of_complete {observation : ProviderUsageObservation}
    {contract : UsageContractSnapshot} {price : PriceResolution}
    (h : (computeObservedCatalogCost observation contract price).status =
      .completeForObservedCatalogComponents) : ∃ record, price = .resolved record := by
  cases price with
  | resolved record => exact ⟨record, rfl⟩
  | _ => cases h

theorem pricedRight_attemptFacts (requestId : String) (attempt : AttemptTracker) (nowMs : ℤ) :
    PricedRight attempt.spec attempt.catalogSnapshot (attemptFacts requestId attempt nowMs) := by
  obtain ⟨hprice, hflag⟩ := @resolveAttemptPrice_eq attempt.spec attempt.catalogSnapshot
    attempt.state.providerReportedModel
  refine ⟨hprice, fun hcomplete hmismatch => hflag.mp ?_⟩
  by_contra hfalse
  rw [Bool.not_eq_true] at hfalse
  change (attemptCost _ _ (attemptObservation _ _ (resolveAttemptPrice _ _ _ _ _).2) _).status = _
    at hcomplete
  rw [hfalse, attemptCost] at hcomplete
  split at hcomplete
  · cases hcomplete
  · obtain ⟨_, hrecord⟩ := resolved_of_complete hcomplete
    rw [hrecord] at hcomplete
    exact (complete_iff.mp hcomplete).2.2.model (mismatch_mem_warnings hmismatch)

/-! ## Every run -/

namespace TrackingRun

variable {s : TrackingRun} {start : LogicalRequestStart} {catalog : Option CatalogSnapshot}

/-- Every attempt has the catalog of the request. -/
def Frozen (catalog : Option CatalogSnapshot) (s : TrackingRun) : Prop :=
  ∀ attempt ∈ s.attempts, attempt.tracker.catalogSnapshot = catalog

theorem Frozen.onAttempt (h : s.Frozen catalog) (index : ℕ)
    {f : LogicalState → TrackedAttempt → Option (LogicalState × TrackedAttempt)}
    (hf : ∀ logical attempt logical' attempt', f logical attempt = some (logical', attempt') →
      attempt'.tracker.catalogSnapshot = attempt.tracker.catalogSnapshot) :
    (s.onAttempt index f).Frozen catalog := by
  rcases s.onAttempt_eq index f with heq | ⟨attempt, logical', attempt', hattempt, hresult, heq⟩
  · rwa [heq]
  · rw [heq]
    intro other hother
    rcases List.mem_or_eq_of_mem_set hother with hother | rfl
    · exact h other hother
    · exact (hf _ _ _ _ hresult).trans (h attempt (List.mem_of_getElem? hattempt))

theorem catalogSnapshot_close (requestId : String) (nowMs : ℤ) (attempt : TrackedAttempt) :
    (attempt.close requestId nowMs).tracker.catalogSnapshot = attempt.tracker.catalogSnapshot := by
  show (attempt.tracker.close requestId nowMs).1.catalogSnapshot = _
  unfold AttemptTracker.close
  split <;> rfl

theorem Frozen.step (h : s.Frozen catalog) (event : TrackingStep) :
    (s.step start catalog event).Frozen catalog := by
  cases event with
  | openAttempt =>
    simp only [TrackingRun.step]
    split
    · exact h
    · exact List.forall_mem_append.mpr ⟨h, List.forall_mem_singleton.mpr rfl⟩
  | run index =>
    refine h.onAttempt index fun logical attempt logical' attempt' hrun => ?_
    obtain ⟨-, -, rfl⟩ := eq_of_unless hrun
    rfl
  | close index =>
    refine h.onAttempt index fun logical attempt logical' attempt' hclose => ?_
    obtain ⟨-, -, rfl⟩ := eq_of_unless hclose
    exact catalogSnapshot_close _ _ _
  | note index =>
    refine h.onAttempt index fun logical attempt logical' attempt' hnote => ?_
    obtain ⟨_, _, -, -, rfl⟩ := noteAttempt_eq_some hnote
    rfl
  | count index =>
    refine h.onAttempt index fun logical attempt logical' attempt' hcount => ?_
    obtain ⟨-, facts, -, rfl | ⟨-, rfl⟩⟩ := countAttempt_eq_some hcount
    · rfl
    · rfl
  | dropAttempt index =>
    refine h.onAttempt index fun logical attempt logical' attempt' hdrop => ?_
    obtain ⟨-, -, rfl⟩ := eq_of_unless hdrop
    unfold TrackedAttempt.drop
    split
    · rfl
    · exact catalogSnapshot_close _ _ _
  | markQuotaDispatched | record | finish =>
    simp only [TrackingRun.step]
    split <;> exact h
  | dropRequest =>
    simp only [TrackingRun.step]
    split
    · exact h
    · unfold TrackingRun.drop
      split <;> exact h

theorem Frozen.run (h : s.Frozen catalog) (events : List TrackingStep) :
    (events.foldl (TrackingRun.step start catalog) s).Frozen catalog := by
  induction events generalizing s with
  | nil => exact h
  | cons event _ ih => exact ih (h.step event)

end TrackingRun

/-! ## Catalogs that change under a request -/

/-- A request among installations of catalogs. -/
inductive PricedStep
  | install (catalog : ParsedCatalog)
  | track (step : TrackingStep)

/-- The calls on the request. -/
def PricedStep.tracked : PricedStep → Option TrackingStep
  | .install _ => none
  | .track step => some step

structure PricedRun where
  /-- The catalog in use. -/
  prices : Option ParsedCatalog
  /-- What the request found when it began. -/
  catalogSnapshot : Option ParsedCatalog
  tracking : TrackingRun

namespace PricedRun

/-- A request begins with the catalog in use. -/
def begun (prices : Option ParsedCatalog) (logical : LogicalState) : PricedRun where
  prices := prices
  catalogSnapshot := prices
  tracking := { logical }

def step (start : LogicalRequestStart) (run : PricedRun) : PricedStep → PricedRun
  | .install catalog => { run with prices := some catalog }
  | .track step => { run with
      tracking := run.tracking.step start (run.catalogSnapshot.map ParsedCatalog.snapshot) step }

/-- Installations leave no trace in a request. -/
theorem tracking_foldl (start : LogicalRequestStart) (run : PricedRun) (steps : List PricedStep) :
    (steps.foldl (step start) run).tracking = (steps.filterMap PricedStep.tracked).foldl
      (TrackingRun.step start (run.catalogSnapshot.map ParsedCatalog.snapshot)) run.tracking := by
  induction steps generalizing run with
  | nil => rfl
  | cons event _ ih =>
    rw [List.foldl_cons, ih]
    cases event <;> rfl

end PricedRun

theorem ParsedCatalog.SameEntries.snapshot {catalog catalog' : ParsedCatalog}
    (h : catalog.SameEntries catalog') : catalog.snapshot = catalog'.snapshot := by
  unfold ParsedCatalog.snapshot
  rw [funext h.exactModelPricing]

/-- Whatever is installed while a request runs, and in whatever order the catalog map is read:
every attempt is closed with the price of the first source that has one, by the catalog the request
began with, and a complete cost for a model that was not asked for is priced from that model. -/
theorem attempts_priced_right {start : LogicalRequestStart} {logical : LogicalState}
    (hbegun : Begun start logical) (prices : Option ParsedCatalog) (steps : List PricedStep) :
    let run := steps.foldl (PricedRun.step start) (.begun prices logical)
    (∀ steps' : List PricedStep,
      steps'.filterMap PricedStep.tracked = steps.filterMap PricedStep.tracked →
        (steps'.foldl (PricedRun.step start) (.begun prices logical)).tracking = run.tracking) ∧
    (∀ prices', Option.Rel ParsedCatalog.SameEntries prices prices' →
      (steps.foldl (PricedRun.step start) (.begun prices' logical)).tracking = run.tracking) ∧
    ∀ attempt ∈ run.tracking.attempts, ∀ facts ∈ attempt.facts,
      PricedRight attempt.tracker.spec (prices.map ParsedCatalog.snapshot) facts := by
  intro run
  have hrun : run.tracking = _ := PricedRun.tracking_foldl start (.begun prices logical) steps
  refine ⟨fun steps' hsteps => ?_, fun prices' hprices => ?_,
    fun attempt hattempt facts hfacts => ?_⟩
  · rw [hrun, PricedRun.tracking_foldl, hsteps]
  · have hsame : prices'.map ParsedCatalog.snapshot = prices.map ParsedCatalog.snapshot := by
      cases hprices with
      | none => rfl
      | some hentries => exact congrArg some hentries.snapshot.symm
    rw [hrun, PricedRun.tracking_foldl]
    simp [PricedRun.begun, hsame]
  · rw [hrun] at hattempt
    have hsound := ((TrackingRun.inv_begun hbegun).run _).attempts attempt hattempt
    have hfrozen : attempt.tracker.catalogSnapshot = prices.map ParsedCatalog.snapshot :=
      TrackingRun.Frozen.run (by simp [TrackingRun.Frozen, PricedRun.begun]) _ attempt hattempt
    rcases hsound.facts with hnone | ⟨nowMs, -, hone⟩
    · simp [hnone] at hfacts
    · obtain rfl : facts = _ := by simpa [hone] using hfacts
      rw [← hfrozen]
      exact pricedRight_attemptFacts start.requestId
        { attempt.tracker with state := closingState attempt.log } nowMs

def listedCatalog : ParsedCatalog :=
  ⟨"", Table.empty.insertNew (("xai", "model"),
    .priced { outputPerMillion := some (.lit 1 (Eq.refl true)) } [])⟩

/-- A request with one attempt that its route has no price for.  The catalog that lists the model
is replaced by an empty one after the request has begun. -/
def installedRun : PricedRun :=
  (.install ⟨"", .empty⟩ :: (streamedRun
    [{ sampleSpec with price := .modelMappingMissing, pricingModelAlias := some "model" }]).map
      .track).foldl (PricedRun.step sampleStart) (.begun (some listedCatalog) {})

/-- The attempt has submitted facts, and they are priced by the first catalog. -/
theorem attempts_priced_right_streamed :
    (installedRun.tracking.attempts.map fun attempt =>
        attempt.facts.map fun facts => facts.price.record.isSome) = [[true]] ∧
      ∀ attempt ∈ installedRun.tracking.attempts, ∀ facts ∈ attempt.facts,
        PricedRight attempt.tracker.spec (some listedCatalog.snapshot) facts :=
  ⟨by decide, (attempts_priced_right (.plain none) (some listedCatalog) _).2.2⟩

end ProviderCore.Usage
