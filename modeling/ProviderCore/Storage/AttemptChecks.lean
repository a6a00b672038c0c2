import ProviderCore.Storage.UsageRepository
import ProviderCore.Usage.AttemptLife

/-!
# Which attempts storage accepts

`Storable` collects what stands between an attempt's facts and its rows: the checks
`record_attempt` makes itself, the `CHECK` constraints of `usage_attempts` and those of
`usage_billable_observations`.  Facts that are not storable are refused by every database, so the
quota writer would retry them forever; storable facts are accepted by some database
(`storable_iff_accepted`).

Most constraints hold of any facts the codec encodes; `attemptRow_checks` leaves the ones that do
not.  The tracker meets all of these but two: a capacity-exhausted failover has no place in the
column's list, and the clock may place the first token outside the attempt.
-/

namespace ProviderCore.Storage

open Usage IntRange

def billableRow (attemptId : String) (observation : BillableObservation) (quantity : I64) :
    BillableRow :=
  ⟨attemptId, billableCodeStr observation.componentCode, billableUnitStr observation.unit,
    quantity⟩

/-- A billable observation that storage takes. -/
def StorableBillable (attemptId : String) (observation : BillableObservation) : Prop :=
  ∃ quantity, storableQuantity observation.quantity = .ok quantity ∧
    (billableRow attemptId observation quantity).Checks

/-- Facts that pass every check on the way to storage. -/
structure Storable (facts : AttemptFacts) : Prop where
  precheck : attemptPrecheck facts = .ok ()
  row : ∃ revision : I64, tryFrom facts.credentialIdentityRevision.val = some revision ∧
    (attemptRow facts revision).Checks
  billable : ∀ observation ∈ facts.observation.billable,
    StorableBillable facts.attemptId observation

/-! ## The constraints facts can break -/

/-- Neither a cost nor usage is recorded for the attempt. -/
def NothingRecorded (facts : AttemptFacts) : Prop :=
  (storableCost facts.cost).status = .unavailable ∧
    (splitMetric facts.observation.effectiveInputTokens).value = none ∧
    (splitMetric facts.observation.outputTokens).value = none ∧
    (splitMetric facts.observation.totalTokens).value = none

theorem nonNegative_splitMetric (metric : TokenMetric) :
    NonNegative (splitMetric metric).value := by
  have hval : ∀ value : U64, ∀ n : I64, tryFrom value.val = some n → 0 ≤ n.val := by
    intro value n h
    rw [← tryFrom_eq_some.mp h]
    exact value.le
  intro n hn
  cases metric with
  | providerReported value | derivedFromReported value =>
    rcases hfit : (tryFrom value.val : Option I64) with _ | fit
    · simp [splitMetric, hfit] at hn
    · simp only [splitMetric, hfit, Option.mem_def, Option.some.injEq] at hn
      exact hn ▸ hval value fit hfit
  | notReported | notApplicable | unknown => cases hn

theorem costStatusStr_eq_unavailable {status : CostStatus} :
    costStatusStr status = "unavailable" ↔ status = .unavailable := by
  cases status <;> decide

theorem dispatchEvidenceStr_eq_not_invoked {evidence : DispatchEvidence} :
    dispatchEvidenceStr evidence = "not_invoked" ↔ evidence = .notInvoked := by
  cases evidence <;> decide

theorem attemptOutcomeStr_eq_failed {outcome : AttemptOutcome} :
    attemptOutcomeStr outcome = "failed" ↔ outcome = .failed := by
  cases outcome <;> decide

/-- The column knows every failover reason but one. -/
theorem attemptFailoverReasonStr_mem {reason : AttemptFailoverReason} :
    attemptFailoverReasonStr reason ∈
        ["authentication_exhausted", "quota_exhausted", "rate_limited", "preconnect_failure"] ↔
      reason ≠ .capacityExhausted := by
  cases reason <;> decide

variable {facts : AttemptFacts}

/-- The checks `record_attempt` makes before its transaction. -/
theorem attemptPrecheck_eq_ok :
    attemptPrecheck facts = .ok () ↔
      (facts.dispatchEvidence = .notInvoked → NothingRecorded facts) ∧
        (facts.failoverReason ≠ none → facts.outcome = some .failed) := by
  unfold attemptPrecheck NothingRecorded
  dsimp only [splitObservation, ByCategory.map, observationMetrics]
  split
  · exact ⟨fun h => (by cases h), by tauto⟩
  · split
    · exact ⟨fun h => (by cases h), by tauto⟩
    · exact ⟨fun _ => by tauto, fun _ => rfl⟩

/-- The constraints of `usage_attempts` that encoded facts can break. -/
theorem attemptRow_checks {revision : I64} :
    (attemptRow facts revision).Checks ↔
      1 ≤ facts.sequence.val ∧ 0 ≤ revision.val ∧
        (∀ at_ ∈ facts.firstTokenAtMs,
          facts.startedAtMs ≤ at_ ∧ at_ ≤ facts.completedAtMs) ∧
        1 ≤ facts.contract.contractVersion.val ∧ 1 ≤ facts.contract.normalizationVersion.val ∧
        1 ≤ (storableCost facts.cost).calculatorVersion.val ∧
        (facts.dispatchEvidence = .notInvoked → NothingRecorded facts) ∧
        facts.failoverReason ≠ some .capacityExhausted ∧
        (facts.failoverReason = none ∨ ∀ outcome ∈ facts.outcome, outcome = .failed) := by
  constructor
  · intro h
    refine ⟨h.sequence, h.credentialIdentityRevision, h.firstToken, h.contractVersion,
      h.normalizationVersion, h.calculatorVersion, ?_, ?_, ?_⟩
    · intro hsent
      obtain hne | ⟨hcost, hrest⟩ := h.notInvokedHasNoUsage
      · exact absurd (dispatchEvidenceStr_eq_not_invoked.mpr hsent) hne
      · exact ⟨costStatusStr_eq_unavailable.mp hcost, hrest⟩
    · intro hreason
      refine attemptFailoverReasonStr_mem.mp (h.failoverReason _ ?_) rfl
      simp [attemptRow, hreason]
    · refine h.failoverNeedsFailure.imp (by simp [attemptRow]) fun hfailed outcome houtcome => ?_
      exact attemptOutcomeStr_eq_failed.mp (hfailed _ (Option.mem_map_of_mem _ houtcome))
  · rintro ⟨hsequence, hrevision, hfirst, hcontract, hnorm, hcalc, hsent, hreason, hfailed⟩
    refine ⟨hsequence, hrevision, hfirst, ?_, ?_, ?_, hcontract, hnorm, ?_, ?_, ?_, ?_, ?_, ?_, ?_,
      hcalc, ?_, ?_, ?_, ?_, ?_, ?_, ?_, ?_⟩
    · show dispatchEvidenceStr _ ∈ _
      cases facts.dispatchEvidence <;> decide
    · show (trackingColumns _).1 ∈ _
      rcases facts.tracking with _ | reason <;> simp [trackingColumns]
    · show ∀ reason ∈ (trackingColumns _).2, _
      rcases facts.tracking with _ | ⟨_ | _⟩ <;> decide
    · show cacheCapabilityStr _ ∈ _
      cases facts.contract.cacheCapability <;> decide
    · show cacheEligibilityStr _ ∈ _
      cases facts.contract.cacheEligibility <;> decide
    · show cacheReportingStr _ ∈ _
      cases facts.contract.cacheReportingExpectation <;> decide
    · show pricingBasisStr _ ∈ _
      cases facts.contract.pricingContextBasis <;> decide
    · show pricingModeStr _ ∈ _
      cases facts.contract.pricingMode <;> decide
    · constructor <;> exact nonNegative_splitMetric _
    · show priceResolutionStr _ ∈ _
      cases facts.price <;> simp [priceResolutionStr]
    · show costStatusStr _ ∈ _
      cases (storableCost facts.cost).status <;> decide
    · show (trackingColumns _).1 = _ ↔ (trackingColumns _).2 ≠ none
      rcases facts.tracking with _ | reason <;> simp [trackingColumns]
    · show priceResolutionStr facts.price = _ ↔ facts.price.record ≠ none
      cases facts.price <;> simp [priceResolutionStr, PriceResolution.record]
    · exact costStatusStr_eq_unavailable.trans (storableCost_atoms_none facts.cost).symm
    · by_cases hevidence : facts.dispatchEvidence = .notInvoked
      · obtain ⟨hcost, hrest⟩ := hsent hevidence
        exact .inr ⟨costStatusStr_eq_unavailable.mpr hcost, hrest⟩
      · exact .inl fun h => hevidence (dispatchEvidenceStr_eq_not_invoked.mp h)
    · intro text htext
      obtain ⟨outcome, -, rfl⟩ := Option.mem_map.mp htext
      cases outcome <;> decide
    · intro text htext
      obtain ⟨_, hmem, rfl⟩ := Option.mem_map.mp htext
      refine attemptFailoverReasonStr_mem.mpr ?_
      rintro rfl
      exact hreason hmem
    · refine hfailed.imp (by simp [attemptRow]) fun hfailed text htext => ?_
      obtain ⟨outcome, hmem, rfl⟩ := Option.mem_map.mp htext
      exact attemptOutcomeStr_eq_failed.mpr (hfailed outcome hmem)

/-! ## Acceptance -/

/-- The empty database with one open request, which no key is charged for. -/
def bareDb (requestId : String) : UsageDb where
  apiKeys := .empty
  ledger := .empty
  requests := Table.empty.insertNew
    (startRow ⟨requestId, "", none, none, none, none, none, none, none, 0⟩)
  attempts := .empty
  billable := .empty

variable {attemptId : String} {table : Table BillableRow.key}

theorem insertBillable_ok {observation : BillableObservation} :
    (∃ table', insertBillable attemptId table observation = .ok table') ↔
      StorableBillable attemptId observation := by
  unfold insertBillable StorableBillable
  rcases storableQuantity observation.quantity with error | quantity
  · simp [bind, Except.bind]
  · by_cases hchecks : (billableRow attemptId observation quantity).Checks
    · exact ⟨fun _ => ⟨quantity, rfl, hchecks⟩, fun _ => ⟨_, if_pos hchecks⟩⟩
    · constructor
      · rintro ⟨_, htable'⟩
        exact absurd ((if_neg hchecks).symm.trans htable') (by simp)
      · rintro ⟨_, hquantity, hother⟩
        cases hquantity
        exact absurd hother hchecks

theorem foldlM_insertBillable_ok {observations : List BillableObservation} :
    (∃ table', observations.foldlM (insertBillable attemptId) table = .ok table') ↔
      ∀ observation ∈ observations, StorableBillable attemptId observation := by
  induction observations generalizing table with
  | nil => exact ⟨fun _ => by simp, fun _ => ⟨table, rfl⟩⟩
  | cons observation _ ih =>
    rw [List.foldlM_cons, List.forall_mem_cons, ← @insertBillable_ok attemptId table]
    rcases insertBillable attemptId table observation with error | table₁
    · simp [bind, Except.bind]
    · simpa [bind, Except.bind] using ih

theorem chargeAttempt_of_no_key {db : UsageDb} {requestId : String} (cost : StorableCost)
    (h : unclaimedKey db requestId = none) : chargeAttempt db requestId cost = .ok db := by
  unfold chargeAttempt
  split <;> simp_all

theorem find?_bareDb (requestId : String) : (bareDb requestId).requests.find? requestId =
    some (startRow ⟨requestId, "", none, none, none, none, none, none, none, 0⟩) :=
  Table.find?_insertNew_self .empty (startRow ⟨requestId, "", _, _, _, _, _, _, _, 0⟩)

/-- Facts are storable exactly when a database that does not hold the attempt yet takes them. -/
theorem storable_iff_accepted :
    Storable facts ↔
      ∃ db db', db.attempts.find? facts.attemptId = none ∧ recordAttempt db facts = .ok db' := by
  constructor
  · rintro ⟨hprecheck, ⟨revision, hrevision, hchecks⟩, hbillable⟩
    obtain ⟨billable, hfold⟩ := foldlM_insertBillable_ok.mpr hbillable
    have hfresh : (bareDb facts.logicalRequestId).attempts.find? facts.attemptId = none := rfl
    have hnoKey : unclaimedKey (bareDb facts.logicalRequestId) facts.logicalRequestId = none :=
      congrArg (Option.bind · LogicalRequestRow.apiKeyId) (find?_bareDb facts.logicalRequestId)
    refine ⟨_, _, hfresh, (recordAttempt_eq_ok_of_fresh hfresh).mpr
      ⟨hprecheck, revision, hrevision, hchecks, rfl, ?_, billable, hfold,
        chargeAttempt_of_no_key (storableCost facts.cost) hnoKey⟩⟩
    rw [find?_bareDb]
    rfl
  · rintro ⟨_, _, hfresh, haccepted⟩
    obtain ⟨hprecheck, revision, hrevision, hchecks, -, -, billable, hfold, -⟩ :=
      (recordAttempt_eq_ok_of_fresh hfresh).mp haccepted
    exact ⟨hprecheck, ⟨revision, hrevision, hchecks⟩,
      foldlM_insertBillable_ok.mp ⟨billable, hfold⟩⟩

/-! ## What the tracker builds -/

theorem storableCost_calculatorVersion (cost : ObservedCatalogCost) :
    (storableCost cost).calculatorVersion = cost.calculatorVersion := by
  unfold storableCost
  split
  · rfl
  · split <;> rfl

theorem attemptCost_calculatorVersion (spec : AttemptSpec) (state : AttemptState)
    (observation : ProviderUsageObservation) (price : PriceResolution) :
    (attemptCost spec state observation price).calculatorVersion = calculatorVersion := by
  unfold attemptCost
  split
  · rfl
  · cases price with
    | resolved =>
      simp only [computeObservedCatalogCost, costOfRecord]
      split <;> rfl
    | _ => rfl

/-- A raw count is a signed 64-bit integer, so what is billed from it fits the column. -/
theorem pushBillableTokens_storable {billable : List BillableObservation}
    (code : BillableComponentCode) (raw : Option I64) (warnings : Warnings)
    (h : ∀ observation ∈ billable, StorableBillable attemptId observation) :
    ∀ observation ∈ (pushBillableTokens billable code raw warnings).1,
      StorableBillable attemptId observation := by
  unfold pushBillableTokens
  rcases raw with _ | value
  · exact h
  · rcases hcount : u64TryFrom value with _ | quantity
    · simpa [hcount] using h
    · by_cases hzero : quantity.val = 0
      · simpa [hcount, hzero] using h
      · simp only [hcount, hzero, if_false, List.forall_mem_append, List.forall_mem_singleton]
        have hval : value.val = quantity.val := tryFrom_eq_some.mp hcount
        refine ⟨h, value, by simp [storableQuantity, ← hval], ?_,
          by simp [billableRow, billableUnitStr], hval ▸ quantity.le⟩
        show billableCodeStr code ∈ _
        cases code <;> decide

theorem normalizeUsage_billable_storable (attemptId : String) (fields : Option RawUsageFields)
    (contract : UsageContractSnapshot) :
    ∀ observation ∈ (normalizeUsage fields contract).billable,
      StorableBillable attemptId observation := by
  rcases fields with _ | fields
  · simp [normalizeUsage, noUsageObservation]
  · exact pushBillableTokens_storable _ _ _ (pushBillableTokens_storable _ _ _ (by simp))

theorem attemptObservation_billable (spec : AttemptSpec) (state : AttemptState)
    (pricedFromReported : Bool) :
    (attemptObservation spec state pricedFromReported).billable =
      (normalizeUsage state.rawUsage.join spec.contract).billable := by
  simp only [attemptObservation]
  split <;> rfl

/-- An attempt that was not sent is recorded without usage and without a cost. -/
theorem nothingRecorded_attemptFacts {attempt : AttemptTracker} (requestId : String)
    (completedAtMs : ℤ) (hunsent : attempt.state.evidence = .notInvoked)
    (husage : attempt.state.rawUsage = none) :
    NothingRecorded (attemptFacts requestId attempt completedAtMs) := by
  simp only [NothingRecorded, attemptFacts, attemptCost, attemptObservation, hunsent, husage,
    if_true, Option.join_none, normalizeUsage]
  refine ⟨rfl, ?_⟩
  split <;> exact ⟨rfl, rfl, rfl⟩

/-- What is left to check of the facts a coherent attempt reports. -/
theorem storable_attemptFacts (attempt : AttemptTracker) (requestId : String) (completedAtMs : ℤ)
    (hsequence : 1 ≤ attempt.sequence.val) (hcoherent : attempt.state.Coherent) :
    Storable (attemptFacts requestId attempt completedAtMs) ↔
      1 ≤ attempt.spec.contract.contractVersion.val ∧
        1 ≤ attempt.spec.contract.normalizationVersion.val ∧
        attempt.spec.credentialIdentityRevision.val < 2 ^ 63 ∧
        attempt.state.failoverReason ≠ some .capacityExhausted ∧
        ∀ at_ ∈ attempt.state.firstTokenAtMs,
          attempt.startedAtMs ≤ at_ ∧ at_ ≤ completedAtMs := by
  have hnothing : attempt.state.evidence = .notInvoked →
      NothingRecorded (attemptFacts requestId attempt completedAtMs) := fun hunsent =>
    nothingRecorded_attemptFacts requestId completedAtMs hunsent (hcoherent.unsent hunsent)
  have hfailed : attempt.state.failoverReason ≠ none →
      (attemptFacts requestId attempt completedAtMs).outcome = some .failed := by
    intro hreason
    simp [attemptFacts, hcoherent.failover hreason]
  constructor
  · rintro ⟨-, ⟨revision, hrevision, hchecks⟩, -⟩
    obtain ⟨-, -, hfirst, hcontract, hnorm, -, -, hreason, -⟩ := attemptRow_checks.mp hchecks
    have hval := tryFrom_eq_some.mp hrevision
    exact ⟨hcontract, hnorm, hval.trans_lt revision.lt, hreason, hfirst⟩
  · rintro ⟨hcontract, hnorm, hrevision, hreason, hfirst⟩
    have hnonneg := attempt.spec.credentialIdentityRevision.le
    refine ⟨attemptPrecheck_eq_ok.mpr ⟨hnothing, hfailed⟩, ?_, ?_⟩
    · refine ⟨⟨attempt.spec.credentialIdentityRevision.val, by omega, hrevision⟩,
        tryFrom_eq_some.mpr rfl, attemptRow_checks.mpr
          ⟨hsequence, hnonneg, hfirst, hcontract, hnorm, ?_, hnothing, hreason, ?_⟩⟩
      · rw [storableCost_calculatorVersion]
        simp [attemptFacts, attemptCost_calculatorVersion, calculatorVersion]
      · by_cases hnone : attempt.state.failoverReason = none
        · exact .inl hnone
        · refine .inr fun outcome houtcome => ?_
          rw [hfailed hnone] at houtcome
          exact (Option.some.inj houtcome).symm
    · intro observation hobservation
      simp only [attemptFacts, attemptObservation_billable] at hobservation
      exact normalizeUsage_billable_storable _ _ _ observation hobservation

/-- What the tracker's inputs must meet for its facts to be storable: versions the columns take, a
revision the column holds, no capacity-exhausted failover, and a clock that places the first token
between the opening of the attempt and its close. -/
structure AcceptableLife (spec : AttemptSpec) (openedAtMs : ℤ) (events : List TimedEvent) :
    Prop where
  contractVersion : 1 ≤ spec.contract.contractVersion.val
  normalizationVersion : 1 ≤ spec.contract.normalizationVersion.val
  revision : spec.credentialIdentityRevision.val < 2 ^ 63
  failover : ∀ event ∈ events, ∀ answered, event.1 ≠ .failed answered (some .capacityExhausted)
  clock : ∀ first ∈ firstTokenReading events, ∀ closed ∈ closeReading events,
    openedAtMs ≤ first ∧ first ≤ closed

/-- The facts an attempt reports in the state its life closes in. -/
def closingFacts (requestId : String) (attempt : AttemptTracker) (before : List TimedEvent)
    (event : TimedEvent) : AttemptFacts :=
  attemptFacts requestId
    { attempt with state := ({} : AttemptState).applyAll (before ++ [event]) } event.2

section Closing

variable {events before rest : List TimedEvent} {event : TimedEvent}

theorem submitted_of_closing (attempt : AttemptTracker) (requestId : String)
    (hfresh : attempt.state = {}) (hclosing : Closing events before event rest) :
    attempt.submitted requestId events = [closingFacts requestId attempt before event] := by
  rw [hclosing.events_eq, AttemptTracker.submitted_close requestId rest (by rw [hfresh])
    hclosing.before_open hclosing.closes]
  simp [closingFacts, AttemptState.applyAll, hfresh]

theorem storable_closingFacts (attempt : AttemptTracker) (requestId : String)
    (hsequence : 1 ≤ attempt.sequence.val) (hclosing : Closing events before event rest) :
    Storable (closingFacts requestId attempt before event) ↔
      AcceptableLife attempt.spec attempt.startedAtMs events := by
  have hreason := hclosing.failover .capacityExhausted
  rw [closingFacts, storable_attemptFacts
    { attempt with state := ({} : AttemptState).applyAll (before ++ [event]) } requestId event.2
    hsequence hclosing.coherent, hclosing.firstTokenAtMs]
  constructor
  · rintro ⟨hcontract, hnorm, hrevision, hcapacity, hfirst⟩
    refine ⟨hcontract, hnorm, hrevision, ?_, ?_⟩
    · intro e he answered heq
      exact hcapacity (hreason.mpr ⟨e, he, answered, heq⟩)
    · intro first hmem closed hclosed
      rw [hclosing.closeReading] at hclosed
      cases hclosed
      exact hfirst first hmem
  · rintro ⟨hcontract, hnorm, hrevision, hcapacity, hclock⟩
    refine ⟨hcontract, hnorm, hrevision, ?_, ?_⟩
    · intro hsome
      obtain ⟨e, he, answered, heq⟩ := hreason.mp hsome
      exact hcapacity e he answered heq
    · exact fun first hmem => hclock first hmem event.2 hclosing.closeReading

end Closing

/-- Every life of an attempt submits one set of facts, and storage can take it exactly when the
life is acceptable.  Otherwise no database that does not hold the attempt yet takes it, however
often it is submitted. -/
theorem attempt_accepted_iff (start : LogicalRequestStart) (catalog : Option CatalogSnapshot)
    (state : LogicalState) (spec : AttemptSpec) (openedAtMs : ℤ) (events : List TimedEvent)
    (hissued : Issued events) :
    ∃ facts,
      (state.openAttempt start catalog spec openedAtMs).1.submitted start.requestId events =
          [facts] ∧
        (Storable facts ↔ AcceptableLife spec openedAtMs events) ∧
        ((∃ db db', db.attempts.find? facts.attemptId = none ∧
            recordAttempt db facts = .ok db') ↔
          AcceptableLife spec openedAtMs events) := by
  obtain ⟨_, _, _, hclosing⟩ := hissued.closing
  let attempt := (state.openAttempt start catalog spec openedAtMs).1
  have hsubmitted := submitted_of_closing attempt start.requestId rfl hclosing
  have hstorable := storable_closingFacts attempt start.requestId state.nextSequence_pos hclosing
  exact ⟨_, hsubmitted, hstorable, storable_iff_accepted.symm.trans hstorable⟩

/-- A life that is not acceptable ends in facts that storage refuses whenever they are new to it. -/
theorem refused_of_not_acceptable (start : LogicalRequestStart) (catalog : Option CatalogSnapshot)
    (state : LogicalState) {spec : AttemptSpec} {openedAtMs : ℤ} {events : List TimedEvent}
    (hissued : Issued events) (hnot : ¬AcceptableLife spec openedAtMs events) :
    ∃ facts,
      (state.openAttempt start catalog spec openedAtMs).1.submitted start.requestId events =
          [facts] ∧
        ∀ db, db.attempts.find? facts.attemptId = none →
          ∃ error, recordAttempt db facts = .error error := by
  obtain ⟨before, event, _, hclosing⟩ := hissued.closing
  let attempt := (state.openAttempt start catalog spec openedAtMs).1
  refine ⟨_, submitted_of_closing attempt start.requestId rfl hclosing, fun db hfresh => ?_⟩
  rcases hrecord : recordAttempt db (closingFacts start.requestId attempt before event) with
    error | db'
  · exact ⟨error, rfl⟩
  · have hstorable := storable_iff_accepted.mpr ⟨db, db', hfresh, hrecord⟩
    exact absurd
      ((storable_closingFacts attempt start.requestId state.nextSequence_pos hclosing).mp hstorable)
      hnot

/-- The upstream answers that it has no capacity. -/
def capacityLife : List TimedEvent :=
  [(.failed true (some .capacityExhausted), 20), (.dropped, 30)]

/-- The clock steps back between the opening of an attempt at 10 and its first token. -/
def steppedBackLife : List TimedEvent :=
  [(.streamOpened, 11), (.firstTokenObserved, 5), (.finished none, 12), (.dropped, 13)]

/-- Two lives of the runtime whose facts no database takes. -/
theorem wedging_lives :
    (Issued capacityLife ∧ ∃ facts,
      (({} : LogicalState).openAttempt sampleStart none sampleSpec 10).1.submitted
          sampleStart.requestId capacityLife = [facts] ∧
        ∀ db, db.attempts.find? facts.attemptId = none →
          ∃ error, recordAttempt db facts = .error error) ∧
      Issued steppedBackLife ∧ ∃ facts,
        (({} : LogicalState).openAttempt sampleStart none sampleSpec 10).1.submitted
            sampleStart.requestId steppedBackLife = [facts] ∧
          ∀ db, db.attempts.find? facts.attemptId = none →
            ∃ error, recordAttempt db facts = .error error := by
  have hcapacity : Issued capacityLife := .failed true (some .capacityExhausted) 20 30
  have hsteppedBack : Issued steppedBackLife :=
    .finished 11 [(.firstTokenObserved, 5)] (by decide) none none 12 13
  refine ⟨⟨hcapacity, refused_of_not_acceptable sampleStart none {} hcapacity fun h => ?_⟩,
    hsteppedBack, refused_of_not_acceptable sampleStart none {} hsteppedBack fun h => ?_⟩
  · exact h.failover (.failed true (some .capacityExhausted), 20) (by decide) true rfl
  · exact absurd (h.clock 5 rfl 12 rfl).1 (by decide)

/-- A life that is accepted: the stream is read to its end. -/
def readLife : List TimedEvent :=
  [(.streamOpened, 11), (.firstTokenObserved, 12), (.finished none, 13), (.dropped, 14)]

theorem attempt_accepted_iff_read :
    Issued readLife ∧ ∃ facts,
      (({} : LogicalState).openAttempt sampleStart none sampleSpec 10).1.submitted
          sampleStart.requestId readLife = [facts] ∧
        (Storable facts ↔ AcceptableLife sampleSpec 10 readLife) ∧
        ((∃ db db', db.attempts.find? facts.attemptId = none ∧
            recordAttempt db facts = .ok db') ↔
          AcceptableLife sampleSpec 10 readLife) := by
  have hissued : Issued readLife :=
    .finished 11 [(.firstTokenObserved, 12)] (by decide) none none 13 14
  exact ⟨hissued, attempt_accepted_iff sampleStart none {} sampleSpec 10 readLife hissued⟩

end ProviderCore.Storage
