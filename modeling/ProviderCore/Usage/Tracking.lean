import ProviderCore.Usage.Facts

/-!
# Request tracking

The in-memory reducer of `provider-usage/src/tracking.rs`.  A logical tracker holds the state of
one request, an attempt tracker that of one upstream call; both are mutated only under their own
lock, so each method is a function on the state.  Reading the clock is an argument: a method that
reads it takes the reading.

A method of an attempt tracker is split as the source splits it: `AttemptEvent.apply` is what it
does to the attempt's state, `AttemptEvent.closes` says whether it ends in `close`, and `close`
builds the facts, which `handle` reports to the logical tracker.  `none` from `noteQuotaResult`
is the panic of its `expect`.
-/

namespace ProviderCore.Usage

/-! ## Attempts -/

/-- What an attempt knows before it is dispatched. -/
structure AttemptSpec where
  provider : ProviderKind
  accountId : String
  credentialIdentityRevision : U64
  configuredModel : Option String
  pricingModelAlias : Option String
  contract : UsageContractSnapshot
  price : PriceResolution
  reportedModelPricing : Option ProviderModelPricingLookup

structure AttemptState where
  evidence : DispatchEvidence := .notInvoked
  /-- `none` until the response reported; `some none` if it ended without usage. -/
  rawUsage : Option (Option RawUsageFields) := none
  providerReportedModel : Option String := none
  firstTokenAtMs : Option ℤ := none
  tracking : TrackingState := .complete
  successTerminal : Bool := false
  outcome : Option AttemptOutcome := none
  failoverReason : Option AttemptFailoverReason := none
  closed : Bool := false
deriving DecidableEq

structure AttemptTracker where
  attemptId : String
  sequence : U32
  spec : AttemptSpec
  startedAtMs : ℤ
  /-- The catalog as it was when the request was started. -/
  catalogSnapshot : Option CatalogSnapshot
  state : AttemptState

/-- Why another account may be tried (`provider-core/src/provider.rs`). -/
inductive ProviderFailoverReason
  | authenticationExhausted
  | quotaExhausted
  | rateLimited
  | capacityExhausted
  | preconnectFailure
deriving DecidableEq

def mapFailoverReason : ProviderFailoverReason → AttemptFailoverReason
  | .authenticationExhausted => .authenticationExhausted
  | .quotaExhausted => .quotaExhausted
  | .rateLimited => .rateLimited
  | .capacityExhausted => .capacityExhausted
  | .preconnectFailure => .preconnectFailure

/-- The methods of `AttemptTracking`, and the drop of the tracker. -/
inductive AttemptEvent
  | streamOpened
  | firstTokenObserved
  | successTerminalObserved
  | providerModelObserved (model : String)
  | observationLost
  | finished (fields : Option RawUsageFields)
  | cancelled (fields : Option RawUsageFields)
  | failed (answered : Bool) (failoverReason : Option ProviderFailoverReason)
  | dropped
deriving DecidableEq

def rank : DispatchEvidence → ℕ
  | .notInvoked => 0
  | .dispatchInvoked => 1
  | .responseObserved => 2

/-- Evidence only moves forward. -/
def AttemptState.advance (state : AttemptState) (evidence : DispatchEvidence) : AttemptState :=
  if rank state.evidence < rank evidence then { state with evidence := evidence } else state

/-- The first recorded usage wins. -/
def AttemptState.recordUsage (state : AttemptState) (raw : Option RawUsageFields) : AttemptState :=
  if state.rawUsage = none then { state with rawUsage := some raw } else state

/-- What a method does to the attempt's state before it closes, if it closes. -/
def AttemptEvent.apply (nowMs : ℤ) (state : AttemptState) : AttemptEvent → AttemptState
  | .streamOpened => state.advance .responseObserved
  | .firstTokenObserved =>
    if state.firstTokenAtMs = none then { state with firstTokenAtMs := some nowMs } else state
  | .successTerminalObserved => { state with successTerminal := true }
  | .providerModelObserved model =>
    if state.providerReportedModel = none then
      { state with providerReportedModel := some model }
    else state
  | .observationLost => { state with tracking := .gap .observationLost }
  | .finished fields => state.recordUsage fields
  | .cancelled fields =>
    let state := state.recordUsage fields
    let state :=
      if state.tracking = .complete then { state with tracking := .gap .ambiguousCancel }
      else state
    { state with outcome := some .cancelled }
  | .failed answered failoverReason =>
    let state := state.advance (if answered then .responseObserved else .dispatchInvoked)
    { state with
      outcome := some .failed
      failoverReason := failoverReason.map mapFailoverReason }
  | .dropped =>
    if state.closed then state
    else { state with tracking := .gap .ambiguousCancel, outcome := some .cancelled }

/-- Whether a method ends in `close`. -/
def AttemptEvent.closes : AttemptEvent → Bool
  | .finished _ | .cancelled _ | .failed _ _ | .dropped => true
  | _ => false

def reportedModelMatches (provider : ProviderKind) (configured reported : String) : Bool :=
  configured = reported ∨
    (provider = .grok ∧ Text.stripSuffix reported "-build" = some configured)

/-- Whether the provider's answer contradicts the model the attempt was priced for. -/
def modelDisagrees (provider : ProviderKind) (configured reported : Option String) : Bool :=
  match configured, reported with
  | some configured, some reported =>
    !reportedModelMatches provider (Text.trim configured) (Text.trim reported)
  | _, _ => false

/-- What the attempt proved about the upstream side. -/
def AttemptState.executionOutcome (state : AttemptState) : ExecutionOutcome :=
  if !state.evidence.isConfirmedDispatch then .stableFailure
  else if state.successTerminal then .stableSuccessTerminal
  else .eofWithoutSuccessTerminal

/-- The observation of a closing attempt, with the mismatch warning if its price is not the
served model's. -/
def attemptObservation (spec : AttemptSpec) (state : AttemptState) (pricedFromReported : Bool) :
    ProviderUsageObservation :=
  let observation := normalizeUsage state.rawUsage.join spec.contract
  if modelDisagrees spec.provider spec.configuredModel state.providerReportedModel &&
      !pricedFromReported && .providerModelMismatch ∉ observation.warnings then
    { observation with warnings := observation.warnings ++ [.providerModelMismatch] }
  else observation

/-- The cost of a closing attempt; an attempt that was not sent is not priced. -/
def attemptCost (spec : AttemptSpec) (state : AttemptState)
    (observation : ProviderUsageObservation) (price : PriceResolution) : ObservedCatalogCost :=
  if state.evidence = .notInvoked then .notDispatched
  else computeObservedCatalogCost observation spec.contract price

def attemptFacts (requestId : String) (attempt : AttemptTracker) (completedAtMs : ℤ) :
    AttemptFacts :=
  let spec := attempt.spec
  let state := attempt.state
  let (price, pricedFromReported) :=
    resolveAttemptPrice spec.price state.providerReportedModel spec.pricingModelAlias
      spec.reportedModelPricing attempt.catalogSnapshot
  let observation := attemptObservation spec state pricedFromReported
  { attemptId := attempt.attemptId
    logicalRequestId := requestId
    sequence := attempt.sequence
    provider := spec.provider
    accountId := spec.accountId
    credentialIdentityRevision := spec.credentialIdentityRevision
    configuredModel := spec.configuredModel
    providerReportedModel := state.providerReportedModel
    startedAtMs := attempt.startedAtMs
    firstTokenAtMs := state.firstTokenAtMs
    completedAtMs := completedAtMs
    outcome := some (state.outcome.getD (if state.successTerminal then .succeeded else .failed))
    failoverReason := state.failoverReason
    dispatchEvidence := state.evidence
    tracking := state.tracking
    contract := spec.contract
    observation := observation
    price := price
    cost := attemptCost spec state observation price }

/-- Close an attempt, exactly once: the attempt, and the facts if this call closed it. -/
def AttemptTracker.close (requestId : String) (attempt : AttemptTracker) (nowMs : ℤ) :
    AttemptTracker × Option AttemptFacts :=
  if attempt.state.closed then (attempt, none)
  else
    -- The usage is taken out of the attempt when it closes.
    ({ attempt with state := { attempt.state with closed := true, rawUsage := none } },
      some (attemptFacts requestId attempt nowMs))

def firstSequence : U32 := .lit 1 (Eq.refl true)

theorem one_le_firstSequence : 1 ≤ firstSequence.val := by decide

/-- One method call on an attempt tracker: the attempt, and the facts if the call closed it. -/
def AttemptTracker.observe (requestId : String) (attempt : AttemptTracker) (event : AttemptEvent)
    (nowMs : ℤ) : AttemptTracker × Option AttemptFacts :=
  let attempt := { attempt with state := event.apply nowMs attempt.state }
  if event.closes then attempt.close requestId nowMs else (attempt, none)

/-! ## Requests -/

structure LogicalState where
  startGap : Option TrackingGapReason := none
  nextSequence : U32 := firstSequence
  /-- Attempts are numbered from one. -/
  nextSequence_pos : 1 ≤ nextSequence.val := by exact one_le_firstSequence
  finalAttemptId : Option String := none
  finalAttemptSequence : Option U32 := none
  finalAttemptExecution : Option ExecutionOutcome := none
  execution : Option ExecutionOutcome := none
  delivery : Option DeliveryOutcome := none
  /-- Whether the place in the quota writer's queue is still held. -/
  quotaPermit : Bool := false
  quotaAtoms : I128 := .lit 0 (Eq.refl true)
  quotaDispatched : Bool := false
  quotaHasCompleteCost : Bool := false
  quotaAttempts : List AttemptFacts := []
  finished : Bool := false
deriving DecidableEq

def LogicalState.openAttempt (start : LogicalRequestStart) (catalog : Option CatalogSnapshot)
    (state : LogicalState) (spec : AttemptSpec) (nowMs : ℤ) : AttemptTracker × LogicalState :=
  let sequence := state.nextSequence
  ({ attemptId := start.requestId ++ "#" ++ toString sequence.val
     sequence := sequence
     spec := spec
     startedAtMs := nowMs
     catalogSnapshot := catalog
     state := {} },
    { state with
      nextSequence := sequence.saturatingAdd 1
      nextSequence_pos := state.nextSequence_pos.trans (sequence.le_saturatingAdd 1) })

section

variable (state : LogicalState)

/-- The memory half of `mark_quota_dispatched`, once the marker is stored. -/
def LogicalState.markQuotaDispatched : LogicalState :=
  { state with quotaDispatched := true }

/-- The first execution outcome wins. -/
def LogicalState.recordExecution (outcome : ExecutionOutcome) : LogicalState :=
  if state.execution = none then { state with execution := some outcome } else state

/-- The first delivery outcome wins. -/
def LogicalState.recordDelivery (outcome : DeliveryOutcome) : LogicalState :=
  if state.delivery = none then { state with delivery := some outcome } else state

/-- The highest-numbered attempt is the final one, whatever the order of closing. -/
def LogicalState.noteFinalAttempt (attemptId : String) (sequence : U32)
    (execution : ExecutionOutcome) : LogicalState :=
  if state.finalAttemptSequence.all fun best => best.val < sequence.val then
    { state with
      finalAttemptSequence := some sequence
      finalAttemptId := some attemptId
      finalAttemptExecution := some execution }
  else state

/-- Account for a closed attempt of a finite-quota request; `none` if the sum leaves 128 bits. -/
def LogicalState.noteQuotaResult (facts : AttemptFacts) : Option LogicalState :=
  if !facts.dispatchEvidence.isConfirmedDispatch then some state else
    let state := { state with
      quotaDispatched := true
      quotaAttempts :=
        if state.quotaPermit then state.quotaAttempts ++ [facts] else state.quotaAttempts }
    if facts.cost.status = .completeForObservedCatalogComponents then
      (state.quotaAtoms.checkedAdd facts.cost.totalKnown).map fun sum =>
        { state with quotaHasCompleteCost := true, quotaAtoms := sum }
    else some state

/-- Only what is known of the quota changes. -/
theorem LogicalState.noteQuotaResult_eq_some {state state' : LogicalState} {facts : AttemptFacts}
    (h : state.noteQuotaResult facts = some state') :
    ∃ quotaAtoms quotaDispatched quotaHasCompleteCost quotaAttempts, state' =
      { state with quotaAtoms, quotaDispatched, quotaHasCompleteCost, quotaAttempts } := by
  unfold LogicalState.noteQuotaResult at h
  split at h
  · cases h
    exact ⟨_, _, _, _, rfl⟩
  · simp only [] at h
    split at h
    · obtain ⟨_, -, rfl⟩ := Option.map_eq_some_iff.mp h
      exact ⟨_, _, _, _, rfl⟩
    · cases h
      exact ⟨_, _, _, _, rfl⟩

/-- Account for a closed attempt: the final attempt first, then the quota. -/
def LogicalState.noteClosed (attempt : AttemptTracker)
    (facts : AttemptFacts) : Option LogicalState :=
  (state.noteFinalAttempt attempt.attemptId attempt.sequence
    attempt.state.executionOutcome).noteQuotaResult facts

end

/-- What `finish` submits: the terminal, and the ledger entry of a finite-quota request. -/
structure Terminal where
  terminal : LogicalRequestTerminal
  quota : Option QuotaLedgerEntry
deriving DecidableEq

def quotaEntry (start : LogicalRequestStart) (state : LogicalState) (nowMs : ℤ) :
    QuotaLedgerEntry where
  entryId := start.requestId
  -- `begin_quota_request` refuses a start without a key, so a held permit has one.
  apiKeyId := start.apiKeyId.getD ""
  dispatched := state.quotaDispatched
  costAtoms := if state.quotaDispatched && state.quotaHasCompleteCost then
    some (toString state.quotaAtoms.val) else none
  resolvedAtMs := nowMs
  attempts := state.quotaAttempts

/-- Commit the logical terminal, exactly once. -/
def LogicalState.finish (start : LogicalRequestStart) (state : LogicalState) (nowMs : ℤ) :
    Option Terminal × LogicalState :=
  if state.finished then (none, state) else
    let execution :=
      (state.execution.or state.finalAttemptExecution).getD .eofWithoutSuccessTerminal
    let delivery := state.delivery.getD .unknown
    let terminal : LogicalRequestTerminal :=
      { requestId := start.requestId
        completedAtMs := nowMs
        status := mergeLogicalTerminal execution delivery
        execution := some execution
        delivery := some delivery
        finalAttemptId := state.finalAttemptId
        tracking := (state.startGap.map TrackingState.gap).getD .complete
        stateVersion := 1 }
    let quota := if state.quotaPermit then some (quotaEntry start state nowMs) else none
    (some ⟨terminal, quota⟩,
      { state with
        finished := true
        quotaPermit := false
        quotaAttempts := if state.quotaPermit then [] else state.quotaAttempts })

/-- The drop of the last handle: a request nobody finished is a client drop. -/
def LogicalState.drop (start : LogicalRequestStart) (state : LogicalState) (nowMs : ℤ) :
    Option Terminal × LogicalState :=
  if state.finished then (none, state)
  else (state.recordDelivery .clientDrop).finish start nowMs

end ProviderCore.Usage
