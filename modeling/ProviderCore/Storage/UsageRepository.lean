import Mathlib.Data.String.Basic
import ProviderCore.Storage.Schema
import ProviderCore.Usage.Writer

/-!
# The usage repository

The write operations of `provider-storage/src/usage/repository.rs` that open, charge and settle a
request.  Each is one immediate transaction on the process's only write connection, so it is a
function from a database to an error or the database it commits; an error leaves the database as
it was.  Recovery is a loop of such transactions and is modelled as one
(`recoverQuotaReservations`).

A statement that a constraint rejects is an error here like any other: an insert first checks its
row, then `ON CONFLICT (id)`, then the other unique index, then the foreign key.
-/

namespace ProviderCore.Storage

open Usage Auth

variable (db : UsageDb)

/-! ## Opening a request -/

/-- The row `insert_logical_request` binds. -/
def startRow (start : LogicalRequestStart) : LogicalRequestRow where
  requestId := start.requestId
  ownerUserId := start.ownerUserId
  apiKeyId := start.apiKeyId
  apiKeyLabel := start.apiKeyLabel
  apiKeyGroupLabels := start.apiKeyGroupLabels
  endpoint := start.endpoint
  clientModelRaw := start.clientModelRaw
  routingModel := start.routingModel
  reasoningEffort := start.reasoningEffort
  startedAtMs := start.startedAtMs
  completedAtMs := none
  logicalStatus := .inProgress
  executionOutcome := none
  deliveryOutcome := none
  finalAttemptId := none
  tracking := .complete
  stateVersion := 0

def insertLogicalRequest (start : LogicalRequestStart) :
    Except UsageRepositoryError (LogicalWriteOutcome × UsageDb) :=
  if start.endpoint = none then
    .error ⟨"new usage requests require an endpoint protocol"⟩
  else if ¬(startRow start).Checks then
    .error ⟨"failed to begin usage logical request"⟩
  else
    match db.requests.find? start.requestId with
    | some _ => .ok (.alreadyKnown, db)
    | none => .ok (.written, { db with requests := db.requests.insertNew (startRow start) })

def beginLogicalRequest (start : LogicalRequestStart) :
    Except UsageRepositoryError (LogicalWriteOutcome × UsageDb) :=
  insertLogicalRequest db start

/-- The row after its terminal update. -/
def LogicalRequestRow.complete (row : LogicalRequestRow) (terminal : LogicalRequestTerminal) :
    LogicalRequestRow :=
  { row with
    completedAtMs := some terminal.completedAtMs
    logicalStatus := terminal.status
    executionOutcome := terminal.execution
    deliveryOutcome := terminal.delivery
    finalAttemptId := terminal.finalAttemptId
    tracking := terminal.tracking
    stateVersion := terminal.stateVersion }

def completeLogicalRequest (terminal : LogicalRequestTerminal) :
    Except UsageRepositoryError (LogicalWriteOutcome × UsageDb) :=
  if terminal.status = .inProgress then
    .error ⟨"refusing to store a non-terminal logical status as terminal"⟩
  else
    match db.requests.find? terminal.requestId with
    | none => .ok (.missingRequest, db)
    | some row =>
      if row.stateVersion < terminal.stateVersion then
        .ok (.written, { db with
          requests := db.requests.modify terminal.requestId (·.complete terminal) fun _ => rfl })
      else .ok (.alreadyKnown, db)

/-- The fresh claim of a quota request. -/
def claimRow (start : LogicalRequestStart) (apiKeyId : String) : LedgerRow where
  entryId := start.requestId
  apiKeyId := apiKeyId
  reservedAtoms := "0"
  settledAtoms := none
  state := .reserved
  reservedAtMs := start.startedAtMs
  resolvedAtMs := none
  dispatchedAtMs := none

def beginQuotaRequest (start : LogicalRequestStart) :
    Except UsageRepositoryError (LogicalWriteOutcome × UsageDb) :=
  match start.apiKeyId with
  | none => .error ⟨"a quota request must belong to an API key"⟩
  | some apiKeyId => do
    let (outcome, db) ← insertLogicalRequest db start
    let db := { db with ledger := db.ledger.insertNew (claimRow start apiKeyId) }
    match db.ledger.find? start.requestId with
    | none => .error ⟨"failed to verify quota accounting claim"⟩
    | some claim =>
      if claim.apiKeyId ≠ apiKeyId then
        .error ⟨"quota accounting claim belongs to a different API key"⟩
      else .ok (outcome, db)

/-- Mark a reserved claim as dispatched; the first marker stays. -/
def LedgerRow.dispatch (row : LedgerRow) (atMs : ℤ) : LedgerRow :=
  { row with dispatchedAtMs := some (row.dispatchedAtMs.getD atMs) }

@[simp] theorem LedgerRow.dispatch_entryId (row : LedgerRow) (atMs : ℤ) :
    (row.dispatch atMs).entryId = row.entryId := rfl

def markQuotaRequestDispatched (requestId : String) (dispatchedAtMs : ℤ) :
    Except UsageRepositoryError UsageDb :=
  match db.ledger.find? requestId with
  | none => .error ⟨"quota accounting claim does not exist"⟩
  | some claim =>
    if claim.state = .reserved then
      .ok { db with
        ledger := db.ledger.modify requestId (·.dispatch dispatchedAtMs)
          (·.dispatch_entryId dispatchedAtMs) }
    else .error ⟨"quota accounting claim is no longer reserved"⟩

/-! ## Spend -/

/-- Add to a key's lifetime spend; a key that is gone is not charged. -/
def addApiKeySpend (apiKeyId atoms : String) : Except UsageRepositoryError UsageDb :=
  match db.apiKeys.find? apiKeyId with
  | none => .ok db
  | some key =>
    match addAtoms key.spentAtoms atoms with
    | .error _ => .error ⟨"API key spend overflowed"⟩
    | .ok next =>
      .ok { db with
        apiKeys := db.apiKeys.modify apiKeyId (fun key => { key with spentAtoms := next })
          fun _ => rfl }

/-! ## Recording an attempt -/

/-- The row `record_attempt` binds. -/
def attemptRow (facts : AttemptFacts) (revision : I64) : AttemptRow :=
  let (values, kinds) := splitObservation facts.observation
  let cost := storableCost facts.cost
  let (trackingState, gapReason) := trackingColumns facts.tracking
  { id := facts.attemptId
    logicalRequestId := facts.logicalRequestId
    sequence := facts.sequence.val
    provider := facts.provider.asStr
    accountId := facts.accountId
    credentialIdentityRevision := revision
    configuredModel := facts.configuredModel
    providerReportedModel := facts.providerReportedModel
    startedAtMs := facts.startedAtMs
    firstTokenAtMs := facts.firstTokenAtMs
    completedAtMs := facts.completedAtMs
    attemptOutcome := facts.outcome.map attemptOutcomeStr
    failoverReason := facts.failoverReason.map attemptFailoverReasonStr
    dispatchEvidence := dispatchEvidenceStr facts.dispatchEvidence
    trackingState := trackingState
    trackingGapReason := gapReason
    contractVersion := facts.contract.contractVersion.val
    normalizationVersion := facts.contract.normalizationVersion.val
    inclusion := facts.contract.inclusion
    cacheCapability := cacheCapabilityStr facts.contract.cacheCapability
    cacheEligibility := cacheEligibilityStr facts.contract.cacheEligibility
    cacheReportingExpectation := cacheReportingStr facts.contract.cacheReportingExpectation
    pricingContextBasis := pricingBasisStr facts.contract.pricingContextBasis
    pricingMode := pricingModeStr facts.contract.pricingMode
    values := values
    tokenKinds := kinds
    normalizationWarnings := facts.observation.warnings.map warningStr
    priceResolution := priceResolutionStr facts.price
    catalogRevision := facts.price.record.bind (·.catalogRevision)
    selectedTier := facts.price.record.bind (·.selectedTier)
    price := facts.price.record
    calculatorVersion := cost.calculatorVersion.val
    costStatus := costStatusStr cost.status
    costAtoms := cost.atoms
    costReasons := cost.reasons.map costReasonStr }

/-- The checks `record_attempt` makes before it opens its transaction. -/
def attemptPrecheck (facts : AttemptFacts) : Except UsageRepositoryError Unit :=
  let values := (splitObservation facts.observation).1
  let cost := storableCost facts.cost
  if facts.dispatchEvidence = .notInvoked ∧
      (cost.status ≠ .unavailable ∨ values.effectiveInput ≠ none ∨ values.output ≠ none ∨
        values.total ≠ none) then
    .error ⟨"a not-invoked attempt cannot carry observed usage or a cost estimate"⟩
  else if facts.failoverReason ≠ none ∧ facts.outcome ≠ some .failed then
    .error ⟨"an attempt failover reason requires a failed attempt outcome"⟩
  else .ok ()

def insertBillable (attemptId : String) (table : Table BillableRow.key)
    (observation : BillableObservation) : Except UsageRepositoryError (Table BillableRow.key) := do
  let quantity ← storableQuantity observation.quantity
  let row : BillableRow :=
    ⟨attemptId, billableCodeStr observation.componentCode, billableUnitStr observation.unit,
      quantity⟩
  if row.Checks then .ok (table.upsert row)
  else .error ⟨"failed to record billable observation"⟩

/-- The key an attempt's cost is charged to here: the one of a request without a quota claim. -/
def unclaimedKey (requestId : String) : Option String :=
  match db.ledger.find? requestId with
  | some _ => none
  | none => (db.requests.find? requestId).bind (·.apiKeyId)

/-- Charge a complete cost, unless a quota claim owns the request's spend. -/
def chargeAttempt (requestId : String) (cost : StorableCost) :
    Except UsageRepositoryError UsageDb :=
  match cost.status, cost.atoms, unclaimedKey db requestId with
  | .completeForObservedCatalogComponents, some atoms, some apiKeyId =>
    addApiKeySpend db apiKeyId (toString atoms.val)
  | _, _, _ => .ok db

/-- What follows an inserted attempt row: its billable observations and its charge. -/
def finishAttempt (facts : AttemptFacts) : Except UsageRepositoryError UsageDb := do
  let billable ← facts.observation.billable.foldlM (insertBillable facts.attemptId) db.billable
  chargeAttempt { db with billable := billable } facts.logicalRequestId (storableCost facts.cost)

/-- Whether another attempt already has this place in its request. -/
def sequenceTaken (row : AttemptRow) : Bool :=
  db.attempts.rows.any fun other =>
    other.row.logicalRequestId = row.logicalRequestId ∧ other.row.sequence = row.sequence

def recordAttempt (facts : AttemptFacts) : Except UsageRepositoryError UsageDb :=
  match attemptPrecheck facts with
  | .error error => .error error
  | .ok () =>
    match (IntRange.tryFrom facts.credentialIdentityRevision.val : Option I64) with
    | none => .error ⟨"credential identity revision exceeds SQLite integer"⟩
    | some revision =>
      if h : (attemptRow facts revision).Checks then
        match db.attempts.find? facts.attemptId with
        -- A redelivered attempt is a no-op.
        | some _ => .ok db
        | none =>
          if sequenceTaken db (attemptRow facts revision) then
            .error ⟨"failed to record usage attempt"⟩
          else
            match db.requests.find? facts.logicalRequestId with
            | none => .error ⟨"failed to record usage attempt"⟩
            | some _ =>
              finishAttempt
                { db with attempts := db.attempts.insertNew ⟨attemptRow facts revision, h⟩ } facts
      else .error ⟨"failed to record usage attempt"⟩

section

variable {facts : AttemptFacts} {db db' : UsageDb}

/-- What it takes to record an attempt that is not there yet: the checks pass, its place in its
request is free, the request exists, and its billable observations and its charge go through. -/
theorem recordAttempt_eq_ok_of_fresh (hfresh : db.attempts.find? facts.attemptId = none) :
    recordAttempt db facts = .ok db' ↔
      attemptPrecheck facts = .ok () ∧
        ∃ revision : I64, IntRange.tryFrom facts.credentialIdentityRevision.val = some revision ∧
        ∃ checks : (attemptRow facts revision).Checks,
          sequenceTaken db (attemptRow facts revision) = false ∧
          (db.requests.find? facts.logicalRequestId).isSome ∧
          ∃ billable,
            facts.observation.billable.foldlM (insertBillable facts.attemptId) db.billable =
              .ok billable ∧
            chargeAttempt
              { db with
                attempts := db.attempts.insertNew ⟨attemptRow facts revision, checks⟩
                billable := billable }
              facts.logicalRequestId (storableCost facts.cost) = .ok db' := by
  unfold recordAttempt
  rcases hprecheck : attemptPrecheck facts with error | ⟨⟩
  · simp
  rcases hrevision : (IntRange.tryFrom facts.credentialIdentityRevision.val : Option I64) with
    _ | revision
  · simp
  by_cases hchecks : (attemptRow facts revision).Checks
  · rcases hrequest : db.requests.find? facts.logicalRequestId with _ | request
    · simp [hchecks, hfresh]
    · rcases hfold : facts.observation.billable.foldlM (insertBillable facts.attemptId)
        db.billable with error | billable <;>
        cases htaken : sequenceTaken db (attemptRow facts revision) <;>
        simp [hchecks, hfresh, htaken, finishAttempt, hfold, bind, Except.bind]
  · simp [hchecks]

/-- A redelivered attempt is refused or ignored. -/
theorem recordAttempt_known (hknown : (db.attempts.find? facts.attemptId).isSome)
    (h : recordAttempt db facts = .ok db') : db' = db := by
  obtain ⟨_, hattempt⟩ := Option.isSome_iff_exists.mp hknown
  unfold recordAttempt at h
  split at h
  · cases h
  · split at h
    · cases h
    · split at h
      · rw [hattempt] at h
        cases h
        rfl
      · cases h

end

/-! ## Settling a claim -/

def LedgerRow.settle (row : LedgerRow) (atoms : String) (atMs : ℤ) : LedgerRow :=
  { row with state := .settled, settledAtoms := some atoms, resolvedAtMs := some atMs }

def LedgerRow.release (row : LedgerRow) (atMs : ℤ) : LedgerRow :=
  { row with state := .released, settledAtoms := none, resolvedAtMs := some atMs }

@[simp] theorem LedgerRow.settle_entryId (row : LedgerRow) (atoms : String) (atMs : ℤ) :
    (row.settle atoms atMs).entryId = row.entryId := rfl

@[simp] theorem LedgerRow.release_entryId (row : LedgerRow) (atMs : ℤ) :
    (row.release atMs).entryId = row.entryId := rfl

def settleClaim (entryId apiKeyId atoms : String) (atMs : ℤ) (rejected : UsageRepositoryError) :
    Except UsageRepositoryError UsageDb :=
  if ¬ValidAtoms atoms then .error rejected
  else
    addApiKeySpend
      { db with
        ledger := db.ledger.modify entryId (·.settle atoms atMs) (·.settle_entryId atoms atMs) }
      apiKeyId atoms

def releaseClaim (entryId : String) (atMs : ℤ) : UsageDb :=
  { db with ledger := db.ledger.modify entryId (·.release atMs) (·.release_entryId atMs) }

def recordQuotaLedgerEntry (entry : QuotaLedgerEntry) : Except UsageRepositoryError UsageDb :=
  match db.ledger.find? entry.entryId with
  | none => .error ⟨"quota reservation does not exist"⟩
  | some reservation =>
    if reservation.apiKeyId ≠ entry.apiKeyId then
      .error ⟨"quota reservation belongs to a different API key"⟩
    else if reservation.state ≠ .reserved then .ok db
    else
      match entry.costAtoms with
      | some settledAtoms =>
        if !entry.dispatched || reservation.dispatchedAtMs.isNone then
          .error ⟨"an undispatched quota reservation cannot carry a cost"⟩
        else
          settleClaim db entry.entryId entry.apiKeyId settledAtoms entry.resolvedAtMs
            ⟨"failed to settle quota reservation"⟩
      | none => .ok (releaseClaim db entry.entryId entry.resolvedAtMs)

/-! ## Recovery at startup -/

def recoveryBatch : ℕ := 100

def reservedClaims : List LedgerRow :=
  (db.ledger.rows.filter fun row => row.state = .reserved).insertionSort
    fun a b => a.entryId ≤ b.entryId

/-- The recorded complete costs of a request, in sequence order. -/
def recordedCosts (requestId : String) : List (Option I64) :=
  ((db.attempts.rows.filter fun attempt =>
      attempt.row.logicalRequestId = requestId ∧
        attempt.row.costStatus = "complete_for_observed_catalog_components").insertionSort
    fun a b => a.row.sequence ≤ b.row.sequence).map (·.row.costAtoms)

/-- Add up recovered costs as digit strings. -/
def sumCosts (costs : List I64) : Except UsageRepositoryError String :=
  costs.foldlM
    (fun settled cost =>
      match addAtoms settled (toString cost.val) with
      | .ok sum => .ok sum
      | .error _ => .error ⟨"recovered quota spend overflowed"⟩)
    "0"

/-- Resolve one abandoned claim from the attempts recorded for it. -/
def recoverClaim (nowMs : ℤ) (db : UsageDb) (claim : LedgerRow) :
    Except UsageRepositoryError UsageDb :=
  match (recordedCosts db claim.entryId).mapM id with
  | none => .error ⟨"failed to load recovered attempt costs"⟩
  | some costs =>
    if costs = [] then .ok (releaseClaim db claim.entryId nowMs)
    else do
      let settledAtoms ← sumCosts costs
      settleClaim db claim.entryId claim.apiKeyId settledAtoms nowMs
        ⟨"failed to settle recovered quota claim"⟩

/-- One recovery transaction: how many claims it resolved, and the database. -/
def recoverClaims (nowMs : ℤ) (db : UsageDb) : Except UsageRepositoryError (ℕ × UsageDb) := do
  let claims := (reservedClaims db).take recoveryBatch
  let db ← claims.foldlM (recoverClaim nowMs) db
  return (claims.length, db)

/-- The recovery loop.  A failed transaction ends it with the earlier ones committed. -/
def recoverLoop (nowMs : ℤ) : ℕ → ℕ → UsageDb → Except UsageRepositoryError ℕ × UsageDb
  | 0, total, db => (.ok total, db)
  | fuel + 1, total, db =>
    match recoverClaims nowMs db with
    | .error error => (.error error, db)
    | .ok (recovered, db') =>
      if recovered = 0 then (.ok total, db)
      else if recovered < recoveryBatch then (.ok (total + recovered), db')
      else recoverLoop nowMs fuel (total + recovered) db'

/-- Resolve every claim a previous process left reserved.  A transaction that does not end the
loop resolves at least one, so the number of claims bounds the rounds. -/
def recoverQuotaReservations (nowMs : ℤ) : Except UsageRepositoryError ℕ × UsageDb :=
  recoverLoop nowMs ((reservedClaims db).length + 1) 0 db

/-! ## Requests left in flight -/

/-- The requests that are in progress, by request id. -/
def inFlightRequests : List LogicalRequestRow :=
  (db.requests.rows.filter fun row => row.logicalStatus = .inProgress).insertionSort
    fun a b => a.requestId ≤ b.requestId

def ownerCounts (rows : List LogicalRequestRow) : Tally String :=
  rows.foldl (fun counts row => Tally.add counts row.ownerUserId 1) .empty

/-- The gap counter of an owner's discarded requests. -/
def recoveredGapKey (nowMs : ℤ) (ownerUserId : String) : GapRowKey :=
  (ownerUserId, gapReasonStr .recoveredInFlight, gapBucket nowMs)

/-- Add the counts to the owners' gaps, by owner. -/
def addRecoveredGaps (nowMs : ℤ) (counts : Tally String) (gaps : Tally GapRowKey) :
    Tally GapRowKey :=
  (counts.rows.insertionSort fun a b => a.1 ≤ b.1).foldl
    (fun gaps owned => Tally.add gaps (recoveredGapKey nowMs owned.1) owned.2) gaps

def attemptsOf (requestIds : List String) : List String :=
  (db.attempts.rows.filter fun attempt => attempt.row.logicalRequestId ∈ requestIds).map (·.id)

/-- Delete requests, and by `ON DELETE CASCADE` their attempts with their observations. -/
def deleteRequests (requestIds : List String) : UsageDb :=
  { db with
    requests := db.requests.filter fun row => row.requestId ∉ requestIds
    attempts := db.attempts.filter fun attempt => attempt.row.logicalRequestId ∉ requestIds
    billable := db.billable.filter fun row => row.attemptId ∉ attemptsOf db requestIds }

/-- One transaction: how many requests it discarded, and the database. -/
def discardInFlight (nowMs : ℤ) (db : UsageDb) : ℕ × UsageDb :=
  let rows := (inFlightRequests db).take recoveryBatch
  if rows = [] then (0, db)
  else
    let counts := ownerCounts rows
    let db := { db with gaps := addRecoveredGaps nowMs counts db.gaps }
    -- The statement selects its rows again.
    let discarded := (inFlightRequests db).take recoveryBatch
    (counts.sum Prod.snd, deleteRequests db (discarded.map LogicalRequestRow.requestId))

def discardLoop (nowMs : ℤ) : ℕ → ℕ → UsageDb → ℕ × UsageDb
  | 0, total, db => (total, db)
  | fuel + 1, total, db =>
    let (recovered, db') := discardInFlight nowMs db
    if recovered = 0 then (total, db)
    else if recovered < recoveryBatch then (total + recovered, db')
    else discardLoop nowMs fuel (total + recovered) db'

/-- Discard every request a previous process left in progress and count it as a gap.  The number
of requests bounds the rounds. -/
def recoverInFlightRequests (nowMs : ℤ) : ℕ × UsageDb :=
  discardLoop nowMs ((inFlightRequests db).length + 1) 0 db

/-- What startup does before it serves: how many claims and requests it recovered. -/
def recoverAtStartup (quotaNowMs usageNowMs : ℤ) : Except UsageRepositoryError (ℕ × ℕ) × UsageDb :=
  match recoverQuotaReservations db quotaNowMs with
  | (.error error, db) => (.error error, db)
  | (.ok recoveredQuota, db) =>
    let (recovered, db) := recoverInFlightRequests db usageNowMs
    (.ok (recoveredQuota, recovered), db)

end ProviderCore.Storage
