import ProviderCore.Storage.LoadAttempts

/-!
# Reading usage

The statements of `usage_query.rs`.  All of them start from the requests of one owner, joined with
the final attempt of each: `scopedFrom` keeps those with usage, `scopedDispatchedRequestsFrom` all
that were sent upstream.  The numbers of rows are natural numbers; sums are those of SQL, which
fail if they leave 64 bits on the way.

Whatever the other owners' rows are, the reports are the same (`usage_reports_isolated`).
-/

namespace ProviderCore.Storage

open Usage List

structure TimeRange where
  fromMs : ℤ
  toMs : ℤ
deriving DecidableEq

structure UsageScope where
  ownerUserId : String
  apiKeyId : Option String := none
  clientModel : Option String := none
  groupLabel : Option String := none
  range : TimeRange
deriving DecidableEq

/-! ## Scoped rows -/

section

variable (db : UsageDb) (scope : UsageScope)

/-- The filters that both sources share. -/
def UsageScope.covers (request : LogicalRequestRow) : Bool :=
  request.ownerUserId = scope.ownerUserId &&
    scope.apiKeyId.all (request.apiKeyId = some ·) &&
    scope.clientModel.all (request.clientModelRaw = some ·) &&
    scope.groupLabel.all (fun label => request.apiKeyGroupLabels.any (label ∈ ·)) &&
    request.completedAtMs.any fun atMs => scope.range.fromMs ≤ atMs && atMs < scope.range.toMs

/-- The join with the final attempt. -/
def finalAttempt (request : LogicalRequestRow) : Option StoredAttempt :=
  (request.finalAttemptId.bind db.attempts.find?).filter
    (·.row.logicalRequestId = request.requestId)

/-- Some token count or billable quantity is positive. -/
def hasUsage (attempt : StoredAttempt) : Bool :=
  let values := attempt.row.values
  [values.uncachedInput, values.cacheReadInput, values.cacheWriteInput, values.effectiveInput,
      values.output, values.reasoning, values.inputAudio, values.outputAudio, values.total].any
      (·.any (0 < ·.val)) ||
    db.billable.rows.any fun row => row.attemptId = attempt.id && 0 < row.quantity.val

/-- The final attempts of the successful requests. -/
def scopedFrom : List AttemptRow :=
  (db.requests.rows.filter fun request =>
      scope.covers request && request.logicalStatus ∈ [.succeeded, .incomplete]).filterMap
    fun request => ((finalAttempt db request).filter (hasUsage db)).map StoredAttempt.row

/-- Was an attempt of the request sent upstream? -/
def dispatched (request : LogicalRequestRow) : Bool :=
  db.attempts.rows.any fun attempt => attempt.row.logicalRequestId = request.requestId &&
    attempt.row.dispatchEvidence ≠ "not_invoked"

def scopedDispatchedRequestsFrom : List LogicalRequestRow :=
  db.requests.rows.filter fun request =>
    scope.covers request && request.logicalStatus ≠ .inProgress && dispatched db request

/-! ## Totals -/

/-- `COALESCE(SUM(..), 0)` -/
def sqlSum (values : List ℤ) : Option I64 :=
  values.foldlM (fun total value => IntRange.tryFrom (total.val + value)) (.lit 0 (Eq.refl true))

def atomSplit : ℤ := 1000000

def isComplete (row : AttemptRow) : Bool :=
  row.costStatus = "complete_for_observed_catalog_components"

/-- The atoms of the complete costs. -/
def completeAtoms (rows : List AttemptRow) : List ℤ :=
  (rows.filter isComplete).filterMap fun row => row.costAtoms.map IntRange.val

/-- `TOTALS_COLUMNS` -/
structure TotalsRow where
  cacheReadInput : I64
  effectiveInput : I64
  output : I64
  completeHigh : I64
  completeLow : I64
  completeAttempts : ℕ
deriving DecidableEq

section

variable (rows : List AttemptRow)

def column (read : StoredValues → Option I64) : List ℤ :=
  rows.filterMap fun row => (read row.values).map IntRange.val

def totalsRow : Option TotalsRow := do
  let cacheReadInput ← sqlSum (column rows (·.cacheReadInput))
  let effectiveInput ← sqlSum (column rows (·.effectiveInput))
  let output ← sqlSum (column rows (·.output))
  let completeHigh ← sqlSum ((completeAtoms rows).map (·.tdiv atomSplit))
  let completeLow ← sqlSum ((completeAtoms rows).map (·.tmod atomSplit))
  return ⟨cacheReadInput, effectiveInput, output, completeHigh, completeLow,
    (rows.filter isComplete).length⟩

/-- The attempts that report both sides of the ratio. -/
def cacheReported : List AttemptRow :=
  rows.filter fun row => row.values.effectiveInput.isSome && row.values.cacheReadInput.isSome

/-- `CACHE_COLUMNS` -/
def cacheRow : Option (I64 × I64) := do
  let reportedInput ← sqlSum (column (cacheReported rows) (·.effectiveInput))
  let readInput ← sqlSum (column (cacheReported rows) (·.cacheReadInput))
  return (reportedInput, readInput)

end

structure TokenTotals where
  cacheReadInput : U64
  effectiveInput : U64
  output : U64
deriving DecidableEq

structure CacheTotals where
  reportedInputTokens : U64
  cacheReadInputTokens : U64
deriving DecidableEq

def count (value : I64) (column : String) : Except UsageRepositoryError U64 :=
  orError s!"usage count {column} is negative" (IntRange.tryFrom value.val)

def tokenTotals (row : TotalsRow) : Except UsageRepositoryError TokenTotals := do
  return ⟨← count row.cacheReadInput "cache_read_input",
    ← count row.effectiveInput "effective_input", ← count row.output "output"⟩

def cacheTotals (row : I64 × I64) : Except UsageRepositoryError CacheTotals := do
  let reportedInputTokens ← count row.1 "cache_reported_input"
  let cacheReadInputTokens ← count row.2 "cache_rate_read_input"
  if reportedInputTokens.val < cacheReadInputTokens.val then
    .error ⟨"cache-read tokens exceed reported input tokens"⟩
  else return ⟨reportedInputTokens, cacheReadInputTokens⟩

def recombineAtoms (high low : I64) : UsdAtoms where
  val := high.val * atomSplit + low.val
  le := by have := high.le; have := low.le; simp only [atomSplit]; omega
  lt := by have := high.lt; have := low.lt; simp only [atomSplit]; omega

/-- The atoms of `CostTotals`. -/
def costTotals (row : TotalsRow) : Option UsdAtoms :=
  if 0 < row.completeAttempts then some (recombineAtoms row.completeHigh row.completeLow) else none

structure UsageOverview where
  logicalRequests : ℕ
  tokens : TokenTotals
  cache : CacheTotals
  cost : Option UsdAtoms
deriving DecidableEq

def overview : Except UsageRepositoryError UsageOverview := do
  let rows := scopedFrom db scope
  let row ← orError "failed to read usage overview" (totalsRow rows)
  let cache ← orError "failed to read usage overview" (cacheRow rows)
  return ⟨(scopedDispatchedRequestsFrom db scope).length, ← tokenTotals row, ← cacheTotals cache,
    costTotals row⟩

/-! ## Lists -/

structure UsageFilterOptions where
  clientModels : List String
  groupLabels : List String
deriving DecidableEq

/-- `SELECT DISTINCT .. ORDER BY value` -/
def distinct (values : List String) : List String := values.dedup.insertionSort (· ≤ ·)

/-- The menus describe the whole range. -/
def filterOptions : UsageFilterOptions :=
  let rows := scopedDispatchedRequestsFrom db { scope with clientModel := none, groupLabel := none }
  ⟨distinct (rows.filterMap (·.clientModelRaw)),
    distinct (rows.flatMap fun request => request.apiKeyGroupLabels.getD [])⟩

structure RequestCursor where
  completedAtMs : ℤ
  requestId : String
deriving DecidableEq

structure RequestSummary where
  requestId : String
  status : LogicalStatus
  apiKeyId : Option String
  apiKeyLabel : Option String
  apiKeyGroupLabels : Option (List String)
  endpoint : Option EndpointProtocol
  clientModelRaw : Option String
  providerReportedModel : Option String
  reasoningEffort : Option String
  startedAtMs : ℤ
  completedAtMs : ℤ
  firstTokenAtMs : Option ℤ
  tokens : TokenTotals
  cost : Option UsdAtoms
deriving DecidableEq

structure RequestPage where
  requests : List RequestSummary
  total : ℕ
  next : Option RequestCursor
deriving DecidableEq

def maxPageSize : ℕ := 200

/-- A row of the list.  The time of the first token is looked up by the attempt's id alone. -/
def requestSummary (request : LogicalRequestRow) : Except UsageRepositoryError RequestSummary := do
  let attempt := (finalAttempt db request).map StoredAttempt.row
  let row ← orError "failed to read usage requests" (totalsRow attempt.toList)
  return {
    requestId := request.requestId
    status := request.logicalStatus
    apiKeyId := request.apiKeyId
    apiKeyLabel := request.apiKeyLabel
    apiKeyGroupLabels := request.apiKeyGroupLabels
    endpoint := request.endpoint
    clientModelRaw := request.clientModelRaw
    providerReportedModel := attempt.bind (·.providerReportedModel)
    reasoningEffort := request.reasoningEffort
    startedAtMs := request.startedAtMs
    completedAtMs := request.completedAtMs.getD 0
    firstTokenAtMs := (request.finalAttemptId.bind db.attempts.find?).bind (·.row.firstTokenAtMs)
    tokens := ← tokenTotals row
    cost := costTotals row }

def LogicalRequestRow.cursor (request : LogicalRequestRow) : RequestCursor :=
  ⟨request.completedAtMs.getD 0, request.requestId⟩

def RequestSummary.cursor (summary : RequestSummary) : RequestCursor :=
  ⟨summary.completedAtMs, summary.requestId⟩

/-- The order of the list, newest first, and the condition on the rows after a cursor. -/
def RequestCursor.Older (a b : RequestCursor) : Prop :=
  a.completedAtMs < b.completedAtMs ∨ a.completedAtMs = b.completedAtMs ∧ a.requestId < b.requestId

instance (a b : RequestCursor) : Decidable (a.Older b) := inferInstanceAs (Decidable (_ ∨ _))

/-- The rows of a page and the one that tells whether there is another. -/
def pageRows (after : Option RequestCursor) (limit : ℕ) : List LogicalRequestRow :=
  (((scopedDispatchedRequestsFrom db scope).filter fun request =>
      after.all fun cursor => request.cursor.Older cursor).insertionSort
    fun a b => ¬a.cursor.Older b.cursor).take (limit + 1)

def requests (after : Option RequestCursor) (limit : ℕ) : Except UsageRepositoryError RequestPage :=
  if limit < 1 ∨ maxPageSize < limit then .error ⟨"usage page size is invalid"⟩
  else do
    let rows := pageRows db scope after limit
    let requests ← (rows.take limit).mapM (requestSummary db)
    let next := if limit < rows.length then requests.getLast?.map RequestSummary.cursor else none
    return ⟨requests, (scopedDispatchedRequestsFrom db scope).length, next⟩

def requestAttempt (requestId : String) : Except UsageRepositoryError (Option AttemptFacts) :=
  match (((scopedDispatchedRequestsFrom db scope).filter (·.requestId = requestId)).filterMap
      (finalAttempt db)).head? with
  | none => .ok none
  | some attempt => (loadAttempt db attempt.row).map some

/-! ## Isolation -/

/-- The owner has the same requests in both databases, with the same attempts and observations.
The rows of other owners may be anything. -/
structure SameOwned (owner : String) (db db' : UsageDb) : Prop where
  requests : db.requests.rows.filter (·.ownerUserId = owner) =
    db'.requests.rows.filter (·.ownerUserId = owner)
  attempts : ∀ request ∈ db.requests.rows, request.ownerUserId = owner →
    db.attempts.rows.filter (·.row.logicalRequestId = request.requestId) =
      db'.attempts.rows.filter (·.row.logicalRequestId = request.requestId)
  billable : ∀ request ∈ db.requests.rows, request.ownerUserId = owner →
    ∀ attempt ∈ db.attempts.rows, attempt.row.logicalRequestId = request.requestId →
      db.billable.rows.filter (·.attemptId = attempt.id) =
        db'.billable.rows.filter (·.attemptId = attempt.id)

/-- A final attempt is one of its own request, as the tracker writes it. -/
def OwnFinalAttempts : Prop :=
  ∀ request ∈ db.requests.rows, ∀ id ∈ request.finalAttemptId, ∀ attempt,
    db.attempts.find? id = some attempt → attempt.row.logicalRequestId = request.requestId

end

section Isolation

variable {db db' : UsageDb} {scope : UsageScope} {request : LogicalRequestRow}
  (h : SameOwned scope.ownerUserId db db')

theorem UsageScope.owner_of_covers (hcovers : scope.covers request = true) :
    request.ownerUserId = scope.ownerUserId := by
  simp only [UsageScope.covers, Bool.and_eq_true, decide_eq_true_eq] at hcovers
  exact hcovers.1.1.1.1

variable {attempt : StoredAttempt}

theorem mem_of_finalAttempt (hfinal : finalAttempt db request = some attempt) :
    attempt ∈ db.attempts.rows ∧ attempt.row.logicalRequestId = request.requestId := by
  obtain ⟨hfind, hown⟩ := Option.filter_eq_some_iff.mp hfinal
  obtain ⟨_, -, hfind⟩ := Option.bind_eq_some_iff.mp hfind
  exact ⟨(Table.find?_eq_some.mp hfind).1, by simpa using hown⟩

include h

theorem SameOwned.finalAttempt_eq (hmem : request ∈ db.requests.rows)
    (howner : request.ownerUserId = scope.ownerUserId) :
    finalAttempt db request = finalAttempt db' request := by
  have hown : db.attempts.filter (·.row.logicalRequestId = request.requestId) =
      db'.attempts.filter (·.row.logicalRequestId = request.requestId) :=
    Table.ext (h.attempts request hmem howner)
  unfold finalAttempt
  rcases request.finalAttemptId with _ | id
  · rfl
  · rw [Option.bind_some, Option.bind_some, ← Table.find?_filter, ← Table.find?_filter, hown]

/-- A filter that asks for the owner sees the same requests. -/
theorem SameOwned.filter_eq {p : LogicalRequestRow → Bool}
    (hp : ∀ request, p request = true → request.ownerUserId = scope.ownerUserId) :
    db.requests.rows.filter p = db'.requests.rows.filter p := by
  have hsplit (l : List LogicalRequestRow) :
      l.filter p = (l.filter (·.ownerUserId = scope.ownerUserId)).filter p := by
    rw [filter_filter]
    refine filter_congr fun request _ => ?_
    rcases hcase : p request with _ | _
    · rfl
    · simp [hp request hcase]
  rw [hsplit, h.requests, ← hsplit]

theorem SameOwned.scopedFrom_eq : scopedFrom db scope = scopedFrom db' scope := by
  have hrows := h.filter_eq (p := fun request =>
    scope.covers request && request.logicalStatus ∈ [.succeeded, .incomplete]) fun request hin =>
      UsageScope.owner_of_covers (Bool.and_eq_true_iff.mp hin).1
  rw [scopedFrom, scopedFrom, ← hrows]
  refine filterMap_congr fun request hin => ?_
  obtain ⟨hmem, hcovers⟩ := mem_filter.mp hin
  have howner := UsageScope.owner_of_covers (Bool.and_eq_true_iff.mp hcovers).1
  rw [← h.finalAttempt_eq hmem howner]
  rcases hfinal : finalAttempt db request with _ | attempt
  · rfl
  · obtain ⟨hattempt, hown⟩ := mem_of_finalAttempt hfinal
    have hbillable := h.billable request hmem howner attempt hattempt hown
    have husage : hasUsage db attempt = hasUsage db' attempt := by
      rw [hasUsage, hasUsage, ← any_filter, hbillable, any_filter]
    rw [Option.filter_some, Option.filter_some, husage]

theorem SameOwned.scopedDispatched_eq :
    scopedDispatchedRequestsFrom db scope = scopedDispatchedRequestsFrom db' scope := by
  have hdispatched : scopedDispatchedRequestsFrom db scope = db.requests.rows.filter fun request =>
      scope.covers request && request.logicalStatus ≠ .inProgress && dispatched db' request := by
    refine filter_congr fun request hmem => ?_
    rcases hcovers : scope.covers request with _ | _
    · rfl
    · rw [dispatched, ← any_filter,
        h.attempts request hmem (UsageScope.owner_of_covers hcovers), any_filter, ← dispatched]
  rw [hdispatched, scopedDispatchedRequestsFrom]
  refine h.filter_eq fun request hin => UsageScope.owner_of_covers ?_
  exact (Bool.and_eq_true_iff.mp (Bool.and_eq_true_iff.mp hin).1).1

/-- The look-up of the first token finds the final attempt itself. -/
theorem SameOwned.requestSummary_eq (hown : OwnFinalAttempts db) (hown' : OwnFinalAttempts db')
    (hmem : request ∈ db.requests.rows) (howner : request.ownerUserId = scope.ownerUserId) :
    requestSummary db request = requestSummary db' request := by
  have hfind {db : UsageDb} (hown : OwnFinalAttempts db) (hmem : request ∈ db.requests.rows) :
      request.finalAttemptId.bind db.attempts.find? = finalAttempt db request := by
    rcases hfind : request.finalAttemptId.bind db.attempts.find? with _ | attempt
    · rw [finalAttempt, hfind, Option.filter_none]
    · obtain ⟨id, hid, hattempt⟩ := Option.bind_eq_some_iff.mp hfind
      have hrow := hown request hmem id hid attempt hattempt
      rw [finalAttempt, hfind, Option.filter_some_pos (by simpa using hrow)]
  have hmem' : request ∈ db'.requests.rows := by
    have hin : request ∈ db.requests.rows.filter (·.ownerUserId = scope.ownerUserId) :=
      mem_filter.mpr ⟨hmem, by simpa using howner⟩
    rw [h.requests] at hin
    exact mem_of_mem_filter hin
  rw [requestSummary, requestSummary, hfind hown hmem, hfind hown' hmem',
    h.finalAttempt_eq hmem howner]

theorem SameOwned.loadAttempt_eq (hmem : request ∈ db.requests.rows)
    (howner : request.ownerUserId = scope.ownerUserId)
    (hfinal : finalAttempt db request = some attempt) :
    loadAttempt db attempt.row = loadAttempt db' attempt.row := by
  obtain ⟨hattempt, hown⟩ := mem_of_finalAttempt hfinal
  unfold loadAttempt
  rcases hfacts : attempt.row.attemptFacts with error | facts
  · rfl
  · have hid : facts.attemptId = attempt.id := attemptId_of_attemptFacts hfacts
    have hbillable : billableFor db facts.attemptId = billableFor db' facts.attemptId := by
      rw [billableFor, billableFor, hid, h.billable request hmem howner attempt hattempt hown]
    change billableFor db facts.attemptId >>= _ = billableFor db' facts.attemptId >>= _
    rw [hbillable]

end Isolation

/-- Whatever is added to, removed from or changed in the rows of other owners, an owner's reports
stay the same. -/
theorem usage_reports_isolated (scope : UsageScope) (db db' : UsageDb)
    (h : SameOwned scope.ownerUserId db db') (hown : OwnFinalAttempts db)
    (hown' : OwnFinalAttempts db') :
    overview db scope = overview db' scope ∧ filterOptions db scope = filterOptions db' scope ∧
      (∀ after limit, requests db scope after limit = requests db' scope after limit) ∧
      ∀ requestId, requestAttempt db scope requestId = requestAttempt db' scope requestId := by
  have hscoped (scope' : UsageScope) (howner : scope'.ownerUserId = scope.ownerUserId) :
      scopedDispatchedRequestsFrom db scope' = scopedDispatchedRequestsFrom db' scope' :=
    SameOwned.scopedDispatched_eq (howner ▸ h)
  have hin {request : LogicalRequestRow} (hin : request ∈ scopedDispatchedRequestsFrom db scope) :
      request ∈ db.requests.rows ∧ request.ownerUserId = scope.ownerUserId := by
    obtain ⟨hmem, hin⟩ := mem_filter.mp hin
    simp only [Bool.and_eq_true] at hin
    exact ⟨hmem, UsageScope.owner_of_covers hin.1.1⟩
  refine ⟨?_, ?_, fun after limit => ?_, fun requestId => ?_⟩
  · rw [overview, overview, h.scopedFrom_eq, hscoped scope rfl]
  · rw [filterOptions, filterOptions,
      hscoped { scope with clientModel := none, groupLabel := none } rfl]
  · have hpage : pageRows db scope after limit = pageRows db' scope after limit := by
      rw [pageRows, pageRows, hscoped scope rfl]
    have hsummaries : ((pageRows db scope after limit).take limit).mapM (requestSummary db) =
        ((pageRows db scope after limit).take limit).mapM (requestSummary db') := by
      refine Fold.mapM_congr fun request hrequest => ?_
      have hrow := mem_of_mem_take (mem_of_mem_take hrequest)
      rw [mem_insertionSort] at hrow
      obtain ⟨hmem, howner⟩ := hin (mem_of_mem_filter hrow)
      exact h.requestSummary_eq hown hown' hmem howner
    rw [requests, requests, ← hpage, ← hscoped scope rfl]
    simp [hsummaries]
  · have hfinal :
        ((scopedDispatchedRequestsFrom db scope).filter (·.requestId = requestId)).filterMap
          (finalAttempt db) =
        ((scopedDispatchedRequestsFrom db scope).filter (·.requestId = requestId)).filterMap
          (finalAttempt db') := by
      refine filterMap_congr fun request hrequest => ?_
      obtain ⟨hmem, howner⟩ := hin (mem_of_mem_filter hrequest)
      exact h.finalAttempt_eq hmem howner
    rw [requestAttempt, requestAttempt, ← hscoped scope rfl, ← hfinal]
    generalize hattempt : List.head? _ = found
    rcases found with _ | attempt
    · rfl
    · obtain ⟨_, hrequest, hfinal⟩ := mem_filterMap.mp (mem_of_head? hattempt)
      obtain ⟨hmem, howner⟩ := hin (mem_of_mem_filter hrequest)
      exact congrArg (Except.map some) (h.loadAttempt_eq hmem howner hfinal)

/-- A request of one attempt, from its start to its terminal. -/
def served (db : UsageDb) (owner requestId : String) : UsageDb :=
  let start := { keyStart requestId with ownerUserId := owner }
  let facts := answeredFacts requestId
  let db := runOps db [.beginLogicalRequest start, .recordAttempt facts]
  ((completeLogicalRequest db ⟨requestId, 3, .succeeded, some .stableSuccessTerminal,
    some .cleanEof, some facts.attemptId, .complete, 1⟩).toOption.map Prod.snd).getD db

/-- Another owner's request is served. -/
theorem usage_reports_isolated_joined :
    let scope : UsageScope := { ownerUserId := "user", range := ⟨0, 100⟩ }
    let db := served (oneKeyDb "0") "user" "r1"
    let db' := served db "other" "r2"
    ((overview db scope).toOption.map (·.logicalRequests), db'.requests.rows.length) =
        (some 1, 2) ∧
      overview db scope = overview db' scope ∧ filterOptions db scope = filterOptions db' scope ∧
      requests db scope none 10 = requests db' scope none 10 ∧
      requestAttempt db scope "r1" = requestAttempt db' scope "r1" := by
  intro scope db db'
  have hown : OwnFinalAttempts db ∧ OwnFinalAttempts db' := by
    constructor
    · show ∀ request ∈ db.requests.rows, ∀ id ∈ request.finalAttemptId,
        ∀ attempt ∈ db.attempts.find? id, attempt.row.logicalRequestId = request.requestId
      decide
    · show ∀ request ∈ db'.requests.rows, ∀ id ∈ request.finalAttemptId,
        ∀ attempt ∈ db'.attempts.find? id, attempt.row.logicalRequestId = request.requestId
      decide
  obtain ⟨hoverview, hoptions, hrequests, hattempt⟩ := usage_reports_isolated scope db db'
    ⟨by decide, by decide, by decide⟩ hown.1 hown.2
  exact ⟨by decide, hoverview, hoptions, hrequests none 10, hattempt "r1"⟩

end ProviderCore.Storage
