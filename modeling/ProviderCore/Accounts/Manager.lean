import ProviderCore.Accounts.Account

/-!
# Operations on accounts, one at a time

The operations of `ProviderManager` and the refreshes of the runtime as they run with nothing
else going on and every storage call succeeding.  The answers of the upstream are inputs.  An
operation on an existing account builds a second account object from the stored row, lets it
discover the models, commits the row and installs the object; during the discovery that object
may refresh its tokens or complete its subject and write the row itself.

An operation that the access rules or the input checks turn down changes nothing; it is
`rejected` here.  Model lists are left out.
-/

namespace ProviderCore.Accounts

variable {τ : Type} (refreshAt : RefreshAt τ)

def persistenceRetrySeconds : ℤ := 30

/-! ## The drivers -/

def refreshCredentials (provider : ProviderKind) (now : ℤ) (answer : ExchangeAnswer τ)
    (state : AccountState τ) (row : Option (StoredAccount τ)) :
    (AccountState τ × Option (StoredAccount τ)) × Except RefreshErrorKind Unit :=
  let retryAt := some (now + persistenceRetrySeconds)
  match state.beginRefresh with
  | .persist pending =>
    let (outcome, row) := compareAndSwapCredential pending row
    let (state, result) := state.finishPending refreshAt provider retryAt (some outcome)
    ((state, row), result)
  | .refuse => ((state, row), .error .reauthRequired)
  | .exchange current =>
    match refreshNext provider current answer with
    | .write update =>
      let (outcome, row) := compareAndSwapCredential update row
      let (state, result) := state.finishRefresh refreshAt provider update retryAt (some outcome)
      ((state, row), result)
    | .markReauth =>
      let (state, result) := state.markReauthRequired provider retryAt row.isSome
      ((state, updateAuthState .reauthRequired (some "refresh_reauth_required") row), result)
    | .fail kind => ((state, row), .error kind)

/-- The answers of the upstream to one discovery. -/
structure Upstream (τ : Type) where
  exchange : ExchangeAnswer τ
  /-- The project id or user id; none is a failure. -/
  subject : Option String
  models : Bool
deriving DecidableEq

def AccountState.refreshDue (state : AccountState τ) (now : ℤ) : Bool :=
  state.nextRefreshAt.any (· ≤ now)

/-- `credentials_for_request` of Antigravity, and whether it succeeded. -/
def credentialsForRequest (subject : Option String) (state : AccountState τ)
    (row : Option (StoredAccount τ)) : (AccountState τ × Option (StoredAccount τ)) × Bool :=
  match state.credentials.subject, subject with
  | some _, _ => ((state, row), true)
  | none, none => ((state, row), false)
  | none, some projectId =>
    let update := state.projectUpdate (state.credentials.withSubject projectId) state.expiresAt
    let (outcome, row) := compareAndSwapCredential update row
    ((state.finishProject update (some outcome), row), outcome ≠ .conflict)

/-- `credentials_with_upstream_user_id` of Grok, and whether it succeeded. -/
def credentialsWithUpstreamUserId (subject : Option String) (state : AccountState τ)
    (row : Option (StoredAccount τ)) : (AccountState τ × Option (StoredAccount τ)) × Bool :=
  match state.credentials.subject, subject with
  | some _, _ => ((state, row), true)
  | none, none => ((state, row), false)
  | none, some userId =>
    let credentials := state.credentials.withSubject userId
    match AccountState.mergeUserId state credentials state with
    | some merged => ((merged, row), true)
    | none =>
      let update := userIdUpdate state credentials
      let (outcome, row) := compareAndSwapCredential update row
      ((AccountState.finishUserId state update state (some outcome), row), true)

def discoverModels (provider : ProviderKind) (now : ℤ) (upstream : Upstream τ)
    (state : AccountState τ) (row : Option (StoredAccount τ)) :
    (AccountState τ × Option (StoredAccount τ)) × Bool :=
  match provider with
  | .grok =>
    let (found, ok) := credentialsWithUpstreamUserId upstream.subject state row
    (found, ok && upstream.models)
  | .antigravity =>
    let (refreshed, result) :=
      if state.refreshDue now then
        refreshCredentials refreshAt .antigravity now upstream.exchange state row
      else ((state, row), .ok ())
    match result with
    | .error .reauthRequired => (refreshed, false)
    | _ =>
      -- Other errors, and a project that cannot be found, are only logged.
      let (found, _) := credentialsForRequest upstream.subject refreshed.1 refreshed.2
      (found, upstream.models)
  | .codex | .openAiCompatible | .anthropicCompatible => ((state, row), upstream.models)

/-- `fetch_quota`: only Antigravity looks for its project first. -/
def fetchQuota (provider : ProviderKind) (upstream : Upstream τ) (state : AccountState τ)
    (row : Option (StoredAccount τ)) : (AccountState τ × Option (StoredAccount τ)) × Bool :=
  match provider with
  | .antigravity => credentialsForRequest upstream.subject state row
  | .grok => ((state, row), upstream.subject.isSome)
  | .codex | .openAiCompatible | .anthropicCompatible => ((state, row), true)

/-- A quota fetch that is answered 401 refreshes once and tries again. -/
def fetchQuotaRefreshing (provider : ProviderKind) (now : ℤ) (unauthorized : Bool)
    (upstream : Upstream τ) (state : AccountState τ) (row : Option (StoredAccount τ)) :
    AccountState τ × Option (StoredAccount τ) :=
  let (first, _) := fetchQuota provider upstream state row
  if unauthorized then
    let (second, result) :=
      refreshCredentials refreshAt provider now upstream.exchange first.1 first.2
    match result with
    | .ok () => (fetchQuota provider upstream second.1 second.2).1
    | .error _ => second
  else first

/-! ## The manager -/

/-- The stored row of an account id and the object installed for it in the runtime. -/
structure Slot (τ : Type) where
  row : Option (StoredAccount τ)
  installed : Option (AccountState τ)

inductive ManagerError
  | notFound
  | conflict
  /-- Discovery of the models failed. -/
  | discovery
  /-- Turned down before anything was done. -/
  | rejected
deriving DecidableEq

/-- Commit a row and install the object built for it. -/
def commitCandidate (candidate : StoredAccount τ) (object : AccountState τ)
    (expectedRevision : Option ℕ) (slot : Slot τ) : Slot τ × Except ManagerError Unit :=
  match commitProviderSnapshot candidate expectedRevision slot.row with
  | (.committed, row) => (⟨row, if candidate.enabled then some object else none⟩, .ok ())
  | (.conflict, row) => (⟨row, slot.installed⟩, .error .conflict)
  | (.notFound, row) => (⟨row, slot.installed⟩, .error .notFound)

/-- Build an object for a candidate, discover its models and commit it.  A failed discovery stops
the operation if the models are `required`. -/
def discoverAndCommit (candidate : StoredAccount τ) (expectedRevision : Option ℕ) (now : ℤ)
    (upstream : Upstream τ) (required : Bool) (slot : Slot τ) : Slot τ × Except ManagerError Unit :=
  let ((object, row), discovered) := discoverModels refreshAt candidate.provider now upstream
    (fromStored refreshAt candidate) slot.row
  if required && !discovered then (⟨row, slot.installed⟩, .error .discovery)
  else commitCandidate candidate object expectedRevision ⟨row, slot.installed⟩

/-- A replaced credential belongs to a new revision and a new identity. -/
def replacementCredential (current : StoredAccount τ) (credentials : Credentials τ)
    (expiresAt : Option ℤ) : StoredCredential τ where
  revision := current.credential.revision + 1
  quotaIdentityRevision := current.credential.quotaIdentityRevision + 1
  credentials := credentials
  expiresAt := expiresAt

inductive Operation (τ : Type)
  | rejected
  | create (provider : ProviderKind) (priority : ℕ) (configJson : String) (enabled : Bool)
      (credentials : Credentials τ) (expiresAt : Option ℤ)
  | updateAccount (priority : ℕ) (configJson : String)
  | updateAccountWithCredential (priority : ℕ) (configJson : String)
      (credentials : Credentials τ) (expiresAt : Option ℤ)
  | updateCredential (credentials : Credentials τ) (expiresAt : Option ℤ)
  | setAccountEnabled (enabled : Bool)
  | deleteAccount
  | refreshModels
  /-- The turn of one account in `refresh_enabled_model_catalogs`. -/
  | refreshCatalog
  | quota (unauthorized : Bool)
  /-- A refresh of the installed account, scheduled or after an answer 401. -/
  | refresh

variable (now : ℤ) (upstream : Upstream τ)

def createAccount (provider : ProviderKind) (priority : ℕ) (configJson : String)
    (enabled : Bool) (credentials : Credentials τ) (expiresAt : Option ℤ) (slot : Slot τ) :
    Slot τ × Except ManagerError Unit :=
  -- Antigravity falls back on a fixed list of models.
  discoverAndCommit refreshAt
    { provider, priority, configJson, enabled, authState := .active, safeErrorCode := none
      credential := ⟨0, 0, credentials, expiresAt⟩ }
    none now upstream (provider ≠ .antigravity) slot

def updateAccount (priority : ℕ) (configJson : String) (current : StoredAccount τ)
    (slot : Slot τ) : Slot τ × Except ManagerError Unit :=
  if current.configJson = configJson ∧ current.priority = priority then (slot, .ok ())
  else discoverAndCommit refreshAt { current with priority, configJson }
    (some current.credential.revision) now upstream false slot

def updateAccountWithCredential (priority : ℕ) (configJson : String)
    (credentials : Credentials τ) (expiresAt : Option ℤ) (current : StoredAccount τ)
    (slot : Slot τ) : Slot τ × Except ManagerError Unit :=
  discoverAndCommit refreshAt
    { current with
      priority, configJson, authState := .active, safeErrorCode := none
      credential := replacementCredential current credentials expiresAt }
    (some current.credential.revision) now upstream false slot

def updateCredential (credentials : Credentials τ) (expiresAt : Option ℤ)
    (current : StoredAccount τ) (slot : Slot τ) : Slot τ × Except ManagerError Unit :=
  updateAccountWithCredential refreshAt now upstream current.priority current.configJson
    credentials expiresAt current slot

def setAccountEnabled (enabled : Bool) (current : StoredAccount τ) (slot : Slot τ) :
    Slot τ × Except ManagerError Unit :=
  let candidate := { current with enabled }
  if enabled then
    discoverAndCommit refreshAt candidate (some current.credential.revision) now upstream false slot
  else commitCandidate candidate (fromStored refreshAt candidate)
    (some current.credential.revision) slot

def refreshModels (current : StoredAccount τ) (slot : Slot τ) : Slot τ × Except ManagerError Unit :=
  discoverAndCommit refreshAt current (some current.credential.revision) now upstream true slot

/-- A quota fetch goes to the installed object of an enabled account and to an object of its own
otherwise. -/
def quota (unauthorized : Bool) (current : StoredAccount τ) (slot : Slot τ) : Slot τ :=
  if current.enabled then
    match slot.installed with
    | some object =>
      if object.availableForRequests then
        let (object, row) := fetchQuotaRefreshing refreshAt current.provider now unauthorized
          upstream object slot.row
        ⟨row, some object⟩
      else slot
    | none => slot
  else
    let detached := fromStored refreshAt current
    if detached.availableForRequests then
      ⟨(fetchQuotaRefreshing refreshAt current.provider now unauthorized upstream detached
        slot.row).2, slot.installed⟩
    else slot

def refreshInstalled (current : StoredAccount τ) (slot : Slot τ) : Slot τ :=
  match slot.installed with
  | none => slot
  | some object =>
    let ((object, row), _) :=
      refreshCredentials refreshAt current.provider now upstream.exchange object slot.row
    ⟨row, some object⟩

/-- What an operation does to its account, and its result. -/
def Slot.perform (slot : Slot τ) : Operation τ → Slot τ × Except ManagerError Unit
  | .rejected => (slot, .error .rejected)
  | .create provider priority configJson enabled credentials expiresAt =>
    createAccount refreshAt now upstream provider priority configJson enabled credentials
      expiresAt slot
  | operation =>
    match slot.row with
    | none => (slot, .error .notFound)
    | some current =>
      match operation with
      | .rejected | .create .. => (slot, .error .rejected)
      | .updateAccount priority configJson =>
        updateAccount refreshAt now upstream priority configJson current slot
      | .updateAccountWithCredential priority configJson credentials expiresAt =>
        updateAccountWithCredential refreshAt now upstream priority configJson credentials
          expiresAt current slot
      | .updateCredential credentials expiresAt =>
        updateCredential refreshAt now upstream credentials expiresAt current slot
      | .setAccountEnabled enabled =>
        setAccountEnabled refreshAt now upstream enabled current slot
      | .deleteAccount => (⟨none, none⟩, .ok ())
      | .refreshModels => refreshModels refreshAt now upstream current slot
      | .refreshCatalog =>
        if current.enabled then refreshModels refreshAt now upstream current slot
        else (slot, .ok ())
      | .quota unauthorized => (quota refreshAt now upstream unauthorized current slot, .ok ())
      | .refresh => (refreshInstalled refreshAt now upstream current slot, .ok ())

end ProviderCore.Accounts
