import Mathlib.Data.Int.Notation
import Mathlib.Data.Nat.Notation
import Mathlib.Data.Option.Basic

/-!
# Provider accounts

A stored account row with its credential, the account object built from it, and the pieces
between two awaits of the functions that rewrite a credential: the token refresh of the OAuth
drivers, the project id discovery of Antigravity and the user id backfill of Grok.  Each piece is
a function of the object's state as it finds it and of the answer that woke it up, so that a
sequential call and an interleaving of calls are made of the same pieces.

The token pair is a type parameter.  A credential text holds the tokens, the project id or
upstream user id (`subject`) and whether the pair can be refreshed; reading and writing that text
are inverse.  Times of refresh depend on a hash of the account id, so `refreshAt` is a parameter.
Labels, visibility and time stamps are left out, and a revision is a natural number.
-/

namespace ProviderCore.Accounts

inductive ProviderKind
  | grok
  | codex
  | antigravity
  | openAiCompatible
  | anthropicCompatible
deriving DecidableEq

inductive AuthState
  | active
  | reauthRequired
deriving DecidableEq

inductive RefreshErrorKind
  | reauthRequired
  | transient
  | internal
deriving DecidableEq

/-- What a credential text says. -/
structure Credentials (τ : Type) where
  tokens : τ
  /-- The project id of Antigravity, the upstream user id of Grok. -/
  subject : Option String
  canRefresh : Bool
deriving DecidableEq

structure StoredCredential (τ : Type) where
  revision : ℕ
  quotaIdentityRevision : ℕ
  credentials : Credentials τ
  expiresAt : Option ℤ
deriving DecidableEq

structure StoredAccount (τ : Type) where
  provider : ProviderKind
  priority : ℕ
  configJson : String
  enabled : Bool
  authState : AuthState
  safeErrorCode : Option String
  credential : StoredCredential τ
deriving DecidableEq

structure CredentialUpdate (τ : Type) where
  expectedRevision : ℕ
  credentials : Credentials τ
  expiresAt : Option ℤ
deriving DecidableEq

inductive CredentialWriteOutcome
  | updated (revision : ℕ)
  | conflict
deriving DecidableEq

variable {τ : Type}

/-! ## Statements on the row of one account -/

/-- Write a credential if the stored revision is the expected one; the account is active again. -/
def compareAndSwapCredential (update : CredentialUpdate τ) (row : Option (StoredAccount τ)) :
    CredentialWriteOutcome × Option (StoredAccount τ) :=
  match row with
  | none => (.conflict, none)
  | some account =>
    if account.credential.revision = update.expectedRevision then
      (.updated (update.expectedRevision + 1),
        some { account with
          authState := .active
          safeErrorCode := none
          credential := { account.credential with
            revision := update.expectedRevision + 1
            credentials := update.credentials
            expiresAt := update.expiresAt } })
    else (.conflict, some account)

/-- Set the state of the account, whatever its credential is by now. -/
def updateAuthState (state : AuthState) (safeErrorCode : Option String)
    (row : Option (StoredAccount τ)) : Option (StoredAccount τ) :=
  row.map fun account => { account with authState := state, safeErrorCode := safeErrorCode }

inductive SnapshotOutcome
  | committed
  | conflict
  | notFound
deriving DecidableEq

/-- Write an account with its credential: insert it, or update it if the stored revision is the
expected one.  An update that keeps the revision leaves the auth state alone. -/
def commitProviderSnapshot (account : StoredAccount τ) (expectedRevision : Option ℕ)
    (row : Option (StoredAccount τ)) : SnapshotOutcome × Option (StoredAccount τ) :=
  match expectedRevision, row with
  | none, none => (.committed, some account)
  | none, some stored => (.conflict, some stored)
  | some _, none => (.notFound, none)
  | some expected, some stored =>
    if stored.credential.revision = expected then
      (.committed, some (if expected < account.credential.revision then
          { account with provider := stored.provider }
        else { account with
          provider := stored.provider
          authState := stored.authState
          safeErrorCode := stored.safeErrorCode }))
    else (.conflict, some stored)

/-! ## The account object -/

structure AccountState (τ : Type) where
  credentials : Credentials τ
  revision : ℕ
  quotaIdentityRevision : ℕ
  generation : ℕ
  expiresAt : Option ℤ
  nextRefreshAt : Option ℤ
  authState : AuthState
  pendingUpdate : Option (CredentialUpdate τ)
deriving DecidableEq

/-- When a credential is due for a refresh. -/
abbrev RefreshAt (τ : Type) := Credentials τ → Option ℤ → Option ℤ

variable (refreshAt : RefreshAt τ)

def fromStored (account : StoredAccount τ) : AccountState τ where
  credentials := account.credential.credentials
  revision := account.credential.revision
  quotaIdentityRevision := account.credential.quotaIdentityRevision
  generation := 0
  expiresAt := account.credential.expiresAt
  nextRefreshAt :=
    if account.authState = .active ∧ account.credential.credentials.canRefresh then
      refreshAt account.credential.credentials account.credential.expiresAt
    else none
  authState := account.authState
  pendingUpdate := none

def AccountState.availableForRequests (state : AccountState τ) : Bool :=
  state.authState = .active

/-! ## Pieces of a token refresh -/

/-- What is wrong with the tokens of an exchange that the upstream answered. -/
inductive TokenDefect
  /-- They belong to another account. -/
  | claimMismatch
  | malformed
  | unserializable
deriving DecidableEq

inductive ExchangeAnswer (τ : Type)
  | granted (tokens : τ) (expiresAt : Option ℤ)
  /-- The upstream answered, but the driver cannot use what it got. -/
  | unusable (defect : TokenDefect)
  | refused (kind : RefreshErrorKind)
deriving DecidableEq

inductive RefreshStart (τ : Type)
  | persist (pending : CredentialUpdate τ)
  | refuse
  | exchange (current : AccountState τ)
deriving DecidableEq

def AccountState.beginRefresh (state : AccountState τ) : RefreshStart τ :=
  match state.pendingUpdate with
  | some pending => .persist pending
  | none => if state.authState = .reauthRequired then .refuse else .exchange state

inductive RefreshNext (τ : Type)
  | write (update : CredentialUpdate τ)
  | markReauth
  | fail (kind : RefreshErrorKind)
deriving DecidableEq

/-- The error of tokens that cannot be used. -/
def unusableKind (provider : ProviderKind) (defect : TokenDefect) : RefreshErrorKind :=
  match provider, defect with
  | .codex, .claimMismatch => .reauthRequired
  | .codex, .malformed => .transient
  | _, _ => .internal

/-- The write of refreshed tokens, over the state that the exchange was made with. -/
def refreshUpdate (current : AccountState τ) (tokens : τ) (expiresAt : Option ℤ) :
    CredentialUpdate τ where
  expectedRevision := current.revision
  credentials := { current.credentials with tokens := tokens }
  expiresAt := expiresAt

section

variable (provider : ProviderKind)

def refreshNext (current : AccountState τ) : ExchangeAnswer τ → RefreshNext τ
  | .granted tokens expiresAt => .write (refreshUpdate current tokens expiresAt)
  | .unusable defect =>
    if unusableKind provider defect = .reauthRequired then .markReauth
    else .fail (unusableKind provider defect)
  | .refused .reauthRequired => .markReauth
  | .refused kind => .fail kind

/-- A failed write is an error for Antigravity only; the others report success and retry. -/
def storageFailure : Except RefreshErrorKind Unit :=
  if provider = .antigravity then .error .transient else .ok ()

/-- The state and the result after the write of refreshed tokens; no outcome is a storage
failure. -/
def AccountState.finishRefresh (update : CredentialUpdate τ)
    (retryAt : Option ℤ) (state : AccountState τ) :
    Option CredentialWriteOutcome → AccountState τ × Except RefreshErrorKind Unit
  | some (.updated revision) =>
    ({ state with
        credentials := update.credentials
        revision := revision
        generation := state.generation + 1
        expiresAt := update.expiresAt
        nextRefreshAt := refreshAt update.credentials update.expiresAt
        authState := .active
        pendingUpdate := none }, .ok ())
  | some .conflict => (state, .error .internal)
  | none =>
    ({ state with
        credentials := update.credentials
        generation := state.generation + 1
        expiresAt := update.expiresAt
        nextRefreshAt := retryAt
        authState := .active
        pendingUpdate := some update }, storageFailure provider)

/-- The state and the result after a retry of a pending write. -/
def AccountState.finishPending (retryAt : Option ℤ) (state : AccountState τ) :
    Option CredentialWriteOutcome → AccountState τ × Except RefreshErrorKind Unit
  | some (.updated revision) =>
    ({ state with
        revision := revision
        pendingUpdate := none
        nextRefreshAt := refreshAt state.credentials state.expiresAt }, .ok ())
  | some .conflict => (state, .error .internal)
  | none => ({ state with nextRefreshAt := retryAt }, storageFailure provider)

/-- The state and the result after `mark_reauth_required`.  Antigravity reports a failure to
store the mark and keeps its state; the others go on. -/
def AccountState.markReauthRequired (retryAt : Option ℤ)
    (stored : Bool) (state : AccountState τ) : AccountState τ × Except RefreshErrorKind Unit :=
  if provider = .antigravity ∧ ¬stored then
    ({ state with nextRefreshAt := retryAt }, .error .transient)
  else ({ state with authState := .reauthRequired, nextRefreshAt := none },
    .error .reauthRequired)

end

/-! ## Pieces of the discovery of a subject -/

/-- The credential with a project id or user id. -/
def Credentials.withSubject (credentials : Credentials τ) (subject : String) : Credentials τ :=
  { credentials with subject := some subject }

/-- The write of `persist_project_id`.  The revision is that of the state when the write is made;
the credential is the one that was copied before the project was asked for. -/
def AccountState.projectUpdate (state : AccountState τ) (credentials : Credentials τ)
    (expiresAt : Option ℤ) : CredentialUpdate τ where
  expectedRevision := state.revision
  credentials := credentials
  expiresAt := expiresAt

def AccountState.finishProject (update : CredentialUpdate τ) (state : AccountState τ) :
    Option CredentialWriteOutcome → AccountState τ
  | some (.updated revision) =>
    { state with
      credentials := update.credentials, revision := revision, pendingUpdate := none }
  | some .conflict => state
  | none => { state with credentials := update.credentials, pendingUpdate := some update }

/-- The first thing Grok does with a user id: while a write is pending, the id goes into it. -/
def AccountState.mergeUserId (current : AccountState τ) (credentials : Credentials τ)
    (state : AccountState τ) : Option (AccountState τ) :=
  match state.pendingUpdate with
  | some pending =>
    if state.revision = current.revision then
      some { state with
        credentials := credentials
        pendingUpdate := some { pending with credentials := credentials } }
    else none
  | none => none

/-- Otherwise Grok writes the credential it copied, over the revision it copied. -/
def userIdUpdate (current : AccountState τ) (credentials : Credentials τ) : CredentialUpdate τ where
  expectedRevision := current.revision
  credentials := credentials
  expiresAt := current.expiresAt

/-- The state after that write, of which a failure is ignored. -/
def AccountState.finishUserId (current : AccountState τ) (update : CredentialUpdate τ)
    (state : AccountState τ) : Option CredentialWriteOutcome → AccountState τ
  | some (.updated revision) =>
    if state.revision = current.revision then
      { state with credentials := update.credentials, revision := revision }
    else state
  | some .conflict => state
  | none => state

/-! ## A sample account -/

/-- Tokens are numbered, and a credential is due when it expires. -/
def dueAtExpiry : RefreshAt ℕ := fun _ expiresAt => expiresAt

def sampleAccount (provider : ProviderKind) (enabled : Bool) (subject : Option String) :
    StoredAccount ℕ where
  provider := provider
  priority := 1
  configJson := ""
  enabled := enabled
  authState := .active
  safeErrorCode := none
  credential := ⟨0, 0, ⟨0, subject, true⟩, some 100⟩

end ProviderCore.Accounts
