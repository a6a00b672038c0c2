import ProviderCore.Accounts.RefreshPhases

/-!
# Refreshes and discoveries on one account object

One Antigravity or Grok account object with its stored row, at the level of the pieces between
two awaits.  The refresh gate of the runtime admits one refresh at a time; any number of requests
look for the project id or the user id beside it.  A compare-and-swap is two steps: it takes
effect in the store, or fails there, and later its caller is told.

Tokens are numbered by the exchange that granted them, and `produced` is the latest of them.
-/

namespace ProviderCore.Accounts

/-! ## The system -/

/-- Where a request is that looks for the subject. -/
inductive DiscoveryPhase
  /-- At the gate of Antigravity. -/
  | waiting
  /-- Waiting for the upstream with a copy of the state. -/
  | asking (current : AccountState ℕ)
  | writing (current : AccountState ℕ) (update : CredentialUpdate ℕ)
  | wrote (current : AccountState ℕ) (update : CredentialUpdate ℕ)
      (outcome : Option CredentialWriteOutcome)
deriving DecidableEq

structure Interleaved where
  object : AccountState ℕ
  row : Option (StoredAccount ℕ)
  /-- The latest exchange that granted tokens. -/
  produced : ℕ
  /-- What the refresh waits for, if there is one. -/
  refresh : Option (RefreshPhase ℕ)
  discoveries : List DiscoveryPhase
deriving DecidableEq

/-- The object is built from its row and nothing is under way. -/
def Interleaved.start (refreshAt : RefreshAt ℕ) (account : StoredAccount ℕ) : Interleaved where
  object := fromStored refreshAt account
  row := some account
  produced := account.credential.credentials.tokens
  refresh := none
  discoveries := []

/-- The answer to an exchange, whose tokens are numbered by the system. -/
inductive Answer
  | granted (expiresAt : Option ℤ)
  | unusable (defect : TokenDefect)
  | refused (kind : RefreshErrorKind)
deriving DecidableEq

inductive Event
  | refreshStart
  | exchangeAnswer (answer : Answer)
  /-- The write of the refresh reaches the store, which fails unless `stored`. -/
  | refreshSwap (stored : Bool)
  | refreshFinish (retryAt : Option ℤ)
  /-- The request that refreshes goes away. -/
  | refreshDrop
  | discoveryStart
  | enterGate (index : ℕ)
  | subjectAnswer (index : ℕ) (subject : Option String)
  | discoverySwap (index : ℕ) (stored : Bool)
  | discoveryFinish (index : ℕ)
  | discoveryDrop (index : ℕ)
  /-- Someone else replaces the stored credential. -/
  | otherWriter (credentials : Credentials ℕ) (expiresAt : Option ℤ)
deriving DecidableEq

/-! ## Steps of the refresh -/

section Refresh

variable (refreshAt : RefreshAt ℕ) (provider : ProviderKind) (s : Interleaved)

/-- The gate is free and a refresh begins. -/
def Interleaved.refreshStart : Option Interleaved :=
  match s.refresh with
  | none => some { s with refresh := (RefreshPhase.start s.object).toOption }
  | some _ => none

def Answer.exchangeAnswer (produced : ℕ) : Answer → ExchangeAnswer ℕ
  | .granted expiresAt => .granted (produced + 1) expiresAt
  | .unusable defect => .unusable defect
  | .refused kind => .refused kind

def Answer.produced (produced : ℕ) : Answer → ℕ
  | .granted _ => produced + 1
  | .unusable _ | .refused _ => produced

def Interleaved.exchangeAnswer (answer : Answer) : Option Interleaved := do
  let phase ← s.refresh
  let next ← phase.answer provider (answer.exchangeAnswer s.produced)
  return { s with refresh := next.toOption, produced := answer.produced s.produced }

def Interleaved.refreshSwap (stored : Bool) : Option Interleaved := do
  let phase ← s.refresh
  let (phase, row) ← phase.store stored s.row
  return { s with refresh := some phase, row := row }

def Interleaved.refreshFinish (retryAt : Option ℤ) : Option Interleaved := do
  let phase ← s.refresh
  let (object, _) ← phase.finish refreshAt provider retryAt s.object
  return { s with refresh := none, object := object }

end Refresh

/-! ## Steps of a discovery -/

section Discovery

variable (provider : ProviderKind) (s : Interleaved)

/-- A request starts to look for the subject if the object does not know it. -/
def Interleaved.discoveryStart : Option Interleaved :=
  if s.object.credentials.subject = none then
    some { s with discoveries := s.discoveries ++
      [if provider = .antigravity then .waiting else .asking s.object] }
  else none

def DiscoveryPhase.entered : DiscoveryPhase → Bool
  | .waiting => false
  | _ => true

def Interleaved.enterGate (index : ℕ) : Option Interleaved :=
  match s.discoveries[index]? with
  | some .waiting =>
    if s.discoveries.any DiscoveryPhase.entered then none
    else if s.object.credentials.subject = none then
      some { s with discoveries := s.discoveries.set index (.asking s.object) }
    else some { s with discoveries := s.discoveries.eraseIdx index }
  | _ => none

def Interleaved.subjectAnswer (index : ℕ) (subject : Option String) : Option Interleaved :=
  match s.discoveries[index]?, subject with
  | some (.asking _), none => some { s with discoveries := s.discoveries.eraseIdx index }
  | some (.asking current), some subject =>
    let credentials := current.credentials.withSubject subject
    if provider = .antigravity then
      let update := s.object.projectUpdate credentials current.expiresAt
      some { s with discoveries := s.discoveries.set index (.writing current update) }
    else match AccountState.mergeUserId current credentials s.object with
      | some object =>
        some { s with object := object, discoveries := s.discoveries.eraseIdx index }
      | none =>
        let update := userIdUpdate current credentials
        some { s with discoveries := s.discoveries.set index (.writing current update) }
  | _, _ => none

def Interleaved.discoverySwap (index : ℕ) (stored : Bool) : Option Interleaved :=
  match s.discoveries[index]? with
  | some (.writing current update) =>
    let (outcome, row) := swap update stored s.row
    some { s with
      row := row, discoveries := s.discoveries.set index (.wrote current update outcome) }
  | _ => none

def Interleaved.discoveryFinish (index : ℕ) : Option Interleaved :=
  match s.discoveries[index]? with
  | some (.wrote current update outcome) =>
    some { s with
      object := if provider = .antigravity then s.object.finishProject update outcome
        else AccountState.finishUserId current update s.object outcome
      discoveries := s.discoveries.eraseIdx index }
  | _ => none

end Discovery

/-- What another writer stores comes from no earlier exchange. -/
def Interleaved.otherWriter (s : Interleaved) (credentials : Credentials ℕ)
    (expiresAt : Option ℤ) : Option Interleaved :=
  some { s with row := s.row.map fun account => { account with
    credential := { account.credential with
      revision := account.credential.revision + 1
      credentials := { credentials with tokens := s.produced }
      expiresAt := expiresAt } } }

def Interleaved.step (refreshAt : RefreshAt ℕ) (provider : ProviderKind) (s : Interleaved) :
    Event → Option Interleaved
  | .refreshStart => s.refreshStart
  | .exchangeAnswer answer => s.exchangeAnswer provider answer
  | .refreshSwap stored => s.refreshSwap stored
  | .refreshFinish retryAt => s.refreshFinish refreshAt provider retryAt
  | .refreshDrop => some { s with refresh := none }
  | .discoveryStart => s.discoveryStart provider
  | .enterGate index => s.enterGate index
  | .subjectAnswer index subject => s.subjectAnswer provider index subject
  | .discoverySwap index stored => s.discoverySwap index stored
  | .discoveryFinish index => s.discoveryFinish provider index
  | .discoveryDrop index => some { s with discoveries := s.discoveries.eraseIdx index }
  | .otherWriter credentials expiresAt => s.otherWriter credentials expiresAt

end ProviderCore.Accounts
