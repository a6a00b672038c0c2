import Mathlib.Data.String.Basic
import ProviderCore.Lib.ExpiringMap
import ProviderCore.Accounts.Account
import ProviderCore.Routing.StoredModels

/-!
# The model router

The in-memory index of the accounts and their models, and the five maps a query reads and writes:
accounts, session affinities, round-robin cursors, cooldowns and response bindings.  Each call is
one step at one reading of the clock, in nanoseconds.

An account object answers for its provider, format and state; what else it does is left out, as are
the runtime and the prices behind a route, which only the execution of a request uses.
-/

namespace ProviderCore.Routing

open Accounts Usage

abbrev AccountId := String

abbrev Instant := ℕ

def seconds (n : ℕ) : ℕ := n * 1000000000

def sessionAffinityTtl : ℕ := seconds (60 * 60)

def sessionAffinityCleanupInterval : ℕ := seconds 60

def rateLimitCooldown : ℕ := seconds 30

def quotaCooldown : ℕ := seconds (5 * 60)

def authCooldown : ℕ := seconds (30 * 60)

def preconnectCooldown : ℕ := seconds 30

def responseBindingTtl : ℕ := seconds (60 * 60)

def maxResponseBindings : ℕ := 100000

/-! ## Accounts and routes -/

inductive WireFormat
  | openAiResponses
  | openAiChatCompletions
  | claudeMessages
deriving DecidableEq

inductive ProviderVisibility
  | priv
  | shared
deriving DecidableEq

structure ProviderAccountAccess where
  ownerUserId : Option String
  visibility : ProviderVisibility
deriving DecidableEq

def ProviderAccountAccess.allows (access : ProviderAccountAccess) (userId : String) : Bool :=
  access.ownerUserId.any fun owner => owner == userId || access.visibility = .shared

structure ProviderAccount where
  providerName : String
  accountId : AccountId
  nativeFormat : WireFormat
  authState : AuthState
deriving DecidableEq

def ProviderAccount.availableForRequests (account : ProviderAccount) : Bool :=
  account.authState = .active

structure RuntimeAccountRoute where
  /-- The provider of the runtime. -/
  providerName : String
  accountId : AccountId
  nativeFormat : WireFormat
deriving DecidableEq

def RuntimeAccountRoute.supportsPreviousResponseId (route : RuntimeAccountRoute) : Bool :=
  route.providerName == "codex"

structure RoutedAccount where
  account : ProviderAccount
  access : ProviderAccountAccess
  models : List StoredProviderModel
  route : RuntimeAccountRoute
  priority : ℕ

/-- Accounts are registered under the id of their object. -/
def RoutedAccount.accountId (account : RoutedAccount) : AccountId := account.account.accountId

structure ProviderRouteCandidate where
  accountId : Option AccountId
  priority : ℕ
  upstreamModel : String
  inputModalities : Option (List ProviderModelInputModality)
  responsesLite : Bool
  pricing : Option ProviderModelPricingRecord
  route : RuntimeAccountRoute
deriving DecidableEq

structure ProviderRouteQuery where
  userId : String
  routingScope : String
  model : String
  nativeFormats : List WireFormat
  sessionId : Option String
  previousResponseId : Option String
  accountIds : Option (List AccountId)
deriving DecidableEq

/-! ## State -/

structure SessionAffinityKey where
  routingScope : String
  model : String
  sessionId : String
deriving DecidableEq

structure SessionAffinity where
  key : SessionAffinityKey
  accountId : AccountId
  lastUsed : Instant
deriving DecidableEq

structure SessionAffinities where
  entries : Table SessionAffinity.key
  lastCleanup : Option Instant

structure SelectionKey where
  routingScope : String
  model : String
  priority : ℕ
deriving DecidableEq

/-- A round-robin cursor. -/
structure Selection where
  key : SelectionKey
  cursor : UInt64
deriving DecidableEq

structure CooldownKey where
  accountId : AccountId
  model : String
deriving DecidableEq

inductive ProviderFailoverReason
  | authenticationExhausted
  | quotaExhausted
  | rateLimited
  | capacityExhausted
  | preconnectFailure
deriving DecidableEq

structure RouteCooldown where
  key : CooldownKey
  untilInstant : Instant
  reason : ProviderFailoverReason
deriving DecidableEq

structure ResponseBindingKey where
  routingScope : String
  responseId : String
deriving DecidableEq

abbrev ResponseBindings := ExpiringMap ResponseBindingKey AccountId

structure Router where
  accounts : Table RoutedAccount.accountId
  affinities : SessionAffinities
  selections : Table Selection.key
  cooldowns : Table RouteCooldown.key
  responseBindings : ResponseBindings

def Router.new : Router where
  accounts := Table.empty
  affinities := ⟨Table.empty, none⟩
  selections := Table.empty
  cooldowns := Table.empty
  responseBindings := ExpiringMap.empty

namespace Router

variable (s : Router) (now : Instant) (accountId : AccountId)

/-- The accounts in the order of their ids. -/
def accountSnapshot : List RoutedAccount :=
  s.accounts.rows.insertionSort (·.accountId ≤ ·.accountId)

/-! ## Accounts -/

inductive Error
  | providerMismatch
deriving DecidableEq

/-- Register an account; `runtime` is the name of the runtime's provider. -/
def replaceAccountModels (runtime : String) (account : ProviderAccount)
    (models : List StoredProviderModel) (access : ProviderAccountAccess) (priority : ℕ) :
    Except Error Router :=
  if account.providerName ≠ runtime then .error .providerMismatch else
    let route := ⟨runtime, account.accountId, account.nativeFormat⟩
    .ok { s with accounts := s.accounts.upsert ⟨account, access, models, route, priority⟩ }

def removeAccount : Bool × Router :=
  if (s.accounts.find? accountId).isSome then
    (true, { s with
      accounts := s.accounts.filter (·.accountId ≠ accountId)
      affinities := { s.affinities with
        entries := s.affinities.entries.filter (·.accountId ≠ accountId) }
      cooldowns := s.cooldowns.filter (·.key.accountId ≠ accountId) })
  else (false, s)

/-- Rewrite the entry of an account, if it has one; the update keeps the id. -/
def updateAccount (f : RoutedAccount → RoutedAccount)
    (hf : ∀ account, (f account).accountId = account.accountId) : Bool × Router :=
  ((s.accounts.find? accountId).isSome,
    { s with accounts := s.accounts.modify accountId f hf })

def updateAccountAccess (access : ProviderAccountAccess) : Bool × Router :=
  s.updateAccount accountId (fun account => { account with access }) fun _ => rfl

def updateAccountModels (models : List StoredProviderModel) : Bool × Router :=
  s.updateAccount accountId (fun account => { account with models }) fun _ => rfl

/-- Give the accounts without an owner to a user. -/
def claimUnowned (ownerUserId : String) (account : RoutedAccount) : RoutedAccount :=
  if account.access.ownerUserId.isNone then
    { account with access := ⟨some ownerUserId, .priv⟩ }
  else account

theorem accountId_claimUnowned (ownerUserId : String) (account : RoutedAccount) :
    (claimUnowned ownerUserId account).accountId = account.accountId := by
  unfold claimUnowned
  split <;> rfl

def claimUnownedAccountAccess (ownerUserId : String) : Router :=
  { s with accounts := ⟨s.accounts.rows.map (claimUnowned ownerUserId), by
      have hkeys : RoutedAccount.accountId ∘ claimUnowned ownerUserId = RoutedAccount.accountId :=
        funext (accountId_claimUnowned ownerUserId)
      rw [List.map_map, hkeys]
      exact s.accounts.nodup⟩ }

/-- The account object changed its state on its own. -/
def setAuthState (authState : AuthState) : Router :=
  (s.updateAccount accountId
    (fun account => { account with account := { account.account with authState } }) fun _ => rfl).2

/-! ## Cooldowns and affinities -/

def trimmedSession (sessionId : Option String) : Option String :=
  (sessionId.map Text.trim).filter (!·.isEmpty)

def commitSessionAffinity (routingScope model : String)
    (sessionId : Option String) (accountId : AccountId) : Router :=
  match trimmedSession sessionId with
  | none => s
  | some sessionId => { s with affinities := { s.affinities with
      entries := s.affinities.entries.upsert ⟨⟨routingScope, model, sessionId⟩, accountId, now⟩ } }

/-- How long a failure takes a model of an account out, if at all. -/
def cooldownDuration (reason : ProviderFailoverReason) (retryAfter : Option ℕ) : Option ℕ :=
  match reason with
  | .authenticationExhausted => some authCooldown
  | .quotaExhausted => some (retryAfter.elim quotaCooldown (max · quotaCooldown))
  | .rateLimited => some (retryAfter.getD rateLimitCooldown)
  | .capacityExhausted => none
  | .preconnectFailure => some preconnectCooldown

/-- Instants count 64-bit signed seconds; the sum of an instant and a duration panics beyond. -/
def instantLimit : Instant := seconds 9223372036854775808

/-- Report a failure; `none` if the end of the cooldown is not an instant. -/
def recordRouteFailureWithRetryAfter (model : String) (reason : ProviderFailoverReason)
    (retryAfter : Option ℕ) : Option Router :=
  match cooldownDuration reason retryAfter with
  | none => some s
  | some duration =>
    if now + duration < instantLimit then
      some { s with cooldowns := s.cooldowns.upsert ⟨⟨accountId, model⟩, now + duration, reason⟩ }
    else none

def recordRouteFailure (model : String) (reason : ProviderFailoverReason) : Option Router :=
  s.recordRouteFailureWithRetryAfter now accountId model reason none

def recordRouteSuccess (model : String) : Router :=
  { s with cooldowns := s.cooldowns.filter (·.key ≠ ⟨accountId, model⟩) }

/-- Remember which account produced a response; `none` if the call does not return. -/
def bindResponseId (routingScope responseId : String) (accountId : AccountId) : Option Router :=
  (s.responseBindings.insert responseBindingTtl maxResponseBindings now ⟨routingScope, responseId⟩
    accountId).map fun responseBindings => { s with responseBindings }

end Router

end ProviderCore.Routing
