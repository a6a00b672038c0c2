import ProviderCore.Routing.Routes

/-!
# Why there is no route

The text for a query without a route: for each account the user may use, the first reason that
rules it out, and how many accounts each reason rules out.
-/

namespace ProviderCore.Routing

/-- The name of a reason in debug output. -/
def ProviderFailoverReason.debug : ProviderFailoverReason → String
  | .authenticationExhausted => "AuthenticationExhausted"
  | .quotaExhausted => "QuotaExhausted"
  | .rateLimited => "RateLimited"
  | .capacityExhausted => "CapacityExhausted"
  | .preconnectFailure => "PreconnectFailure"

def RouteCooldown.describe (now : Instant) (cooldown : RouteCooldown) : String :=
  "model temporarily cooling down after " ++ cooldown.reason.debug ++ "; retry in " ++
    toString ((cooldown.untilInstant - now) / seconds 1 + 1) ++ "s"

/-- What is wrong with the models of an account under the name of the query. -/
def describeModels (models : List StoredProviderModel) : String :=
  if models.isEmpty then "model not configured under this name"
  else if models.all (!·.enabled) then "model disabled"
  else if models.all (!·.available) then "model unavailable"
  else if models.any StoredProviderModel.serves then
    "route state changed or continuation binding unavailable; retry with complete input history"
  else "model routing contract unavailable"

namespace RoutedAccount

/-- The first reason that rules an account out. -/
def unavailableReason (account : RoutedAccount) (now : Instant) (q : ProviderRouteQuery)
    (cooldowns : Table RouteCooldown.key) : String :=
  if !account.account.availableForRequests then "account unavailable"
  else if !q.nativeFormats.contains account.route.nativeFormat then "protocol incompatible"
  else
    match (cooldowns.find? ⟨account.accountId, q.model⟩).filter (now < ·.untilInstant) with
    | some cooldown => cooldown.describe now
    | none => describeModels (account.models.filter (·.effectiveModel == q.model))

end RoutedAccount

/-- Each reason once, in order, with the number of accounts it stands for. -/
def countReasons (reasons : List String) : List String :=
  (reasons.dedup.insertionSort (· ≤ ·)).map fun reason =>
    reason ++ " (" ++ toString (reasons.count reason) ++ " account(s))"

namespace Router

def describeUnavailableRoutes (s : Router) (now : Instant) (q : ProviderRouteQuery) : String :=
  let visible := s.accountSnapshot.filter (·.visibleTo q.userId q.accountIds)
  let reasons := visible.map fun account =>
    account.account.providerName ++ ": " ++ account.unavailableReason now q s.cooldowns
  if reasons.isEmpty then
    "no provider accounts are accessible to this API key; check its provider groups"
  else String.intercalate "; " (countReasons reasons)

def unavailableRouteDetails (s : Router) (now : Instant) (q : ProviderRouteQuery) : Option String :=
  some (s.describeUnavailableRoutes now q)

end Router

end ProviderCore.Routing
