import Mathlib.Data.List.SplitBy
import ProviderCore.Routing.Router

/-!
# Answering a query

The candidates for a query are collected from the accounts it may use, sorted, and then reordered:
a continuation goes to the account that produced the response, a session sticks to its account, and
all else takes turns within each tier of equal priority.
-/

namespace ProviderCore.Routing

open Accounts

/-- The model is switched on and may be routed. -/
def StoredProviderModel.serves (model : StoredProviderModel) : Bool :=
  model.enabled && model.available && model.routable && modelContractIsRoutable model

def RoutedAccount.visibleTo (account : RoutedAccount) (userId : String)
    (accountIds : Option (List AccountId)) : Bool :=
  account.access.allows userId && accountIds.all (·.contains account.accountId)

/-! ## The listing of models -/

structure RoutableProviderModel where
  model : ProviderModel
  nativeFormats : List WireFormat
deriving DecidableEq

/-- The listing under construction, by the name of the model. -/
abbrev ModelListing := Table (Prod.fst : String × RoutableProviderModel → String)

/-- Enter an offer of a model; `none` if its metadata has to be read and is malformed. -/
def listModel (nativeFormat : WireFormat) (listing : ModelListing) (model : StoredProviderModel) :
    Option ModelListing := do
  let entry ← match listing.find? model.effectiveModel with
    | some entry => some entry.2
    | none => (model.metadataJson.bind providerModelFromJson).map fun providerModel =>
        ⟨{ providerModel with id := model.effectiveModel }.withInputModalities
          model.inputModalities, []⟩
  let inputModalities :=
    conservativeInputModalities entry.model.inputModalities model.inputModalities
  let nativeFormats := if entry.nativeFormats.contains nativeFormat then entry.nativeFormats
    else entry.nativeFormats ++ [nativeFormat]
  return listing.upsert
    (model.effectiveModel, ⟨entry.model.withInputModalities inputModalities, nativeFormats⟩)

/-- Enter a model if it is listed; `none` if its metadata has to be read and is malformed. -/
def listIfPublic (nativeFormat : WireFormat) (listing : ModelListing)
    (model : StoredProviderModel) : Option ModelListing :=
  if model.enabled && model.available && model.routable then
    model.isPubliclyListed.bind fun listed =>
      if listed && modelContractIsRoutable model then listModel nativeFormat listing model
      else some listing
  else some listing

def listAccount (listing : ModelListing) (account : RoutedAccount) : Option ModelListing :=
  account.models.foldlM (listIfPublic account.route.nativeFormat) listing

/-- The models a user can ask for; `none` if the metadata of one is malformed. -/
def Router.models (s : Router) (userId : String) (accountIds : Option (List AccountId)) :
    Option (List RoutableProviderModel) :=
  let accounts := s.accountSnapshot.filter fun account =>
    account.visibleTo userId accountIds && account.account.availableForRequests
  (accounts.foldlM listAccount Table.empty).map fun listing =>
    (listing.rows.insertionSort (·.1 ≤ ·.1)).map Prod.snd

/-! ## Candidates -/

/-- A candidate with the account it belongs to. -/
abbrev Route := AccountId × ProviderRouteCandidate

namespace RoutedAccount

section

variable (account : RoutedAccount)

/-- The account is able to take the query. -/
def ready (q : ProviderRouteQuery) (cooldowns : Table RouteCooldown.key) : Bool :=
  account.account.availableForRequests && q.nativeFormats.contains account.route.nativeFormat &&
    (cooldowns.find? ⟨account.accountId, q.model⟩).isNone

/-- The account may and can take the query. -/
def takes (q : ProviderRouteQuery) (cooldowns : Table RouteCooldown.key) : Bool :=
  account.visibleTo q.userId q.accountIds && account.ready q cooldowns

def exactRoutes (model : String) : List Route :=
  (account.models.filter fun providerModel =>
    providerModel.serves && providerModel.effectiveModel == model).map fun providerModel =>
      (account.accountId,
        { accountId := some account.accountId
          priority := account.priority
          upstreamModel := providerModel.upstreamModel
          inputModalities := providerModel.inputModalities
          responsesLite := modelUsesResponsesLite providerModel
          pricing := providerModel.pricing
          route := account.route })

/-- Model discovery of compatible providers is advisory: a model it does not know is tried. -/
def fallbackRoutes (model : String) : List Route :=
  let known := account.models.any fun providerModel =>
    providerModel.effectiveModel == model || providerModel.upstreamModel == model
  if account.account.providerName == "openai_compatible" && !known then
    [(account.accountId,
      { accountId := some account.accountId
        priority := account.priority
        upstreamModel := model
        inputModalities := none
        responsesLite := false
        pricing := none
        route := account.route })]
  else []

end

end RoutedAccount

/-- Lower priorities first, then smaller ids. -/
def Route.before (left right : Route) : Prop :=
  left.2.priority < right.2.priority ∨
    (left.2.priority = right.2.priority ∧ left.1 ≤ right.1)

instance : DecidableRel Route.before := fun _ _ => inferInstanceAs (Decidable (_ ∨ _))

/-- The sorted candidates of the accounts that can take the query. -/
def candidates (q : ProviderRouteQuery) (accounts : List RoutedAccount) : List Route :=
  let exact := accounts.flatMap (·.exactRoutes q.model)
  let found := if exact.isEmpty then accounts.flatMap (·.fallbackRoutes q.model) else exact
  found.insertionSort Route.before

/-! ## Turns -/

section

variable (routingScope model : String) (selections : Table Selection.key)

/-- Rotate one tier by its cursor and advance the cursor. -/
def rotateTier (tier : List Route) : List Route × Table Selection.key :=
  match tier with
  | first :: _ :: _ =>
    let key := ⟨routingScope, model, first.2.priority⟩
    let cursor := ((selections.find? key).map Selection.cursor).getD 0
    (tier.rotate (cursor.toNat % tier.length), selections.upsert ⟨key, cursor + 1⟩)
  | _ => (tier, selections)

def rotateTiers (routingScope model : String) (selections : Table Selection.key) :
    List (List Route) → List Route × Table Selection.key
  | [] => ([], selections)
  | tier :: tiers =>
    let rotated := rotateTier routingScope model selections tier
    let rest := rotateTiers routingScope model rotated.2 tiers
    (rotated.1 ++ rest.1, rest.2)

def rotateRoundRobin (routes : List Route) : List Route × Table Selection.key :=
  rotateTiers routingScope model selections
    (routes.splitBy fun left right => left.2.priority == right.2.priority)

theorem rotateTier_perm (tier : List Route) :
    (rotateTier routingScope model selections tier).1.Perm tier := by
  unfold rotateTier
  split
  · exact List.rotate_perm _ _
  · exact List.Perm.refl _

theorem rotateTiers_perm (tiers : List (List Route)) :
    (rotateTiers routingScope model selections tiers).1.Perm tiers.flatten := by
  induction tiers generalizing selections with
  | nil => exact List.Perm.refl _
  | cons tier _ ih => exact (rotateTier_perm _ _ _ tier).append (ih _)

theorem rotateRoundRobin_perm (routes : List Route) :
    (rotateRoundRobin routingScope model selections routes).1.Perm routes := by
  have hperm := rotateTiers_perm routingScope model selections
    (routes.splitBy fun left right => left.2.priority == right.2.priority)
  rwa [List.flatten_splitBy] at hperm

end

/-! ## Sessions -/

def SessionAffinity.live (now : Instant) (affinity : SessionAffinity) : Bool :=
  now - affinity.lastUsed < sessionAffinityTtl

/-- The position of the account's first route, as long as the affinity lives. -/
def SessionAffinity.position (now : Instant) (routes : List Route) (affinity : SessionAffinity) :
    Option ℕ :=
  if affinity.live now then routes.findIdx? (·.1 == affinity.accountId) else none

namespace SessionAffinities

/-- Drop what has expired, unless that was done within the interval. -/
def cleanUp (now : Instant) (affinities : SessionAffinities) : SessionAffinities :=
  if affinities.lastCleanup.all (sessionAffinityCleanupInterval ≤ now - ·) then
    ⟨affinities.entries.filter (·.live now), some now⟩
  else affinities

/-- The position of the route a session sticks to.  The affinity is renewed if it is followed and
forgotten if it cannot be. -/
def stick (now : Instant) (key : SessionAffinityKey) (routes : List Route)
    (affinities : SessionAffinities) : Option ℕ × SessionAffinities :=
  match affinities.entries.find? key with
  | none => (none, affinities)
  | some affinity =>
    match affinity.position now routes with
    | some index => (some index, { affinities with
        entries := affinities.entries.upsert { affinity with lastUsed := now } })
    | none => (none, { affinities with entries := affinities.entries.filter (·.key ≠ key) })

def follow (now : Instant) (key : SessionAffinityKey) (routes : List Route)
    (affinities : SessionAffinities) : Option ℕ × SessionAffinities :=
  (affinities.cleanUp now).stick now key routes

end SessionAffinities

namespace Router

variable (s : Router) (now : Instant) (q : ProviderRouteQuery)

def roundRobin (routes : List Route) : List ProviderRouteCandidate × Router :=
  let rotated := rotateRoundRobin q.routingScope q.model s.selections routes
  (rotated.1.map Prod.snd, { s with selections := rotated.2 })

/-- Order the routes for a request that is free to go to any of them. -/
def orderRoutes (routes : List Route) : List ProviderRouteCandidate × Router :=
  match trimmedSession q.sessionId with
  | none => s.roundRobin q routes
  | some sessionId =>
    let followed := s.affinities.follow now ⟨q.routingScope, q.model, sessionId⟩ routes
    match followed.1 with
    | some index => ((routes.rotate index).map Prod.snd, { s with affinities := followed.2 })
    | none => { s with affinities := followed.2 }.roundRobin q routes

theorem orderRoutes_perm (routes : List Route) :
    (s.orderRoutes now q routes).1.Perm (routes.map Prod.snd) := by
  unfold orderRoutes
  cases trimmedSession q.sessionId with
  | none => exact (rotateRoundRobin_perm _ _ _ routes).map _
  | some =>
    dsimp only
    split
    · exact (List.rotate_perm _ _).map _
    · exact (rotateRoundRobin_perm _ _ _ routes).map _

/-- Narrow the routes down for a request that continues a response. -/
def continueResponse (previous : String) (routes : List Route) :
    List ProviderRouteCandidate × Router :=
  let s := { s with responseBindings := s.responseBindings.removeExpired responseBindingTtl now }
  match s.responseBindings.find? ⟨q.routingScope, previous⟩ with
  | some bound => ((routes.find? (·.1 == bound.value)).toList.map Prod.snd, s)
  | none =>
    let routes := routes.filter (!·.2.route.supportsPreviousResponseId)
    if routes.isEmpty then ([], s) else s.orderRoutes now q routes

def routes : List ProviderRouteCandidate × Router :=
  let s := { s with cooldowns := s.cooldowns.filter (now < ·.untilInstant) }
  let found := candidates q (s.accountSnapshot.filter (·.takes q s.cooldowns))
  if found.isEmpty then ([], s) else
    match q.previousResponseId with
    | none => s.orderRoutes now q found
    | some previous => s.continueResponse now q previous found

end Router

end ProviderCore.Routing
