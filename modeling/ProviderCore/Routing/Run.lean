import ProviderCore.Routing.Routes

/-!
# Runs of the router

Every call that writes to the router, and sequences of such calls with the clock reading of each.
A call that fails or panics leaves the router as it was; `none` is a call that does not return.
-/

namespace ProviderCore.Routing

open Accounts

inductive RouterOp
  | replaceAccountModels (runtime : String) (account : ProviderAccount)
      (models : List StoredProviderModel) (access : ProviderAccountAccess) (priority : ℕ)
  | removeAccount (accountId : AccountId)
  | updateAccountAccess (accountId : AccountId) (access : ProviderAccountAccess)
  | updateAccountModels (accountId : AccountId) (models : List StoredProviderModel)
  | claimUnownedAccountAccess (ownerUserId : String)
  /-- The account object changes its state on its own. -/
  | setAuthState (accountId : AccountId) (authState : AuthState)
  | routes (q : ProviderRouteQuery)
  | commitSessionAffinity (routingScope model : String) (sessionId : Option String)
      (accountId : AccountId)
  | recordRouteFailure (accountId : AccountId) (model : String) (reason : ProviderFailoverReason)
      (retryAfter : Option ℕ)
  | recordRouteSuccess (accountId : AccountId) (model : String)
  | bindResponseId (routingScope responseId : String) (accountId : AccountId)

namespace Router

def perform (s : Router) (now : Instant) : RouterOp → Option Router
  | .replaceAccountModels runtime account models access priority =>
    some ((s.replaceAccountModels runtime account models access priority).toOption.getD s)
  | .removeAccount accountId => some (s.removeAccount accountId).2
  | .updateAccountAccess accountId access => some (s.updateAccountAccess accountId access).2
  | .updateAccountModels accountId models => some (s.updateAccountModels accountId models).2
  | .claimUnownedAccountAccess ownerUserId => some (s.claimUnownedAccountAccess ownerUserId)
  | .setAuthState accountId authState => some (s.setAuthState accountId authState)
  | .routes q => some (s.routes now q).2
  | .commitSessionAffinity routingScope model sessionId accountId =>
    some (s.commitSessionAffinity now routingScope model sessionId accountId)
  | .recordRouteFailure accountId model reason retryAfter =>
    some ((s.recordRouteFailureWithRetryAfter now accountId model reason retryAfter).getD s)
  | .recordRouteSuccess accountId model => some (s.recordRouteSuccess accountId model)
  | .bindResponseId routingScope responseId accountId =>
    s.bindResponseId now routingScope responseId accountId

def run (s : Router) (ops : List (Instant × RouterOp)) : Option Router :=
  ops.foldlM (fun s op => s.perform op.1 op.2) s

theorem run_append_singleton (s : Router) (ops : List (Instant × RouterOp))
    (op : Instant × RouterOp) :
    s.run (ops ++ [op]) = (s.run ops).bind fun s => s.perform op.1 op.2 := by
  rw [run, List.foldlM_append]
  exact congrArg _ (funext fun s => bind_pure _)

/-- A run from an empty router that returns. -/
def after (ops : List (Instant × RouterOp)) : Router := (new.run ops).getD new

/-! ## What a query leaves alone -/

section Frame

variable (s : Router) (now : Instant) (q : ProviderRouteQuery) (routes : List Route)

/-- Ordering the routes moves cursors and affinities only. -/
theorem orderRoutes_snd : ∃ affinities selections,
    (s.orderRoutes now q routes).2 = { s with affinities, selections } := by
  unfold orderRoutes
  cases trimmedSession q.sessionId with
  | none => exact ⟨s.affinities, _, rfl⟩
  | some =>
    dsimp only
    split
    · exact ⟨_, s.selections, rfl⟩
    · exact ⟨_, _, rfl⟩

theorem continueResponse_snd (previous : String) : ∃ affinities selections,
    (s.continueResponse now q previous routes).2 = { s with
      affinities, selections
      responseBindings := s.responseBindings.removeExpired responseBindingTtl now } := by
  unfold continueResponse
  dsimp only
  split
  · exact ⟨s.affinities, s.selections, rfl⟩
  · split
    · exact ⟨s.affinities, s.selections, rfl⟩
    · obtain ⟨affinities, selections, horder⟩ := orderRoutes_snd { s with
        responseBindings := s.responseBindings.removeExpired responseBindingTtl now } now q
        (routes.filter (!·.2.route.supportsPreviousResponseId))
      exact ⟨affinities, selections, horder⟩

/-- A query leaves the accounts alone, drops the cooldowns that are over, and at most removes
expired bindings. -/
theorem routes_snd : (s.routes now q).2.accounts = s.accounts ∧
    (s.routes now q).2.cooldowns = s.cooldowns.filter (now < ·.untilInstant) ∧
    ((s.routes now q).2.responseBindings = s.responseBindings ∨
      (s.routes now q).2.responseBindings =
        s.responseBindings.removeExpired responseBindingTtl now) := by
  unfold Router.routes
  dsimp only
  split
  · exact ⟨rfl, rfl, .inl rfl⟩
  · split
    · obtain ⟨_, _, horder⟩ := orderRoutes_snd
        { s with cooldowns := s.cooldowns.filter (now < ·.untilInstant) } now q _
      rw [horder]
      exact ⟨rfl, rfl, .inl rfl⟩
    · obtain ⟨_, _, horder⟩ := continueResponse_snd
        { s with cooldowns := s.cooldowns.filter (now < ·.untilInstant) } now q _ _
      rw [horder]
      exact ⟨rfl, rfl, .inr rfl⟩

end Frame

/-! ## What a call does to the bindings and the accounts -/

/-- Only a query and a new binding touch the bindings. -/
theorem perform_responseBindings (s : Router) (now : Instant) (op : RouterOp) :
    (∃ s', s.perform now op = some s' ∧ (s'.responseBindings = s.responseBindings ∨
        s'.responseBindings = s.responseBindings.removeExpired responseBindingTtl now)) ∨
      ∃ routingScope responseId accountId,
        op = .bindResponseId routingScope responseId accountId := by
  cases op with
  | replaceAccountModels =>
    refine .inl ⟨_, rfl, .inl ?_⟩
    unfold replaceAccountModels
    split <;> rfl
  | removeAccount =>
    refine .inl ⟨_, rfl, .inl ?_⟩
    unfold removeAccount
    split <;> rfl
  | updateAccountAccess | updateAccountModels | claimUnownedAccountAccess | setAuthState =>
    exact .inl ⟨_, rfl, .inl rfl⟩
  | routes q => exact .inl ⟨_, rfl, (routes_snd s now q).2.2⟩
  | commitSessionAffinity =>
    refine .inl ⟨_, rfl, .inl ?_⟩
    unfold commitSessionAffinity
    split <;> rfl
  | recordRouteFailure =>
    refine .inl ⟨_, rfl, .inl ?_⟩
    unfold recordRouteFailureWithRetryAfter
    split
    · rfl
    · split <;> rfl
  | recordRouteSuccess => exact .inl ⟨_, rfl, .inl rfl⟩
  | bindResponseId => exact .inr ⟨_, _, _, rfl⟩

end Router

end ProviderCore.Routing
