import ProviderCore.Routing.Continuation
import ProviderCore.Routing.Isolation

/-!
# The order of an answer

A query that may go to any of the routes of a sorted list either sticks to an account, and the list
is cut in front of its first route and the two pieces swapped, or takes turns: each tier of equal
priority is rotated by its own cursor.
-/

namespace ProviderCore.Routing

open Accounts List

/-! ## Routes that a query is free to take -/

namespace Router

variable (s : Router) (now : Instant) (q : ProviderRouteQuery)

/-- The routes of the accounts that take a query. -/
def found : List Route :=
  candidates q (s.accountSnapshot.filter
    (·.takes q (s.cooldowns.filter (now < ·.untilInstant))))

/-- The routes among which a query may choose; `none` if it is bound to an account. -/
def free : Option (List Route) :=
  match q.previousResponseId with
  | none => some (s.found now q)
  | some previous =>
    match (s.responseBindings.removeExpired responseBindingTtl now).find?
      ⟨q.routingScope, previous⟩ with
    | some _ => none
    | none => some ((s.found now q).filter (!·.2.route.supportsPreviousResponseId))

theorem routes_eq : s.routes now q =
    let s' := { s with cooldowns := s.cooldowns.filter (now < ·.untilInstant) }
    if (s.found now q).isEmpty then ([], s') else
      match q.previousResponseId with
      | none => s'.orderRoutes now q (s.found now q)
      | some previous => s'.continueResponse now q previous (s.found now q) := rfl

variable {s now q} {routes : List Route}

/-- A query that is free orders its routes, in a router with the same affinities. -/
theorem routes_of_free (h : s.free now q = some routes) (hroutes : routes ≠ []) : ∃ s' : Router,
    s'.affinities = s.affinities ∧ s.routes now q = s'.orderRoutes now q routes := by
  rw [routes_eq]
  unfold free at h
  cases hprevious : q.previousResponseId with
  | none =>
    simp only [hprevious, Option.some.injEq] at h ⊢
    rw [h, if_neg (by simpa using hroutes)]
    refine ⟨_, ?_, rfl⟩
    rfl
  | some previous =>
    simp only [hprevious] at h ⊢
    cases hbound : (s.responseBindings.removeExpired responseBindingTtl now).find?
      ⟨q.routingScope, previous⟩ with
    | some => simp [hbound] at h
    | none =>
      simp only [hbound, Option.some.injEq] at h
      have hfound : s.found now q ≠ [] := by
        rintro hnil
        exact hroutes (by rw [← h, hnil]; rfl)
      rw [if_neg (by simpa using hfound)]
      unfold continueResponse
      simp only [hbound, h]
      rw [if_neg (by simpa using hroutes)]
      refine ⟨_, ?_, rfl⟩
      rfl

theorem sorted_of_free (h : s.free now q = some routes) :
    routes.Pairwise (·.2.priority ≤ ·.2.priority) := by
  have hfound : ∀ accounts, (candidates q accounts).Pairwise (·.2.priority ≤ ·.2.priority) := by
    have htotal : Std.Total Route.before := ⟨fun left right => by
      unfold Route.before
      have := le_total left.1 right.1
      grind⟩
    have htrans : IsTrans Route Route.before := ⟨fun left middle right hleft hright => by
      unfold Route.before at *
      have := le_trans (a := left.1) (b := middle.1) (c := right.1)
      grind⟩
    intro accounts
    refine (pairwise_insertionSort Route.before _).imp fun hbefore => ?_
    exact hbefore.elim le_of_lt fun hsame => hsame.1.le
  unfold free found at h
  split at h
  · exact Option.some.inj h ▸ hfound _
  · split at h
    · simp at h
    · exact Option.some.inj h ▸ (hfound _).filter _

end Router

/-! ## Sessions -/

/-- Swapping the pieces around a member of a sorted list leaves them sorted only at its ends, or if
there is nothing to sort. -/
theorem pairwise_swap_iff {before after : List Route} {route : Route}
    (h : (before ++ route :: after).Pairwise (·.2.priority ≤ ·.2.priority)) :
    (after ++ before).Pairwise (·.2.priority ≤ ·.2.priority) ↔ before = [] ∨ after = [] ∨
      ∀ r ∈ before ++ route :: after, ∀ r' ∈ before ++ route :: after,
        r.2.priority = r'.2.priority := by
  obtain ⟨hbefore, hafter, hcut⟩ := pairwise_append.mp h
  rw [pairwise_append]
  constructor
  · rintro ⟨-, -, hswap⟩
    by_contra hends
    push Not at hends
    obtain ⟨hnil, hnil', r, hr, r', hr', hne⟩ := hends
    obtain ⟨first, before, rfl⟩ := exists_cons_of_ne_nil hnil
    obtain ⟨after, last, rfl⟩ := (eq_nil_or_concat' after).resolve_left hnil'
    grind
  · rintro (rfl | rfl | hsame)
    · exact ⟨hafter.of_cons, .nil, by simp⟩
    · exact ⟨.nil, hbefore, by simp⟩
    · refine ⟨hafter.of_cons, hbefore, fun r hr r' hr' => ?_⟩
      exact (hsame r (by simp [hr]) r' (by simp [hr'])).le

namespace Router

variable {s : Router} {now : Instant} {q : ProviderRouteQuery} {routes : List Route}

/-- The position of the route that a query sticks to. -/
def stuckAt (s : Router) (now : Instant) (q : ProviderRouteQuery) (routes : List Route) :
    Option ℕ :=
  (trimmedSession q.sessionId).bind fun sessionId =>
    (s.affinities.live? now ⟨q.routingScope, q.model, sessionId⟩).bind (·.position now routes)

theorem orderRoutes_of_stuckAt {index : ℕ} (h : s.stuckAt now q routes = some index) :
    (s.orderRoutes now q routes).1 = (routes.rotate index).map Prod.snd := by
  unfold stuckAt at h
  unfold orderRoutes
  cases hsession : trimmedSession q.sessionId with
  | none => simp [hsession] at h
  | some =>
    rw [hsession, Option.bind_some, ← SessionAffinities.follow_fst] at h
    simp [h]

/-- A session's account comes first, and the other routes follow in the order of their priorities
just if it is at an end of them or they have one priority. -/
theorem sticky_order_iff {sessionId : String} {affinity : SessionAffinity}
    (hsession : trimmedSession q.sessionId = some sessionId)
    (haffinity : s.affinities.live? now ⟨q.routingScope, q.model, sessionId⟩ = some affinity)
    (hfree : s.free now q = some routes)
    (hroute : ∃ route ∈ routes, route.1 = affinity.accountId) :
    (s.routes now q).1.Perm (routes.map Prod.snd) ∧
      ∃ before route after, routes = before ++ route :: after ∧
        route.1 = affinity.accountId ∧ (∀ r ∈ before, r.1 ≠ affinity.accountId) ∧
        (s.routes now q).1 = (route :: (after ++ before)).map Prod.snd ∧
        ((after ++ before).Pairwise (·.2.priority ≤ ·.2.priority) ↔ before = [] ∨ after = [] ∨
          ∀ r ∈ routes, ∀ r' ∈ routes, r.2.priority = r'.2.priority) := by
  have hsorted := sorted_of_free hfree
  obtain ⟨route, hmem, hid⟩ := hroute
  obtain ⟨s', haffinities, hroutes⟩ := routes_of_free hfree (ne_nil_of_mem hmem)
  rw [hroutes]
  refine ⟨orderRoutes_perm _ _ _ _, ?_⟩
  -- the first route of the account
  obtain ⟨route, hfind⟩ := Option.isSome_iff_exists.mp
    (List.find?_isSome (p := (·.1 == affinity.accountId)) |>.mpr ⟨route, hmem, beq_iff_eq.mpr hid⟩)
  obtain ⟨hid, before, after, rfl, hbefore⟩ := List.find?_eq_some_iff_append.mp hfind
  have hlive := (Option.filter_eq_some_iff.mp haffinity).2
  have hstuck : s'.stuckAt now q (before ++ route :: after) = some before.length := by
    rw [stuckAt, hsession, haffinities, Option.bind_some, haffinity, Option.bind_some,
      SessionAffinity.position, if_pos hlive, List.findIdx?_append, List.findIdx?_cons, if_pos hid]
    have hnone : before.findIdx? (·.1 == affinity.accountId) = none := by
      simpa using hbefore
    simp [hnone]
  refine ⟨before, route, after, rfl, beq_iff_eq.mp hid, by simpa using hbefore, ?_,
    pairwise_swap_iff hsorted⟩
  rw [orderRoutes_of_stuckAt hstuck, rotate_append_length_eq, cons_append]

/-- Accounts of three priorities, with a session on one of them. -/
def tieredRun (accountId : AccountId) : List (Instant × RouterOp) :=
  ([("a", 0), ("b", 1), ("c", 2)].map fun account =>
    (0, .replaceAccountModels "grok" ⟨"grok", account.1, .openAiResponses, .active⟩
      [sampleModel "m"] ⟨some "u", .priv⟩ account.2)) ++
    [(0, .commitSessionAffinity "key" "m" (some "x") accountId)]

/-- A session on the first tier. -/
theorem sticky_order_iff_tiered : ∃ route rest,
    ((after (tieredRun "a")).routes 7 (sampleQuery "key" "x")).1 =
      (route :: rest).map Prod.snd ∧ route.1 = "a" ∧
      rest.Pairwise (·.2.priority ≤ ·.2.priority) := by
  obtain ⟨-, before, route, after, hsplit, hid, hbefore, hroutes, hsorted⟩ :=
    @sticky_order_iff (after (tieredRun "a")) 7 (sampleQuery "key" "x") _ _ _ rfl rfl rfl
      ⟨_, .head _, rfl⟩
  refine ⟨route, after ++ before, hroutes, hid, hsorted.mpr (.inl ?_)⟩
  cases before with
  | nil => rfl
  | cons first =>
    have hfirst : first.1 = "a" := (congrArg Prod.fst (List.cons.inj hsplit).1).symm
    exact absurd hfirst (hbefore first (.head _))

/-- After the session's account the last tier comes before the first one. -/
theorem sticky_order_broken :
    ((after (tieredRun "b")).routes 7 (sampleQuery "key" "x")).1.map
        (fun candidate => (candidate.accountId, candidate.priority)) =
      [(some "b", 1), (some "c", 2), (some "a", 0)] := by
  decide

end Router

end ProviderCore.Routing
