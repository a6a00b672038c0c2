import ProviderCore.Routing.Run

/-!
# Continuations

A query that names a previous response goes to the account that produced the response, for as long
as the binding lives, and otherwise to no account whose provider looks response ids up itself.
-/

namespace ProviderCore.Routing

open Accounts List

/-! ## Routes belong to their accounts -/

/-- The route of each account leads to that account. -/
def Router.RoutesHome (s : Router) : Prop :=
  ∀ account ∈ s.accounts.rows, account.route.accountId = account.accountId

variable {s : Router}

theorem Router.RoutesHome.updateAccount (h : s.RoutesHome) {accountId : AccountId}
    {f : RoutedAccount → RoutedAccount} (hf : ∀ account, (f account).accountId = account.accountId)
    (hroute : ∀ account, (f account).route = account.route) :
    (s.updateAccount accountId f hf).2.RoutesHome := by
  intro account' haccount'
  obtain ⟨account, haccount, rfl⟩ := mem_map.mp haccount'
  split
  · rw [hroute, hf, h account haccount]
  · exact h account haccount

variable {now : Instant}

theorem Router.RoutesHome.perform {s' : Router} {op : RouterOp}
    (h : s.RoutesHome) (hperform : s.perform now op = some s') : s'.RoutesHome := by
  cases op with
  | replaceAccountModels =>
    obtain rfl := Option.some.inj hperform
    unfold Router.replaceAccountModels
    split
    · exact h
    · intro account' haccount'
      rcases Table.mem_upsert.mp haccount' with rfl | ⟨hmem, -⟩
      · rfl
      · exact h account' hmem
  | removeAccount =>
    obtain rfl := Option.some.inj hperform
    unfold Router.removeAccount
    split
    · exact fun account haccount => h account (Table.mem_filter.mp haccount).1
    · exact h
  | updateAccountAccess | updateAccountModels =>
    obtain rfl := Option.some.inj hperform
    exact h.updateAccount _ fun _ => rfl
  | claimUnownedAccountAccess =>
    obtain rfl := Option.some.inj hperform
    intro account' haccount'
    obtain ⟨account, haccount, rfl⟩ := mem_map.mp haccount'
    rw [Router.accountId_claimUnowned, ← h account haccount]
    unfold Router.claimUnowned
    split <;> rfl
  | setAuthState =>
    obtain rfl := Option.some.inj hperform
    exact h.updateAccount _ fun _ => rfl
  | routes q =>
    obtain rfl := Option.some.inj hperform
    intro account haccount
    rw [(Router.routes_snd s now q).1] at haccount
    exact h account haccount
  | commitSessionAffinity =>
    obtain rfl := Option.some.inj hperform
    unfold Router.commitSessionAffinity
    split <;> exact h
  | recordRouteFailure =>
    obtain rfl := Option.some.inj hperform
    unfold Router.recordRouteFailureWithRetryAfter
    split
    · exact h
    · split <;> exact h
  | recordRouteSuccess =>
    obtain rfl := Option.some.inj hperform
    exact h
  | bindResponseId =>
    obtain ⟨_, -, rfl⟩ := Option.map_eq_some_iff.mp hperform
    exact h

/-! ## Candidates -/

/-- The candidate stands for this account and leads to it. -/
def Route.Home (route : Route) : Prop :=
  route.2.accountId = some route.1 ∧ route.2.route.accountId = route.1

variable {accounts : List RoutedAccount} {route : Route}

variable {q : ProviderRouteQuery}

theorem exists_account_of_mem_candidates
    (hroute : route ∈ candidates q accounts) : ∃ account ∈ accounts,
      route.1 = account.accountId ∧ route.2.accountId = some account.accountId ∧
        route.2.route = account.route := by
  have hmem : (∃ account ∈ accounts, route ∈ account.exactRoutes q.model) ∨
      ∃ account ∈ accounts, route ∈ account.fallbackRoutes q.model := by
    unfold candidates at hroute
    rw [mem_insertionSort] at hroute
    split at hroute
    · exact .inr (mem_flatMap.mp hroute)
    · exact .inl (mem_flatMap.mp hroute)
  rcases hmem with ⟨account, haccount, hmem⟩ | ⟨account, haccount, hmem⟩
  · obtain ⟨_, -, rfl⟩ := mem_map.mp hmem
    exact ⟨account, haccount, rfl, rfl, rfl⟩
  · unfold RoutedAccount.fallbackRoutes at hmem
    dsimp only at hmem
    split at hmem
    · obtain rfl := mem_singleton.mp hmem
      exact ⟨account, haccount, rfl, rfl, rfl⟩
    · simp at hmem

theorem home_of_mem_candidates
    (h : ∀ account ∈ accounts, account.route.accountId = account.accountId)
    (hroute : route ∈ candidates q accounts) : Route.Home route := by
  obtain ⟨account, haccount, hid, hself, hleads⟩ := exists_account_of_mem_candidates hroute
  rw [Route.Home, hid, hleads]
  exact ⟨hself, h account haccount⟩

/-! ## Answers -/

section Answers

variable {s : Router} {now : Instant} {q : ProviderRouteQuery} {previous : String}
  {routes : List Route}

/-- A bound continuation gets the route of the bound account or none. -/
theorem continueResponse_of_live (hs : s.responseBindings.Chronological)
    {bound : Stamped ResponseBindingKey AccountId}
    (hbound : s.responseBindings.find? ⟨q.routingScope, previous⟩ = some bound)
    (hlive : bound.Live responseBindingTtl now) (hroutes : ∀ route ∈ routes, Route.Home route) :
    (s.continueResponse now q previous routes).1 = [] ∨
      ∃ candidate, (s.continueResponse now q previous routes).1 = [candidate] ∧
        candidate.accountId = some bound.value ∧ candidate.route.accountId = bound.value := by
  have hfind : (s.responseBindings.removeExpired responseBindingTtl now).find?
      ⟨q.routingScope, previous⟩ = some bound := by
    rw [hs.find?_removeExpired, hbound]
    exact Option.filter_some_pos (by simpa using hlive)
  unfold Router.continueResponse
  simp only [hfind]
  cases hroute : routes.find? (·.1 == bound.value) with
  | none => exact .inl rfl
  | some route =>
    have hhome := hroutes route (mem_of_find?_eq_some hroute)
    have hid : route.1 = bound.value := by simpa using List.find?_some hroute
    rw [Route.Home, hid] at hhome
    exact .inr ⟨route.2, rfl, hhome⟩

/-- An unbound continuation gets no route of a provider that looks response ids up itself. -/
theorem continueResponse_of_not_live (hs : s.responseBindings.Chronological)
    (hbound : ∀ bound ∈ s.responseBindings.find? ⟨q.routingScope, previous⟩,
      ¬bound.Live responseBindingTtl now) {candidate : ProviderRouteCandidate}
    (hcandidate : candidate ∈ (s.continueResponse now q previous routes).1) :
    candidate.route.supportsPreviousResponseId = false := by
  have hfind : (s.responseBindings.removeExpired responseBindingTtl now).find?
      ⟨q.routingScope, previous⟩ = none := by
    rw [hs.find?_removeExpired, Option.filter_eq_none_iff]
    exact fun bound hmem => by simpa using hbound bound hmem
  unfold Router.continueResponse at hcandidate
  simp only [hfind] at hcandidate
  split at hcandidate
  · simp at hcandidate
  · have hmem := (Router.orderRoutes_perm _ _ _ _).mem_iff.mp hcandidate
    obtain ⟨_, hroute, rfl⟩ := mem_map.mp hmem
    simpa using (mem_filter.mp hroute).2

end Answers

/-! ## Whole runs -/

/-- The bindings are sound, and each stems from a call. -/
structure SoundBindings (ops : List (Instant × RouterOp)) (bindings : ResponseBindings) :
    Prop where
  chronological : bindings.Chronological
  size : bindings.entries.rows.length ≤ maxResponseBindings
  origin : ∀ bound ∈ bindings.entries.rows, (bound.boundAt,
    RouterOp.bindResponseId bound.key.routingScope bound.key.responseId bound.value) ∈ ops

/-- A live binding is kept or evicted, but not replaced. -/
def NotRebound (now : Instant) (bindings bindings' : ResponseBindings) : Prop :=
  ∀ bound ∈ bindings.entries.rows, bound.Live responseBindingTtl now →
    ∀ bound' ∈ bindings'.entries.rows, bound'.key = bound.key → bound' = bound

variable {bindings bindings' : ResponseBindings}

theorem notRebound_of_subset (h : ∀ bound ∈ bindings'.entries.rows, bound ∈ bindings.entries.rows) :
    NotRebound now bindings bindings' := fun _ hbound _ _ hbound' hkey =>
  inj_on_of_nodup_map bindings.entries.nodup (h _ hbound') hbound hkey

theorem SoundBindings.of_suffix {ops : List (Instant × RouterOp)} (h : SoundBindings ops bindings)
    (hchron : bindings'.Chronological)
    (hsuffix : bindings'.entries.rows <:+ bindings.entries.rows) (op : Instant × RouterOp) :
    SoundBindings (ops ++ [op]) bindings' where
  chronological := hchron
  size := hsuffix.length_le.trans h.size
  origin bound hbound := mem_append_left _ (h.origin bound (hsuffix.mem hbound))

/-- Every call returns, and keeps the bindings sound. -/
theorem SoundBindings.perform {ops : List (Instant × RouterOp)}
    (h : SoundBindings ops s.responseBindings) (hclock : ∀ time ∈ ops.map Prod.fst, time ≤ now)
    (op : RouterOp) : ∃ s', s.perform now op = some s' ∧
      SoundBindings (ops ++ [(now, op)]) s'.responseBindings ∧
      NotRebound now s.responseBindings s'.responseBindings := by
  rcases s.perform_responseBindings now op with
    ⟨s', hperform, hsame | hexpired⟩ | ⟨routingScope, responseId, accountId, rfl⟩
  · refine ⟨s', hperform, hsame ▸ h.of_suffix h.chronological suffix_rfl _, ?_⟩
    exact notRebound_of_subset fun bound hbound => hsame ▸ hbound
  · have hsuffix := h.chronological.inStep.removeExpired_suffix responseBindingTtl now
    refine ⟨s', hperform, hexpired ▸ h.of_suffix (h.chronological.removeExpired _ _) hsuffix _, ?_⟩
    exact notRebound_of_subset fun bound hbound => hsuffix.mem (hexpired ▸ hbound)
  · have hpast : ∀ bound ∈ s.responseBindings.entries.rows, bound.boundAt ≤ now :=
      fun bound hbound => hclock _ (mem_map_of_mem (h.origin bound hbound))
    obtain ⟨bindings, hinsert, hinserted⟩ := h.chronological.insert responseBindingTtl
      (by decide : 0 < maxResponseBindings) h.size hpast ⟨routingScope, responseId⟩ accountId
    refine ⟨{ s with responseBindings := bindings }, ?_,
      ⟨hinserted.chronological, hinserted.size, ?_⟩, hinserted.kept⟩
    · show (s.responseBindings.insert _ _ _ _ _).map _ = _
      rw [hinsert]
      rfl
    · intro bound hbound
      rcases hinserted.mem bound hbound with hmem | rfl
      · exact mem_append_left _ (h.origin bound hmem)
      · exact mem_append_right _ (mem_singleton.mpr rfl)

/-- Every run with a clock that does not go back returns, with sound bindings. -/
theorem exists_run (ops : List (Instant × RouterOp))
    (hclock : (ops.map Prod.fst).Pairwise (· ≤ ·)) :
    ∃ s, Router.new.run ops = some s ∧ s.RoutesHome ∧ SoundBindings ops s.responseBindings := by
  induction ops using List.reverseRecOn with
  | nil =>
    refine ⟨Router.new, rfl, fun account haccount => ?_, ExpiringMap.chronological_empty, ?_,
      fun bound hbound => ?_⟩
    · exact absurd haccount (not_mem_nil)
    · exact Nat.zero_le _
    · exact absurd hbound (not_mem_nil)
  | append_singleton _ op ih =>
    rw [map_append, pairwise_append] at hclock
    obtain ⟨_, hrun, hhome, hsound⟩ := ih hclock.1
    obtain ⟨s', hperform, hsound', -⟩ := hsound.perform
      (fun time htime => hclock.2.2 time htime op.1 (by simp)) op.2
    exact ⟨s', by rw [Router.run_append_singleton, hrun, Option.bind_some, hperform],
      hhome.perform hperform, hsound'⟩

/-- What holds of a router after a run. -/
structure ContinuationsSafe (ops : List (Instant × RouterOp)) (s : Router) : Prop where
  /-- The queue holds the keys of the map, each once; those of the map are distinct anyway. -/
  queue_nodup : (s.responseBindings.oldestFirst.map Prod.snd).Nodup
  queue_keys : ∀ key, key ∈ s.responseBindings.oldestFirst.map Prod.snd ↔
    (s.responseBindings.find? key).isSome
  size : s.responseBindings.entries.rows.length ≤ maxResponseBindings
  /-- A binding was made in its own routing scope, for the account it names. -/
  origin : ∀ key bound, s.responseBindings.find? key = some bound → (bound.boundAt,
    RouterOp.bindResponseId key.routingScope key.responseId bound.value) ∈ ops
  /-- The next call returns, and leaves a live binding as it is or drops it. -/
  kept : ∀ now, (∀ time ∈ ops.map Prod.fst, time ≤ now) → ∀ op, ∃ s', s.perform now op = some s' ∧
    ∀ key bound, s.responseBindings.find? key = some bound →
      bound.Live responseBindingTtl now →
        s'.responseBindings.find? key = some bound ∨ s'.responseBindings.find? key = none
  /-- With a live binding the next query gets a route of the bound account or none. -/
  bound : ∀ now q previous bound, q.previousResponseId = some previous →
    s.responseBindings.find? ⟨q.routingScope, previous⟩ = some bound →
      bound.Live responseBindingTtl now →
        (s.routes now q).1 = [] ∨ ∃ candidate, (s.routes now q).1 = [candidate] ∧
          candidate.accountId = some bound.value ∧ candidate.route.accountId = bound.value
  /-- Without one it gets none whose provider looks response ids up itself. -/
  unbound : ∀ now q previous, q.previousResponseId = some previous →
    (∀ bound ∈ s.responseBindings.find? ⟨q.routingScope, previous⟩,
      ¬bound.Live responseBindingTtl now) →
        ∀ candidate ∈ (s.routes now q).1, candidate.route.supportsPreviousResponseId = false

section

variable {ops : List (Instant × RouterOp)} {s : Router} {now : Instant}

/-- A query that continues a response is answered from the routes of the accounts that take it. -/
theorem routes_fst_of_previous {previous : String} (h : s.RoutesHome)
    (hprevious : q.previousResponseId = some previous) :
    (s.routes now q).1 = [] ∨ ∃ s' : Router, ∃ routes, s'.responseBindings = s.responseBindings ∧
      (∀ route ∈ routes, Route.Home route) ∧
        (s.routes now q).1 = (s'.continueResponse now q previous routes).1 := by
  unfold Router.routes
  dsimp only
  split
  · exact .inl rfl
  · rw [hprevious]
    refine .inr ⟨_, _, ?_, ?_, rfl⟩
    · rfl
    · intro route hroute
      refine home_of_mem_candidates (fun account haccount => h account ?_) hroute
      exact (mem_insertionSort _).mp (mem_filter.mp haccount).1

theorem SoundBindings.not_rebound (h : SoundBindings ops s.responseBindings)
    (hclock : ∀ time ∈ ops.map Prod.fst, time ≤ now) (op : RouterOp) :
    ∃ s', s.perform now op = some s' ∧ ∀ key bound,
      s.responseBindings.find? key = some bound → bound.Live responseBindingTtl now →
        s'.responseBindings.find? key = some bound ∨ s'.responseBindings.find? key = none := by
  obtain ⟨s', hperform, -, hkept⟩ := h.perform hclock op
  refine ⟨s', hperform, fun key bound hbound hlive => ?_⟩
  obtain ⟨hmem, rfl⟩ := Table.find?_eq_some.mp hbound
  cases hfind : s'.responseBindings.find? bound.key with
  | none => exact .inr rfl
  | some bound' =>
    obtain ⟨hmem', hkey⟩ := Table.find?_eq_some.mp hfind
    exact .inl (congrArg some (hkept bound hmem hlive bound' hmem' hkey))

end

/-- A continuation is only served by the account that produced the response. -/
theorem continuations_safe (ops : List (Instant × RouterOp))
    (hclock : (ops.map Prod.fst).Pairwise (· ≤ ·)) :
    ∃ s, Router.new.run ops = some s ∧ ContinuationsSafe ops s := by
  obtain ⟨s, hrun, hhome, hsound⟩ := exists_run ops hclock
  have hkeys := hsound.chronological.inStep.keys
  refine ⟨s, hrun, ?_, fun key => ?_, hsound.size, fun key bound hbound => ?_,
    fun now hnow op => hsound.not_rebound hnow op, ?_, ?_⟩
  · rw [hkeys]
    exact s.responseBindings.entries.nodup
  · rw [hkeys, mem_map, Option.isSome_iff_exists]
    exact exists_congr fun bound => Table.find?_eq_some.symm
  · obtain ⟨hmem, rfl⟩ := Table.find?_eq_some.mp hbound
    exact hsound.origin bound hmem
  · intro now q previous bound hprevious hbound hlive
    rcases routes_fst_of_previous hhome hprevious with hnil | ⟨s', routes, hs', hroutes, hanswer⟩
    · exact .inl hnil
    · rw [hanswer]
      exact continueResponse_of_live (hs' ▸ hsound.chronological) (hs' ▸ hbound) hlive hroutes
  · intro now q previous hprevious hbound candidate hcandidate
    rcases routes_fst_of_previous hhome hprevious with hnil | ⟨s', routes, hs', -, hanswer⟩
    · rw [hnil] at hcandidate
      exact absurd hcandidate not_mem_nil
    · rw [hanswer] at hcandidate
      exact continueResponse_of_not_live (hs' ▸ hsound.chronological) (hs' ▸ hbound) hcandidate

/-- An account is registered, makes a response, and another one is removed. -/
def boundRun : List (Instant × RouterOp) :=
  [(0, .replaceAccountModels "codex" ⟨"codex", "a", .openAiResponses, .active⟩
      [sampleModel "m"] ⟨some "u", .priv⟩ 0),
    (5, .bindResponseId "key" "r" "a"),
    (9, .removeAccount "b")]

theorem continuations_safe_boundRun : (boundRun.map Prod.fst).Pairwise (· ≤ ·) ∧
    ∃ s, Router.new.run boundRun = some s ∧ ContinuationsSafe boundRun s :=
  ⟨by decide, continuations_safe boundRun (by decide)⟩

end ProviderCore.Routing
