import ProviderCore.Routing.Continuation
import ProviderCore.Routing.Isolation

/-!
# Cooldowns under several failures

A model of an account that cools down gets no request.  A failure reported meanwhile replaces the
end of the cooldown by its own, so it keeps the account out for as long as before just if its own
cooldown does not end earlier.
-/

namespace ProviderCore.Routing

open Accounts List

/-- What requests in flight do to cooldowns as long as none succeeds. -/
inductive RouteReport
  | failed (accountId : AccountId) (model : String) (reason : ProviderFailoverReason)
      (retryAfter : Option ℕ)
  | asked (q : ProviderRouteQuery)

namespace Router

def report (s : Router) (now : Instant) : RouteReport → Router
  | .failed accountId model reason retryAfter =>
    (s.recordRouteFailureWithRetryAfter now accountId model reason retryAfter).getD s
  | .asked q => (s.routes now q).2

def reports (s : Router) (rs : List (Instant × RouteReport)) : Router :=
  rs.foldl (fun s r => s.report r.1 r.2) s

def Cooling (s : Router) (key : CooldownKey) (now : Instant) : Prop :=
  ∃ cooldown ∈ s.cooldowns.find? key, now < cooldown.untilInstant

/-- The report does not end a cooldown earlier; a failure whose cooldown has no end panics. -/
def Extends (s : Router) (now : Instant) : RouteReport → Prop
  | .failed accountId model reason retryAfter =>
    ∀ cooldown ∈ s.cooldowns.find? ⟨accountId, model⟩, now < cooldown.untilInstant →
      ∀ duration ∈ cooldownDuration reason retryAfter,
        cooldown.untilInstant ≤ now + duration ∨ instantLimit ≤ now + duration
  | .asked _ => True

section

variable (s : Router) (now : Instant)

variable {q : ProviderRouteQuery}

theorem mem_routes {candidate : ProviderRouteCandidate}
    (h : candidate ∈ (s.routes now q).1) : ∃ route ∈ candidates q (s.accountSnapshot.filter
      (·.takes q (s.cooldowns.filter (now < ·.untilInstant)))), route.2 = candidate := by
  unfold Router.routes at h
  dsimp only at h
  split at h
  · simp at h
  · split at h
    · exact mem_map.mp ((orderRoutes_perm _ _ _ _).mem_iff.mp h)
    · unfold continueResponse at h
      dsimp only at h
      split at h
      · obtain ⟨route, hroute, rfl⟩ := mem_map.mp h
        exact ⟨route, mem_of_find?_eq_some (Option.mem_toList.mp hroute), rfl⟩
      · split at h
        · simp at h
        · obtain ⟨route, hroute, rfl⟩ :=
            mem_map.mp ((orderRoutes_perm _ _ _ _).mem_iff.mp h)
          exact ⟨route, mem_of_mem_filter hroute, rfl⟩

/-- What cools down is not routed to. -/
theorem Cooling.no_candidate {s : Router} {now : Instant} {accountId : AccountId}
    (h : s.Cooling ⟨accountId, q.model⟩ now) :
    ∀ candidate ∈ (s.routes now q).1, candidate.accountId ≠ some accountId := by
  intro candidate hcandidate heq
  obtain ⟨_, hroute, rfl⟩ := s.mem_routes now hcandidate
  obtain ⟨account, haccount, -, hid, -⟩ := exists_account_of_mem_candidates hroute
  obtain rfl : account.accountId = accountId := Option.some.inj (hid.symm.trans heq)
  obtain ⟨_, hfind, hlater⟩ := h
  have htakes := (mem_filter.mp haccount).2
  simp only [RoutedAccount.takes, RoutedAccount.ready, Bool.and_eq_true] at htakes
  rw [Table.find?_filter, Option.mem_def.mp hfind, Option.filter_some_pos (by simpa using hlater)]
    at htakes
  simp at htakes

/-- A new cooldown stands alone at its key. -/
theorem cooling_upsert (cooldown : RouteCooldown) (key : CooldownKey) (time : Instant) :
    ({ s with cooldowns := s.cooldowns.upsert cooldown } : Router).Cooling key time ↔
      if cooldown.key = key then time < cooldown.untilInstant else s.Cooling key time := by
  unfold Cooling
  rw [Table.find?_upsert]
  split <;> simp

/-- One report leaves every cooldown in force just if it ends none earlier. -/
theorem cooling_report_iff (r : RouteReport) :
    (∀ key time, now ≤ time → s.Cooling key time → (s.report now r).Cooling key time) ↔
      s.Extends now r := by
  cases r with
  | asked q =>
    refine iff_of_true ?_ trivial
    rintro _ _ htime ⟨cooldown, hfind, hlater⟩
    refine ⟨cooldown, ?_, hlater⟩
    rw [report, (routes_snd s now q).2.1, Table.find?_filter, Option.mem_def.mp hfind]
    exact Option.filter_some_pos (by simpa using htime.trans_lt hlater)
  | failed accountId model reason retryAfter =>
    unfold report recordRouteFailureWithRetryAfter Extends
    cases hduration : cooldownDuration reason retryAfter with
    | none => simp [hduration]
    | some duration =>
      simp only [hduration]
      by_cases hlimit : now + duration < instantLimit
      · rw [if_pos hlimit]
        simp only [Option.getD_some, cooling_upsert, Option.mem_some_iff, forall_eq']
        constructor
        · intro h cooldown hfind hlater
          have hend := h ⟨accountId, model⟩ (cooldown.untilInstant - 1)
            (Nat.le_sub_one_of_lt hlater) ⟨cooldown, hfind, Nat.sub_one_lt_of_lt hlater⟩
          rw [if_pos rfl] at hend
          exact .inl (Nat.le_of_pred_lt hend)
        · rintro h key _ htime ⟨cooldown, hfind, hlater⟩
          split
          · subst key
            rcases h cooldown hfind (htime.trans_lt hlater) with hend | hend
            · exact hlater.trans_le hend
            · exact absurd hlimit hend.not_gt
          · exact ⟨cooldown, hfind, hlater⟩
      · rw [if_neg hlimit]
        refine iff_of_true (fun _ _ _ h => h) fun _ _ _ duration' hduration' => .inr ?_
        exact Option.mem_some_iff.mp hduration' ▸ not_lt.mp hlimit

end

theorem reports_append (s : Router) (rs rs' : List (Instant × RouteReport)) :
    s.reports (rs ++ rs') = (s.reports rs).reports rs' :=
  foldl_append

/-- What cools down stays out until the end of its cooldown just if no failure ends one earlier. -/
theorem cooldowns_kept_iff (s : Router) (rs : List (Instant × RouteReport)) :
    (∀ before between after, rs = before ++ between ++ after → ∀ key time,
      (∀ r ∈ between, r.1 ≤ time) → (s.reports before).Cooling key time →
        (s.reports (before ++ between)).Cooling key time ∧
        ∀ q : ProviderRouteQuery, q.model = key.model →
          ∀ candidate ∈ ((s.reports (before ++ between)).routes time q).1,
            candidate.accountId ≠ some key.accountId) ↔
      ∀ before r after, rs = before ++ r :: after → (s.reports before).Extends r.1 r.2 := by
  constructor
  · intro h before r after hrs
    refine (cooling_report_iff _ _ _).mp fun key time htime hcooling => ?_
    have hkept := (h before [r] after (by simpa using hrs) key time (by simpa using htime)
      hcooling).1
    rwa [reports_append] at hkept
  · intro h before between after hrs key time htime hcooling
    have hkept : (s.reports (before ++ between)).Cooling key time := by
      induction between using List.reverseRecOn generalizing after with
      | nil => rwa [append_nil]
      | append_singleton between r ih =>
        have hbefore := ih (r :: after) (by simpa using hrs)
          fun r' hr' => htime r' (mem_append_left _ hr')
        rw [← append_assoc, reports_append]
        exact (cooling_report_iff _ _ _).mpr (h (before ++ between) r after (by simpa using hrs))
          key time (htime r (by simp)) hbefore
    refine ⟨hkept, fun q hq => Cooling.no_candidate ?_⟩
    rwa [hq]

/-- Two requests fail at once: the credentials are spent, and the upstream asks for a pause. -/
def spentReports : List (Instant × RouteReport) :=
  [(0, .failed "a" "m" .authenticationExhausted none), (1, .failed "a" "m" .rateLimited none)]

/-- The pause ends the cooldown of the spent credentials: the account is routed to a minute on. -/
theorem cooldown_shortened :
    (((after quietRun).reports [(0, .failed "a" "m" .authenticationExhausted none)]).routes
        (seconds 60) (sampleQuery "key" "x")).1 = [] ∧
      (((after quietRun).reports spentReports).routes (seconds 60)
        (sampleQuery "key" "x")).1.map (·.accountId) = [some "a"] := by
  decide

end Router

end ProviderCore.Routing
