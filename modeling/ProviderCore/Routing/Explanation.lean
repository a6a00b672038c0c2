import ProviderCore.Routing.Turns

/-!
# Why an account was left out

The text for a query without a route looks at each account anew.  Here the reason is read off the
routing itself, and the two agree but for an account that was tried with a model it does not know,
and one that has the model enabled and available only in different entries.
-/

namespace ProviderCore.Routing

open List

/-- The first thing that kept an account out of the answer. -/
inductive Exclusion
  | account
  | protocol
  | cooldown (entry : RouteCooldown)
  | continuation
  | unknownModel
  | disabledModel
  | unavailableModel
  | contract

def Exclusion.text (now : Instant) : Exclusion → String
  | .account => "account unavailable"
  | .protocol => "protocol incompatible"
  | .cooldown entry => entry.describe now
  | .continuation =>
    "route state changed or continuation binding unavailable; retry with complete input history"
  | .unknownModel => "model not configured under this name"
  | .disabledModel => "model disabled"
  | .unavailableModel => "model unavailable"
  | .contract => "model routing contract unavailable"

/-- The reason that lies in the models under the name of the query. -/
def Exclusion.ofModels (contributes : Bool) (models : List StoredProviderModel) : Exclusion :=
  if contributes then .continuation
  else if models.isEmpty then .unknownModel
  else if models.all (!·.enabled) then .disabledModel
  else if models.all (fun model => !(model.enabled && model.available)) then .unavailableModel
  else .contract

/-- Some model is enabled and available, unless none is the one or none the other. -/
def Together (models : List StoredProviderModel) : Prop :=
  models.all (fun model => !(model.enabled && model.available)) = true →
    models.all (!·.enabled) = true ∨ models.all (!·.available) = true

def RoutedAccount.named (account : RoutedAccount) (model : String) : List StoredProviderModel :=
  account.models.filter (·.effectiveModel == model)

namespace Router

variable (s : Router) (now : Instant) (q : ProviderRouteQuery) (account : RoutedAccount)

/-- The accounts that a query may use. -/
def accessible : List RoutedAccount :=
  s.accountSnapshot.filter (·.visibleTo q.userId q.accountIds)

def cooling : Table RouteCooldown.key :=
  s.cooldowns.filter (now < ·.untilInstant)

/-- The account has a route among those found. -/
def contributes : Bool :=
  (s.found now q).any (·.1 == account.accountId)

def excludedBy : Exclusion :=
  if !account.account.availableForRequests then .account
  else if !q.nativeFormats.contains account.route.nativeFormat then .protocol
  else
    match (s.cooling now).find? ⟨account.accountId, q.model⟩ with
    | some cooldown => .cooldown cooldown
    | none => .ofModels (s.contributes now q account) (account.named q.model)

/-- The explanations in the order of the accounts. -/
def reasons : List String :=
  (s.accessible q).map fun account =>
    account.account.providerName ++ ": " ++ account.unavailableReason now q s.cooldowns

/-- The account is not tried with a model it does not know. -/
@[mk_iff] structure Plain : Prop where
  known : account.fallbackRoutes q.model = [] ∨
    ∃ other ∈ s.accessible q, other.ready q (s.cooling now) = true ∧ other.exactRoutes q.model ≠ []
  together : Together (account.named q.model)

variable {s now q account}

/-- The routes that belong to an account among those of several. -/
theorem exists_mem_flatMap_iff (routesOf : RoutedAccount → List Route)
    {accounts : List RoutedAccount} (haccount : account ∈ accounts)
    (hids : ∀ other ∈ accounts, other.accountId = account.accountId → other = account)
    (hroutes : ∀ other, ∀ route ∈ routesOf other, route.1 = other.accountId) :
    (∃ route ∈ accounts.flatMap routesOf, route.1 = account.accountId) ↔ routesOf account ≠ [] := by
  constructor
  · rintro ⟨route, hroute, hid⟩
    obtain ⟨other, hother, hmem⟩ := mem_flatMap.mp hroute
    obtain rfl := hids other hother ((hroutes other route hmem).symm.trans hid)
    exact ne_nil_of_mem hmem
  · intro hne
    obtain ⟨route, hroute⟩ := exists_mem_of_ne_nil _ hne
    exact ⟨route, mem_flatMap.mpr ⟨account, haccount, hroute⟩, hroutes account route hroute⟩

theorem contributes_iff (haccount : account ∈ s.accessible q)
    (hready : account.ready q (s.cooling now) = true) :
    s.contributes now q account = true ↔ account.exactRoutes q.model ≠ [] ∨
      ¬(account.fallbackRoutes q.model = [] ∨ ∃ other ∈ s.accessible q,
        other.ready q (s.cooling now) = true ∧ other.exactRoutes q.model ≠ []) := by
  have htakers : s.accountSnapshot.filter (·.takes q (s.cooling now)) =
      (s.accessible q).filter (·.ready q (s.cooling now)) := by
    rw [accessible, filter_filter]
    exact filter_congr fun _ _ => Bool.and_comm _ _
  have hmem : account ∈ (s.accessible q).filter (·.ready q (s.cooling now)) :=
    mem_filter.mpr ⟨haccount, hready⟩
  have hids : ∀ other ∈ (s.accessible q).filter (·.ready q (s.cooling now)),
      other.accountId = account.accountId → other = account := by
    intro other hother hid
    have hrow {account : RoutedAccount} (h : account ∈ s.accessible q) :
        account ∈ s.accounts.rows := (mem_insertionSort _).mp (mem_filter.mp h).1
    exact inj_on_of_nodup_map s.accounts.nodup (hrow (mem_filter.mp hother).1)
      (hrow haccount) hid
  have hexact := exists_mem_flatMap_iff (·.exactRoutes q.model) hmem hids
    fun other route hroute => by obtain ⟨_, -, rfl⟩ := mem_map.mp hroute; rfl
  have hfallback := exists_mem_flatMap_iff (·.fallbackRoutes q.model) hmem hids
    fun other route hroute => by
      unfold RoutedAccount.fallbackRoutes at hroute
      dsimp only at hroute
      split at hroute
      · rw [mem_singleton.mp hroute]
      · simp at hroute
  have hothers : (∃ other ∈ s.accessible q, other.ready q (s.cooling now) = true ∧
      other.exactRoutes q.model ≠ []) ↔ ((s.accessible q).filter
        (·.ready q (s.cooling now))).flatMap (·.exactRoutes q.model) ≠ [] := by
    simp
  rw [contributes, found, ← cooling, htakers, candidates, any_eq_true, hothers]
  simp only [mem_insertionSort, beq_iff_eq]
  split
  · next hempty =>
      rw [List.isEmpty_iff] at hempty
      have hnone : account.exactRoutes q.model = [] := by
        by_contra hne
        obtain ⟨_, hroute, -⟩ := hexact.mpr hne
        simp [hempty] at hroute
      rw [hfallback]
      simp [hempty, hnone]
  · next hsome =>
      rw [List.isEmpty_iff] at hsome
      rw [hexact]
      simp [hsome]

theorem describeModels_eq_iff {models : List StoredProviderModel} {contributes : Bool}
    {known : Prop} (hcontributes : contributes = true ↔ models.any (·.serves) = true ∨ ¬known)
    (hknown : ¬known → models = []) :
    describeModels models = (Exclusion.ofModels contributes models).text now ↔
      known ∧ Together models := by
  by_cases hempty : models = []
  · subst hempty
    by_cases h : known <;> simp_all [describeModels, Exclusion.ofModels, Exclusion.text, Together]
  · have h : known := by_contra fun h => hempty (hknown h)
    have hon : models.any (·.serves) = true →
        models.all (fun model => !(model.enabled && model.available)) = false := by
      rw [any_eq_true, all_eq_false]
      rintro ⟨model, hmodel, hserves⟩
      refine ⟨model, hmodel, ?_⟩
      simp_all [StoredProviderModel.serves]
    have hoff : models.all (!·.enabled) = true ∨ models.all (!·.available) = true →
        models.all (fun model => !(model.enabled && model.available)) = true := by
      simp only [all_eq_true]
      rintro (hall | hall) model hmodel <;> simp [hall model hmodel]
    rw [Together, describeModels, Exclusion.ofModels, isEmpty_eq_false_iff.mpr hempty]
    simp only [h, not_true_eq_false, or_false] at hcontributes
    rw [Bool.eq_iff_iff.mpr hcontributes]
    revert hon hoff
    generalize models.any (·.serves) = serves
    generalize models.all (!·.enabled) = disabled
    generalize models.all (!·.available) = unavailable
    generalize models.all (fun model => !(model.enabled && model.available)) = apart
    cases serves <;> cases disabled <;> cases unavailable <;> cases apart <;>
      simp [h, Exclusion.text]

/-- The text gives the reason for an account just if the account is plain. -/
theorem unavailableReason_eq_iff (haccount : account ∈ s.accessible q) :
    account.unavailableReason now q s.cooldowns = (s.excludedBy now q account).text now ↔
      (account.ready q (s.cooling now) = true → s.Plain now q account) := by
  have hfind := s.cooldowns.find?_filter (now < ·.untilInstant) ⟨account.accountId, q.model⟩
  unfold RoutedAccount.unavailableReason excludedBy
  rw [← hfind, ← cooling]
  by_cases hready : account.ready q (s.cooling now) = true
  · have hcontributes := contributes_iff haccount hready
    have hexact : account.exactRoutes q.model ≠ [] ↔
        (account.named q.model).any (·.serves) = true := by
      simp [RoutedAccount.exactRoutes, RoutedAccount.named, and_comm]
    have hunknown : account.fallbackRoutes q.model ≠ [] → account.named q.model = [] := by
      simp +contextual [RoutedAccount.fallbackRoutes, RoutedAccount.named, filter_eq_nil_iff]
    rw [hexact] at hcontributes
    rw [forall_prop_of_true hready, plain_iff]
    simp only [RoutedAccount.ready, Bool.and_eq_true, Option.isNone_iff_eq_none] at hready
    simp only [hready, Bool.not_true, Bool.false_eq_true, if_false]
    exact describeModels_eq_iff hcontributes fun h => hunknown fun hnil => h (.inl hnil)
  · refine iff_of_true ?_ fun h => absurd h hready
    cases havailable : account.account.availableForRequests with
    | false => rfl
    | true =>
      cases hformat : q.nativeFormats.contains account.route.nativeFormat with
      | false => rfl
      | true =>
        cases hcooling : (s.cooling now).find? ⟨account.accountId, q.model⟩ with
        | some => rfl
        | none =>
          refine absurd ?_ hready
          rw [RoutedAccount.ready, havailable, hformat, hcooling]
          rfl

/-- Each account that a query may use is counted once, and the explanations are true just if the
accounts that were able to take the query are plain.  A query without an answer for which routes
were found continues a response. -/
theorem explanation_true_iff (s : Router) (now : Instant) (q : ProviderRouteQuery) :
    ((s.accessible q ≠ [] → s.unavailableRouteDetails now q =
        some (String.intercalate "; " (countReasons (s.reasons now q)))) ∧
      ((s.reasons now q).dedup.map (s.reasons now q).count).sum = (s.accessible q).length) ∧
    ((s.routes now q).1 = [] → s.found now q ≠ [] → q.previousResponseId ≠ none) ∧
    ((∀ account ∈ s.accessible q, account.unavailableReason now q s.cooldowns =
        (s.excludedBy now q account).text now) ↔
      ∀ account ∈ s.accessible q, account.ready q (s.cooling now) = true →
        s.Plain now q account) := by
  refine ⟨⟨fun hsome => ?_, ?_⟩, fun hnone hfound hprevious => ?_,
    forall₂_congr fun account haccount => unavailableReason_eq_iff haccount⟩
  · have hreasons : (s.reasons now q).isEmpty = false := by simpa [reasons] using hsome
    show some (if (s.reasons now q).isEmpty then _ else _) = _
    rw [hreasons]
    rfl
  · rw [sum_map_count_dedup_eq_length, reasons, length_map]
  · have hfree : s.free now q = some (s.found now q) := by rw [free, hprevious]
    obtain ⟨s', -, hroutes⟩ := routes_of_free hfree hfound
    have hperm := s'.orderRoutes_perm now q (s.found now q)
    rw [← hroutes, hnone] at hperm
    exact hfound (by simpa using hperm)

def compatibleRun : List (Instant × RouterOp) :=
  [(0, .replaceAccountModels "openai_compatible"
      ⟨"openai_compatible", "a", .openAiResponses, .active⟩ [] ⟨some "u", .priv⟩ 0),
    (0, .replaceAccountModels "grok" ⟨"grok", "b", .openAiResponses, .active⟩
      [{ sampleModel "m" with available := false },
        { sampleModel "x" with modelAlias := some "m", enabled := false }] ⟨some "u", .priv⟩ 0),
    (0, .bindResponseId "key" "r" "b")]

/-- The first account was tried and then removed by the binding, and is said not to know the model;
the other one is said to lack a contract. -/
theorem explanation_untrue :
    let s := after compatibleRun
    let q := { sampleQuery "key" "x" with previousResponseId := some "r" }
    (s.routes 7 q).1 = [] ∧
      (s.accessible q).map (fun account => (account.unavailableReason 7 q s.cooldowns,
        (s.excludedBy 7 q account).text 7)) =
        [("model not configured under this name", Exclusion.text 7 .continuation),
          ("model routing contract unavailable", "model unavailable")] := by
  decide

end Router

end ProviderCore.Routing
