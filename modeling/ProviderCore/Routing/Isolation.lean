import ProviderCore.Routing.Diagnostics
import ProviderCore.Routing.Run

/-!
# Accounts a user may not use

Two routers that look alike through the accounts a user may use and through the entries of one
routing scope answer the user's queries in that scope alike, and still look alike afterwards.

Affinities look alike as long as the unexpired ones do: expired ones are dropped on a timer that
all scopes share, so the queries of another scope decide when they go.  Bindings expire from the
front of a queue that all scopes share, which is exact if the queue is in the order of the clock.
-/

namespace ProviderCore.Routing

open List

/-! ## Looking alike -/

/-- An account as those who may use it see it: who else may use it does not show. -/
def RoutedAccount.shown (account : RoutedAccount) : RoutedAccount :=
  { account with access := ⟨none, .priv⟩ }

/-- The accounts that a user may use with a key. -/
def Router.visible (s : Router) (userId : String) (accountIds : Option (List AccountId)) :
    List RoutedAccount :=
  s.accountSnapshot.filter (·.visibleTo userId accountIds)

/-- The routers look alike to a user with a key in a routing scope.  Of the affinities only those
that count have to be the same. -/
structure Agree (counts : SessionAffinity → Bool) (userId : String)
    (accountIds : Option (List AccountId)) (routingScope : String) (s s' : Router) : Prop where
  accounts : (s.visible userId accountIds).map RoutedAccount.shown =
    (s'.visible userId accountIds).map RoutedAccount.shown
  cooldowns : ∀ account ∈ s.visible userId accountIds, ∀ model,
    s.cooldowns.find? ⟨account.accountId, model⟩ = s'.cooldowns.find? ⟨account.accountId, model⟩
  affinities : ∀ key : SessionAffinityKey, key.routingScope = routingScope →
    (s.affinities.entries.find? key).filter counts =
      (s'.affinities.entries.find? key).filter counts
  bindings : ∀ key : ResponseBindingKey, key.routingScope = routingScope →
    s.responseBindings.find? key = s'.responseBindings.find? key
  selections : ∀ key : SelectionKey, key.routingScope = routingScope →
    s.selections.find? key = s'.selections.find? key

/-- The same answer, and routers that look alike. -/
def Alike {α : Type} (counts : SessionAffinity → Bool) (q : ProviderRouteQuery)
    (r r' : α × Router) : Prop :=
  r.1 = r'.1 ∧ Agree counts q.userId q.accountIds q.routingScope r.2 r'.2

/-! ## Through the accounts -/

section Accounts

variable {s s' : Router} {counts : SessionAffinity → Bool} {userId : String}
  {accountIds : Option (List AccountId)} {routingScope : String}

theorem filter_snapshot (s : Router) (userId : String) (accountIds : Option (List AccountId))
    (p : RoutedAccount → Bool) :
    s.accountSnapshot.filter (fun account => account.visibleTo userId accountIds && p account) =
      (s.visible userId accountIds).filter p := by
  rw [Router.visible, filter_filter]
  exact filter_congr fun account _ => Bool.and_comm _ _

/-- A condition that does not look at the access rule picks the same accounts. -/
theorem map_shown_filter {p : RoutedAccount → Bool} (hp : ∀ account, p account.shown = p account)
    (accounts : List RoutedAccount) :
    (accounts.filter p).map RoutedAccount.shown =
      (accounts.map RoutedAccount.shown).filter p := by
  rw [filter_map]
  exact congrArg _ (filter_congr fun account _ => (hp account).symm)

theorem foldlM_listAccount_shown (accounts : List RoutedAccount) (listing : ModelListing) :
    (accounts.map RoutedAccount.shown).foldlM listAccount listing =
      accounts.foldlM listAccount listing :=
  foldlM_map

theorem candidates_shown (q : ProviderRouteQuery) (accounts : List RoutedAccount) :
    candidates q (accounts.map RoutedAccount.shown) = candidates q accounts := by
  unfold candidates
  rw [flatMap_map, flatMap_map]
  rfl

namespace Agree

theorem models (h : Agree counts userId accountIds routingScope s s') :
    s.models userId accountIds = s'.models userId accountIds := by
  unfold Router.models
  dsimp only
  rw [filter_snapshot, filter_snapshot, ← foldlM_listAccount_shown,
    ← foldlM_listAccount_shown ((s'.visible userId accountIds).filter _),
    map_shown_filter (fun _ => rfl), map_shown_filter (fun _ => rfl), h.accounts]

variable {account : RoutedAccount}

section

variable (h : Agree counts userId accountIds routingScope s s')

include h

/-- The cooldowns of an account that shows in both routers. -/
theorem cooldowns' (hmem : account ∈ s'.visible userId accountIds) (model : String) :
    s.cooldowns.find? ⟨account.accountId, model⟩ =
      s'.cooldowns.find? ⟨account.accountId, model⟩ := by
  -- the account of the other router that shows as this one
  have hshown := mem_map_of_mem (f := RoutedAccount.shown) hmem
  rw [← h.accounts] at hshown
  obtain ⟨account', hmem', hshown⟩ := mem_map.mp hshown
  have hid : account'.shown.accountId = account.shown.accountId := congrArg _ hshown
  change account'.accountId = account.accountId at hid
  rw [← hid]
  exact h.cooldowns account' hmem' model

theorem candidates {q : ProviderRouteQuery}
    (huser : q.userId = userId) (hids : q.accountIds = accountIds) :
    candidates q (s.accountSnapshot.filter (·.takes q s.cooldowns)) =
      candidates q (s'.accountSnapshot.filter (·.takes q s'.cooldowns)) := by
  subst huser hids
  show candidates q (s.accountSnapshot.filter fun account => account.visibleTo _ _ && _) =
    candidates q (s'.accountSnapshot.filter fun account => account.visibleTo _ _ && _)
  have hready : (s'.visible q.userId q.accountIds).filter (·.ready q s.cooldowns) =
      (s'.visible q.userId q.accountIds).filter (·.ready q s'.cooldowns) :=
    filter_congr fun account hmem => by
      rw [RoutedAccount.ready, RoutedAccount.ready, h.cooldowns' hmem]
  rw [filter_snapshot, filter_snapshot, ← hready, ← candidates_shown,
    ← candidates_shown q ((s'.visible _ _).filter _), map_shown_filter (fun _ => rfl),
    map_shown_filter (fun _ => rfl), h.accounts]

theorem describeUnavailableRoutes
    {q : ProviderRouteQuery} (huser : q.userId = userId) (hids : q.accountIds = accountIds)
    (now : Instant) : s.describeUnavailableRoutes now q = s'.describeUnavailableRoutes now q := by
  subst huser hids
  -- the reason of an account, read from the cooldowns of either router
  let reason (cooldowns : Table RouteCooldown.key) (account : RoutedAccount) : String :=
    account.account.providerName ++ ": " ++ account.unavailableReason now q cooldowns
  have hshown (cooldowns : Table RouteCooldown.key) (accounts : List RoutedAccount) :
      (accounts.map RoutedAccount.shown).map (reason cooldowns) =
        accounts.map (reason cooldowns) := map_map
  have hreasons : (s.visible q.userId q.accountIds).map (reason s.cooldowns) =
      (s'.visible q.userId q.accountIds).map (reason s'.cooldowns) := by
    rw [← hshown, h.accounts, hshown]
    refine map_congr_left fun account hmem => ?_
    simp [reason, RoutedAccount.unavailableReason, h.cooldowns' hmem]
  exact congrArg (fun reasons : List String => if reasons.isEmpty then _ else
    String.intercalate "; " (countReasons reasons)) hreasons

end

end Agree

end Accounts

/-! ## Through the affinities -/

namespace SessionAffinities

variable {now : Instant} {key : SessionAffinityKey} {routes : List Route}

/-- The affinity of a session that has not expired. -/
def live? (now : Instant) (affinities : SessionAffinities) (key : SessionAffinityKey) :
    Option SessionAffinity :=
  (affinities.entries.find? key).filter (·.live now)

section

variable (affinities : SessionAffinities)

include affinities

theorem live?_cleanUp (key : SessionAffinityKey) :
    (affinities.cleanUp now).live? now key = affinities.live? now key := by
  unfold cleanUp
  split
  · simp [live?, Table.find?_filter]
  · rfl

theorem stick_fst :
    (affinities.stick now key routes).1 =
      (affinities.live? now key).bind (·.position now routes) := by
  unfold stick live?
  cases affinities.entries.find? key with
  | none => rfl
  | some affinity =>
    by_cases hlive : affinity.live now = true
    · rw [Option.filter_some_pos hlive, Option.bind_some]
      dsimp only
      cases affinity.position now routes <;> rfl
    · rw [Option.filter_some_neg (by simpa using hlive)]
      simp [SessionAffinity.position, hlive]

/-- A query renews the affinity it follows and forgets the one it cannot follow. -/
theorem live?_stick (key' : SessionAffinityKey) :
    (affinities.stick now key routes).2.live? now key' =
      if key = key' then
        ((affinities.live? now key).filter (·.position now routes |>.isSome)).map
          ({ · with lastUsed := now })
      else affinities.live? now key' := by
  cases hfind : affinities.entries.find? key with
  | none =>
    have hstick : (affinities.stick now key routes).2 = affinities := by
      rw [stick, hfind]
    rw [hstick]
    split
    · rename_i hkey
      simp [live?, ← hkey, hfind]
    · rfl
  | some affinity =>
    obtain rfl : affinity.key = key := (Table.find?_eq_some.mp hfind).2
    cases hposition : affinity.position now routes with
    | none =>
      have hstick : (affinities.stick now affinity.key routes).2.entries =
          affinities.entries.filter (·.key ≠ affinity.key) := by
        simp [stick, hfind, hposition]
      rw [live?, hstick, Table.find?_filter_ne (k := affinity.key) (fun _ => by simp)]
      by_cases hkey : affinity.key = key'
      · rw [if_pos hkey, if_pos hkey, live?, hfind, Option.filter_filter,
          Option.filter_some_neg (by simp [hposition])]
        rfl
      · rw [if_neg hkey, if_neg hkey, live?]
    | some =>
      have hstick : (affinities.stick now affinity.key routes).2.entries =
          affinities.entries.upsert { affinity with lastUsed := now } := by
        simp [stick, hfind, hposition]
      rw [live?, hstick, Table.find?_upsert]
      have hlive : affinity.live now = true := by
        by_contra hlive
        simp [SessionAffinity.position, hlive] at hposition
      have hnow : SessionAffinity.live now { affinity with lastUsed := now } = true := by
        simp [SessionAffinity.live, sessionAffinityTtl, seconds]
      by_cases hkey : affinity.key = key'
      · rw [if_pos hkey, if_pos hkey, Option.filter_some_pos hnow, live?, hfind,
          Option.filter_some_pos hlive, Option.filter_some_pos (by simp [hposition])]
        rfl
      · rw [if_neg hkey, if_neg hkey, live?]

theorem follow_fst :
    (affinities.follow now key routes).1 =
      (affinities.live? now key).bind (·.position now routes) := by
  rw [follow, stick_fst, live?_cleanUp]

end

end SessionAffinities

/-! ## Through the cursors -/

section Selections

variable {routingScope : String} {selections selections' : Table Selection.key}

/-- The cursors of a routing scope are the same. -/
def SameCursors (routingScope : String) (selections selections' : Table Selection.key) : Prop :=
  ∀ key : SelectionKey, key.routingScope = routingScope →
    selections.find? key = selections'.find? key

theorem SameCursors.rotateTier (h : SameCursors routingScope selections selections')
    (model : String) (tier : List Route) :
    (rotateTier routingScope model selections tier).1 =
        (rotateTier routingScope model selections' tier).1 ∧
      SameCursors routingScope (rotateTier routingScope model selections tier).2
        (rotateTier routingScope model selections' tier).2 := by
  rcases tier with _ | ⟨first, _ | ⟨second, rest⟩⟩
  · exact ⟨rfl, h⟩
  · exact ⟨rfl, h⟩
  · have hcursor := h ⟨routingScope, model, first.2.priority⟩ rfl
    refine ⟨by simp [Routing.rotateTier, hcursor], fun key hkey => ?_⟩
    simp [Routing.rotateTier, Table.find?_upsert, hcursor, h key hkey]

theorem SameCursors.rotateTiers (h : SameCursors routingScope selections selections')
    (model : String) (tiers : List (List Route)) :
    (rotateTiers routingScope model selections tiers).1 =
        (rotateTiers routingScope model selections' tiers).1 ∧
      SameCursors routingScope (rotateTiers routingScope model selections tiers).2
        (rotateTiers routingScope model selections' tiers).2 := by
  induction tiers generalizing selections selections' with
  | nil => exact ⟨rfl, h⟩
  | cons tier _ ih =>
    obtain ⟨htier, hcursors⟩ := h.rotateTier model tier
    obtain ⟨hrest, hcursors⟩ := ih hcursors
    exact ⟨congrArg₂ _ htier hrest, hcursors⟩

end Selections

/-! ## Through a query -/

section Query

variable {s s' : Router} {now : Instant} {q : ProviderRouteQuery}
  {counts : SessionAffinity → Bool}

namespace Agree

section

variable (h : Agree counts q.userId q.accountIds q.routingScope s s')

include h

theorem pruneCooldowns (now : Instant) : Agree counts q.userId q.accountIds q.routingScope
      { s with cooldowns := s.cooldowns.filter (now < ·.untilInstant) }
      { s' with cooldowns := s'.cooldowns.filter (now < ·.untilInstant) } where
  accounts := h.accounts
  cooldowns account hmem model := by
    show (s.cooldowns.filter _).find? _ = (s'.cooldowns.filter _).find? _
    rw [Table.find?_filter, Table.find?_filter, h.cooldowns account hmem model]
  affinities := h.affinities
  bindings := h.bindings
  selections := h.selections

variable (hs : s.responseBindings.Chronological) (hs' : s'.responseBindings.Chronological)

include hs hs' in
theorem expireBindings (ttl now : ℕ) : Agree counts q.userId q.accountIds q.routingScope
      { s with responseBindings := s.responseBindings.removeExpired ttl now }
      { s' with responseBindings := s'.responseBindings.removeExpired ttl now } where
  accounts := h.accounts
  cooldowns := h.cooldowns
  affinities := h.affinities
  bindings key hkey := by
    show (s.responseBindings.removeExpired ttl now).find? key =
      (s'.responseBindings.removeExpired ttl now).find? key
    rw [hs.find?_removeExpired, hs'.find?_removeExpired, h.bindings key hkey]
  selections := h.selections

theorem roundRobin
    (routes : List Route) : Alike counts q (s.roundRobin q routes) (s'.roundRobin q routes) := by
  have hcursors : SameCursors q.routingScope s.selections s'.selections := h.selections
  obtain ⟨hanswer, hselections⟩ := hcursors.rotateTiers q.model
    (routes.splitBy fun left right => left.2.priority == right.2.priority)
  exact ⟨congrArg (List.map Prod.snd) hanswer,
    ⟨h.accounts, h.cooldowns, h.affinities, h.bindings, hselections⟩⟩

end

section

variable (h : Agree (SessionAffinity.live now) q.userId q.accountIds q.routingScope s s')

include h

/-- A session of the scope is followed to the same account. -/
theorem follow (session : SessionAffinityKey) (hscope : session.routingScope = q.routingScope)
    (routes : List Route) :
    Alike (SessionAffinity.live now) q
      ((s.affinities.follow now session routes).1,
        { s with affinities := (s.affinities.follow now session routes).2 })
      ((s'.affinities.follow now session routes).1,
        { s' with affinities := (s'.affinities.follow now session routes).2 }) := by
  have hlive : ∀ key : SessionAffinityKey, key.routingScope = q.routingScope →
      s.affinities.live? now key = s'.affinities.live? now key := h.affinities
  refine ⟨?_, h.accounts, h.cooldowns, fun key hkey => ?_, h.bindings, h.selections⟩
  · show (s.affinities.follow now _ routes).1 = (s'.affinities.follow now _ routes).1
    rw [SessionAffinities.follow_fst, SessionAffinities.follow_fst, hlive _ hscope]
  · show (s.affinities.follow now _ routes).2.live? now key =
      (s'.affinities.follow now _ routes).2.live? now key
    simp only [SessionAffinities.follow, SessionAffinities.live?_stick,
      SessionAffinities.live?_cleanUp, hlive, hkey, hscope]

theorem orderRoutes
    (routes : List Route) : Alike (SessionAffinity.live now) q (s.orderRoutes now q routes)
      (s'.orderRoutes now q routes) := by
  unfold Router.orderRoutes
  cases Router.trimmedSession q.sessionId with
  | none => exact h.roundRobin routes
  | some sessionId =>
    obtain ⟨hposition, hagree⟩ := h.follow ⟨q.routingScope, q.model, sessionId⟩ rfl routes
    dsimp only at hposition ⊢
    rw [← hposition]
    cases (s.affinities.follow now ⟨q.routingScope, q.model, sessionId⟩ routes).1 with
    | none => exact hagree.roundRobin routes
    | some => exact ⟨rfl, hagree⟩

variable (hs : s.responseBindings.Chronological) (hs' : s'.responseBindings.Chronological)

include hs hs'

theorem continueResponse (previous : String) (routes : List Route) :
    Alike (SessionAffinity.live now) q (s.continueResponse now q previous routes)
      (s'.continueResponse now q previous routes) := by
  have hagree := h.expireBindings hs hs' responseBindingTtl now
  have hbound := hagree.bindings ⟨q.routingScope, previous⟩ rfl
  unfold Router.continueResponse
  dsimp only at hbound ⊢
  rw [← hbound]
  cases (s.responseBindings.removeExpired responseBindingTtl now).find?
      ⟨q.routingScope, previous⟩ with
  | some => exact ⟨rfl, hagree⟩
  | none =>
    dsimp only
    split
    · exact ⟨rfl, hagree⟩
    · exact hagree.orderRoutes _

theorem routes : Alike (SessionAffinity.live now) q (s.routes now q) (s'.routes now q) := by
  have hagree := h.pruneCooldowns now
  have hfound := hagree.candidates rfl rfl
  unfold Router.routes
  dsimp only at hfound ⊢
  rw [← hfound]
  split
  · exact ⟨rfl, hagree⟩
  · cases q.previousResponseId with
    | none => exact hagree.orderRoutes _
    | some previous => exact hagree.continueResponse hs hs' previous _

end

end Agree

end Query

/-- Routers that look alike to a user answer alike, and look alike after the answer. -/
theorem routing_reveals_nothing {s s' : Router} {now : Instant} {q : ProviderRouteQuery}
    (hs : s.responseBindings.Chronological) (hs' : s'.responseBindings.Chronological)
    (h : Agree (SessionAffinity.live now) q.userId q.accountIds q.routingScope s s') :
    s.models q.userId q.accountIds = s'.models q.userId q.accountIds ∧
      s.unavailableRouteDetails now q = s'.unavailableRouteDetails now q ∧
      (s.routes now q).1 = (s'.routes now q).1 ∧
      Agree (SessionAffinity.live now) q.userId q.accountIds q.routingScope
        (s.routes now q).2 (s'.routes now q).2 := by
  obtain ⟨hanswer, hagree⟩ := h.routes hs hs'
  exact ⟨h.models, congrArg some (h.describeUnavailableRoutes rfl rfl now), hanswer, hagree⟩

/-! ## Two runs that look alike -/

/-- One account of the user, with a session of theirs on it. -/
def quietRun : List (Instant × RouterOp) :=
  [(0, .replaceAccountModels "codex" ⟨"codex", "a", .openAiResponses, .active⟩
      [sampleModel "m"] ⟨some "u", .priv⟩ 0),
    (0, .commitSessionAffinity "key" "m" (some "x") "a")]

def sampleQuery (routingScope sessionId : String) : ProviderRouteQuery where
  userId := "u"
  routingScope := routingScope
  model := "m"
  nativeFormats := [.openAiResponses]
  sessionId := some sessionId
  previousResponseId := none
  accountIds := none

/-- Another user's account, and their cooldown, affinity and binding. -/
def crowdedRun : List (Instant × RouterOp) :=
  quietRun ++
    [(1, .replaceAccountModels "grok" ⟨"grok", "b", .openAiResponses, .active⟩
        [sampleModel "m"] ⟨some "v", .priv⟩ 0),
      (2, .recordRouteFailure "b" "m" .rateLimited none),
      (3, .commitSessionAffinity "other" "m" (some "x") "b"),
      (4, .bindResponseId "other" "r" "b")]

/-- Another scope's query shortly before the session expires. -/
def busyRun : List (Instant × RouterOp) :=
  quietRun ++ [(seconds 3590, .routes (sampleQuery "other" "z"))]

theorem agree_crowdedRun (counts : SessionAffinity → Bool) :
    Agree counts "u" none "key" (Router.after quietRun) (Router.after crowdedRun) where
  accounts := rfl
  cooldowns account haccount model := by
    have hvisible : ((Router.after quietRun).visible "u" none).map RoutedAccount.accountId =
        ["a"] := by decide
    have hid : account.accountId = "a" := by
      have hmem := mem_map_of_mem (f := RoutedAccount.accountId) haccount
      exact mem_singleton.mp hmem
    show Table.empty.find? _ = (Table.empty.upsert
      (⟨⟨"b", "m"⟩, 2 + rateLimitCooldown, .rateLimited⟩ : RouteCooldown)).find? _
    rw [hid, Table.find?_upsert, if_neg (by simp)]
  affinities key hkey := by
    show _ = (((Router.after quietRun).affinities.entries.upsert
      ⟨⟨"other", "m", "x"⟩, "b", 3⟩).find? key).filter counts
    rw [Table.find?_upsert, if_neg]
    rintro rfl
    simp at hkey
  bindings key hkey := by
    show Table.empty.find? key = (Table.empty.upsert
      (⟨⟨"other", "r"⟩, "b", 4⟩ : Stamped ResponseBindingKey AccountId)).find? key
    rw [Table.find?_upsert, if_neg]
    rintro rfl
    simp at hkey
  selections _ _ := rfl

theorem routing_reveals_nothing_crowdedRun :
    ((Router.after quietRun).routes 7 (sampleQuery "key" "x")).1 =
        ((Router.after crowdedRun).routes 7 (sampleQuery "key" "x")).1 ∧
      ((Router.after quietRun).routes 7 (sampleQuery "key" "x")).1 ≠ [] := by
  have hquiet : (Router.after quietRun).responseBindings.Chronological := ⟨rfl, by decide⟩
  have hcrowded : (Router.after crowdedRun).responseBindings.Chronological := ⟨rfl, by decide⟩
  exact ⟨(routing_reveals_nothing hquiet hcrowded (agree_crowdedRun _)).2.2.1, by decide⟩

/-- A response of the user's, bound after what others do. -/
def queuedRun (others : List (Instant × RouterOp)) : List (Instant × RouterOp) :=
  quietRun ++ others ++ [(0, .bindResponseId "key" "r" "a")]

/-- Another scope binds with a later reading of the clock, but first. -/
def racedRun : List (Instant × RouterOp) := queuedRun [(5, .bindResponseId "other" "r" "b")]

theorem agree_racedRun (counts : SessionAffinity → Bool) :
    Agree counts "u" none "key" (Router.after (queuedRun [])) (Router.after racedRun) where
  accounts := rfl
  cooldowns _ _ _ := rfl
  affinities _ _ := rfl
  bindings key hkey := by
    let bound : Stamped ResponseBindingKey AccountId := ⟨⟨"key", "r"⟩, "a", 0⟩
    show (Table.empty.upsert bound).find? key =
      ((Table.empty.upsert ⟨⟨"other", "r"⟩, "b", 5⟩).upsert bound).find? key
    have hother : (⟨"other", "r"⟩ : ResponseBindingKey) ≠ key := by
      rintro rfl
      simp at hkey
    rw [Table.find?_upsert, Table.find?_upsert, Table.find?_upsert, if_neg hother]
  selections _ _ := rfl

/-- The cleanup that another scope's query put off leaves an expired affinity in place; and a
binding that raced with another scope's is found after it has expired. -/
theorem busyRun_keeps_expired_affinity :
    (Agree (fun _ => true) "u" none "key" (Router.after quietRun) (Router.after busyRun) ∧
      ¬Agree (fun _ => true) "u" none "key"
        ((Router.after quietRun).routes (seconds 3600) (sampleQuery "key" "y")).2
        ((Router.after busyRun).routes (seconds 3600) (sampleQuery "key" "y")).2) ∧
    Agree (fun _ => true) "u" none "key" (Router.after (queuedRun [])) (Router.after racedRun) ∧
      let q := { sampleQuery "key" "y" with previousResponseId := some "r" }
      ((Router.after (queuedRun [])).routes (seconds 3600) q).1.length = 0 ∧
        ((Router.after racedRun).routes (seconds 3600) q).1.length = 1 := by
  refine ⟨⟨⟨rfl, fun _ _ _ => rfl, fun _ _ => rfl, fun _ _ => rfl, fun _ _ => rfl⟩, fun h => ?_⟩,
    agree_racedRun _, by decide, by decide⟩
  exact absurd (h.affinities ⟨"key", "m", "x"⟩ rfl) (by decide)

end ProviderCore.Routing
