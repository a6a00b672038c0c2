import ProviderCore.Lib.Fold
import ProviderCore.Grok.Replay

/-!
# What a prepared request is made of

A prepared input is the request's own input as it was, the own input with its references resolved,
or cached items in front of the own input.  `prepareRequest_rebuilt` says so, with where the cached
items were found; the lemmas before it say what a look at the map finds.
-/

namespace ProviderCore.Grok

open List Fold
open Json (Members)
open Routing (Instant)

/-! ## Looks at the map -/

/-- An entry that a look from `scope` at `now` may use. -/
structure ReplayEntry.Usable (entry : ReplayEntry) (cache : GrokReplayCache) (now : Instant)
    (scope : GrokReplayScope) : Prop where
  mem : entry ∈ cache.rows
  fresh : now - entry.storedAt < replayTtl
  routingScope : entry.key.scope.routingScope = scope.routingScope
  model : entry.key.scope.model = scope.model

variable {item : Json}

namespace GrokReplayCache

variable {cache : GrokReplayCache} {now : Instant} {scope : GrokReplayScope} {entry : ReplayEntry}

theorem mem_retain : entry ∈ (cache.retain now).rows ↔
    entry ∈ cache.rows ∧ now - entry.storedAt < replayTtl := by
  rw [retain, Table.mem_filter, decide_eq_true_iff]

theorem mem_of_only {entries : List ReplayEntry} (h : only entries = some entry) :
    entry ∈ entries := by
  match entries, h with
  | [_], rfl => exact mem_singleton_self _

theorem usable_of_scope (hmem : entry ∈ (cache.retain now).rows)
    (hscope : entry.key.scope = scope) : entry.Usable cache now scope := by
  obtain ⟨hrow, hfresh⟩ := mem_retain.mp hmem
  exact ⟨hrow, hfresh, by rw [hscope], by rw [hscope]⟩

theorem usable_of_entryOfResponse {previousResponseId : String}
    (h : entryOfResponse (cache.retain now).rows scope previousResponseId = some entry) :
    entry.Usable cache now scope := by
  have hmem : entry ∈ (cache.retain now).rows.filter fun entry =>
      entry.key.responseId == previousResponseId &&
        entry.key.scope.routingScope == scope.routingScope &&
          entry.key.scope.model == scope.model := by
    unfold entryOfResponse at h
    dsimp only at h
    split at h
    · exact mem_of_mem_filter (mem_of_only h)
    · exact mem_of_only h
  obtain ⟨hrow, hkey⟩ := mem_filter.mp hmem
  obtain ⟨hrow, hfresh⟩ := mem_retain.mp hrow
  simp only [Bool.and_eq_true, beq_iff_eq] at hkey
  exact ⟨hrow, hfresh, hkey.1.2, hkey.2⟩

variable {outputCallIds : List String}

theorem usable_of_entryOfSession
    (h : entryOfSession (cache.retain now).rows scope outputCallIds = some entry) :
    entry.Usable cache now scope := by
  unfold entryOfSession at h
  dsimp only at h
  split at h
  · cases h
  · split at h
    · cases h
    · split at h
      · cases h
      · have hscope := mem_of_mem_filter (mem_reverse.mp (argmax_mem h))
        obtain ⟨hrow, hscope⟩ := mem_filter.mp hscope
        exact usable_of_scope hrow (of_decide_eq_true hscope)

theorem usable_of_entry {previousResponseId : Option String}
    (h : cache.entry now scope previousResponseId outputCallIds = some entry) :
    entry.Usable cache now scope := by
  cases previousResponseId with
  | none => exact usable_of_entryOfSession h
  | some => exact usable_of_entryOfResponse h

theorem usable_of_mem_cachedItemsForSession (h : item ∈ cache.cachedItemsForSession now scope) :
    ∃ entry : ReplayEntry, entry.Usable cache now scope ∧ item ∈ entry.items := by
  obtain ⟨entry, hentry, hitem⟩ := mem_flatMap.mp h
  obtain ⟨hrow, hscope⟩ := mem_filter.mp ((mem_insertionSort _).mp hentry)
  exact ⟨entry, usable_of_scope hrow (of_decide_eq_true hscope), hitem⟩

end GrokReplayCache

/-- An item that a look from `scope` at `now` may bring into a request. -/
def Replayable (cache : GrokReplayCache) (now : Instant) (scope : GrokReplayScope) (item : Json) :
    Prop := ∃ entry : ReplayEntry, entry.Usable cache now scope ∧ item ∈ entry.items

variable {now : Instant} {cache : GrokReplayCache}

theorem replayable_of_referencedItems
    {scope : GrokReplayScope} {previousResponseId : Option String} {items : List Json}
    (h : referencedItems cache now scope previousResponseId = .ok items) :
    ∀ item ∈ items, Replayable cache now scope item := by
  unfold referencedItems at h
  split at h
  · split at h
    · rename_i entry hentry
      cases h
      exact fun item hitem => ⟨entry, GrokReplayCache.usable_of_entry hentry, hitem⟩
    · cases h
  · split at h
    · cases h
    · cases h
      exact fun item hitem => GrokReplayCache.usable_of_mem_cachedItemsForSession hitem

/-! ## References -/

namespace ReferenceIndex

def DrawnFrom (refs : ReferenceIndex) (items : List Json) : Prop :=
  ∀ id item, refs.index.get? id = some item → item ∈ items

variable {items : List Json}

theorem drawnFrom_insert {index : Members} {id : String}
    (h : ∀ id item, index.get? id = some item → item ∈ items) (hitem : item ∈ items) :
    ∀ id' item', (index.insert id item).get? id' = some item' → item' ∈ items := by
  intro id' item' hget
  by_cases hid : id' = id
  · subst hid
    rw [Members.get?_insert] at hget
    exact Option.some.inj hget ▸ hitem
  · rw [Members.get?_insert_of_ne hid] at hget
    exact h id' item' hget

variable {refs : ReferenceIndex}

theorem DrawnFrom.addLocal
    (h : refs.DrawnFrom items) (hitem : item ∈ items) : (refs.addLocal item).DrawnFrom items := by
  unfold ReferenceIndex.addLocal
  split
  · exact h
  · split
    · exact h
    · intro id' item' hget
      split at hget
      · exact h id' item' hget
      · exact drawnFrom_insert h hitem id' item' hget

theorem DrawnFrom.addCached
    (h : refs.DrawnFrom items) (hitem : item ∈ items) : (refs.addCached item).DrawnFrom items := by
  unfold ReferenceIndex.addCached
  split
  · exact h
  · split
    · exact h
    · exact drawnFrom_insert h hitem

/-- Adding items one after the other keeps the index drawn from them. -/
theorem DrawnFrom.foldl {add : ReferenceIndex → Json → ReferenceIndex}
    (hadd : ∀ refs item, DrawnFrom refs items → item ∈ items → DrawnFrom (add refs item) items)
    {l : List Json} (hl : l ⊆ items) (h : refs.DrawnFrom items) :
    (l.foldl add refs).DrawnFrom items := by
  induction l generalizing refs with
  | nil => exact h
  | cons item _ ih =>
    rw [cons_subset] at hl
    exact ih hl.2 (hadd refs item h hl.1)

theorem drawnFrom_build (own cached : List Json) :
    (build own cached).DrawnFrom (own ++ cached) := by
  have hempty : DrawnFrom {} (own ++ cached) := fun id item hget => by cases hget
  have hown := hempty.foldl (fun _ _ h => h.addLocal) (subset_append_left own cached)
  exact hown.foldl (fun _ _ h => h.addCached) (subset_append_right own cached)

/-- A resolved item is the item itself, or a reference's item from the index. -/
theorem resolve_eq_some {resolved : Json} (h : refs.resolve item = some resolved) :
    (isItemReference item = false ∧ resolved = item) ∨
      (isItemReference item = true ∧ ∃ id, refs.index.get? id = some resolved) := by
  unfold resolve at h
  split at h
  · rename_i href
    obtain ⟨id, -, hget⟩ := Option.bind_eq_some_iff.mp h
    exact .inr ⟨href, id, (Option.filter_eq_some_iff.mp hget).1⟩
  · rename_i href
    cases h
    exact .inl ⟨by simpa using href, rfl⟩

end ReferenceIndex

/-- A reference resolves to an own or a cached item. -/
theorem mem_of_resolve {own cached : List Json} {resolved : Json}
    (h : (ReferenceIndex.build own cached).resolve item = some resolved) :
    (isItemReference item = false ∧ resolved = item) ∨
      (isItemReference item = true ∧ (resolved ∈ own ∨ resolved ∈ cached)) := by
  rcases ReferenceIndex.resolve_eq_some h with hself | ⟨href, id, hget⟩
  · exact .inl hself
  · exact .inr ⟨href, mem_append.mp (ReferenceIndex.drawnFrom_build own cached id _ hget)⟩

/-! ## The prepared body -/

/-- The input and the cached items of an injection, if there is one. -/
def Continuation.injection (c : Continuation) (cache : GrokReplayCache) (now : Instant) :
    Option (List Json × List Json) :=
  if c.expandedReferences then none
  else (c.entry cache now).bind fun entry =>
    (injectionInput c.body entry.items).map (·, entry.items)

section Rebuilt

variable (first : GrokReplayCache) (now : Instant) (second : GrokReplayCache) (later : Instant)
  (scope : Option GrokReplayScope) (own : Members)

/-- The body that preparation makes out of the request's own, and what it injects. -/
inductive Rebuilt : Option (List Json × List Json) → Members → Prop
  /-- Nothing to reconstruct, or everything already there. -/
  | kept : inputHasItemReference own = false → Rebuilt none own
  /-- The references of the input were resolved. -/
  | expanded {s : GrokReplayScope} {input cached resolved : List Json} (hscope : scope = some s)
      (hinput : own.get? "input" = some (.arr input))
      (hcached : ∀ item ∈ cached, Replayable first now s item)
      (hresolved : List.Forall₂
        (fun item item' => (ReferenceIndex.build input cached).resolve item = some item')
        input resolved) :
      Rebuilt none (own.insert "input" (.arr resolved))
  /-- Items of a cached response were put before the input. -/
  | injected {s : GrokReplayScope} {entry : ReplayEntry} {input : List Json}
      (hscope : scope = some s) (hreference : inputHasItemReference own = false)
      (hentry : entry.Usable second later s)
      (hinput : injectionInput own entry.items = some input) :
      Rebuilt (some (input, entry.items))
        (own.insert "input" (.arr (missingItems input entry.items ++ input)))

end Rebuilt

/-- A body before the injection, with what it was made from. -/
structure Continuation.Expanded (c : Continuation) (first : GrokReplayCache) (now : Instant)
    (scope : Option GrokReplayScope) (own : Members) : Prop where
  scope_eq : c.scope = scope
  unexpanded : c.expandedReferences = false →
    c.body = own ∧ inputHasItemReference own = false
  expanded : c.expandedReferences = true → ∀ second later,
    Rebuilt first now second later scope own none c.body

variable {first : GrokReplayCache}

theorem expandItemReferences_rebuilt
    {s : GrokReplayScope} {previousResponseId : Option String} {own body : Members}
    (href : inputHasItemReference own = true)
    (h : expandItemReferences first now s previousResponseId own = .ok body)
    (second : GrokReplayCache) (later : Instant) :
    Rebuilt first now second later (some s) own none body := by
  unfold expandItemReferences at h
  split at h
  · rename_i input hinput
    obtain ⟨cached, hcached, h⟩ := bind_eq_ok.mp h
    split at h
    · rename_i resolved hresolved
      cases h
      exact .expanded rfl hinput (replayable_of_referencedItems hcached)
        (forall₂_of_mapM hresolved)
    · cases h
  · rename_i hinput
    -- only a list of items holds a reference
    have hnone : inputItems own = [] := by
      unfold inputItems
      rcases hget : own.get? "input" with _ | tree
      · rfl
      · cases tree with
        | arr input => exact absurd hget (hinput input)
        | _ => rfl
    simp [inputHasItemReference, hnone] at href

variable {c : Continuation}

theorem expandRequest_expanded
    {request : ProviderRequest} (h : expandRequest first now request = .ok c) :
    ∃ own, requestBody request = .ok own ∧
      c.previousResponseId = previousResponseId request own ∧
      c.Expanded first now (replayScope request.metadata request.model) own := by
  obtain ⟨own, hown, h⟩ := bind_eq_ok.mp h
  refine ⟨own, hown, ?_⟩
  split at h
  · rename_i href
    cases hscope : replayScope request.metadata request.model with
    | none =>
      rw [hscope] at h
      cases h
    | some =>
      rw [hscope] at h
      obtain ⟨_, hbody, h⟩ := bind_eq_ok.mp h
      cases h
      refine ⟨rfl, rfl, fun hne => (by cases hne), fun _ second later => ?_⟩
      exact expandItemReferences_rebuilt href hbody second later
  · rename_i href
    cases h
    exact ⟨rfl, rfl, fun _ => ⟨rfl, by simpa using href⟩, fun hne => by cases hne⟩

theorem Continuation.usable_of_entry {entry : ReplayEntry} (h : c.entry cache now = some entry) :
    ∃ s, c.scope = some s ∧ entry.Usable cache now s := by
  obtain ⟨s, hscope, h⟩ := Option.bind_eq_some_iff.mp h
  refine ⟨s, hscope, ?_⟩
  dsimp only at h
  split at h
  · exact GrokReplayCache.usable_of_entry h
  · cases h

theorem Continuation.Expanded.inject {scope : Option GrokReplayScope} {own : Members}
    (h : c.Expanded first now scope own) (second : GrokReplayCache) (later : Instant) :
    Rebuilt first now second later scope own (c.injection second later)
      (c.inject (c.entry second later)).1 := by
  unfold Continuation.inject Continuation.injection
  cases hexpanded : c.expandedReferences with
  | true =>
    have hbody := h.expanded hexpanded second later
    rcases c.entry second later with _ | entry
    · exact hbody
    · exact hbody
  | false =>
    obtain ⟨hbody, href⟩ := h.unexpanded hexpanded
    rw [hbody]
    rcases hentry : c.entry second later with _ | entry
    · exact .kept href
    · obtain ⟨_, hscope, husable⟩ := usable_of_entry hentry
      simp only [Option.bind_some, Bool.false_eq_true, if_false]
      unfold injectReplayItems
      rcases hinput : injectionInput own entry.items with _ | input
      · exact .kept href
      · have hinjected : Rebuilt first now second later scope own _ _ :=
          .injected (h.scope_eq ▸ hscope) href husable hinput
        by_cases hempty : missingItems input entry.items = []
        · simpa [hempty] using hinjected
        · simpa [hempty] using hinjected

theorem Continuation.body_of_replay
    {result : Members × Bool} (h : c.replay cache now = .ok result) :
    result = c.inject (c.entry cache now) := by
  unfold Continuation.replay at h
  dsimp only at h
  split at h
  · cases h
  · split at h
    · cases h
    · cases h
      rfl

/-- What the preparation of a request injects. -/
def GrokReplayCache.injection (first : GrokReplayCache) (now : Instant) (second : GrokReplayCache)
    (later : Instant) (request : ProviderRequest) : Option (List Json × List Json) :=
  (expandRequest first now request).toOption.bind fun c => c.injection second later

/-- A prepared request is rebuilt from the client's own; nothing but the response it continues is
taken out of it. -/
theorem prepareRequest_rebuilt {second : GrokReplayCache} {later : Instant}
    {request prepared : ProviderRequest} {scope : Option GrokReplayScope}
    (h : first.prepareRequest now second later request = .ok (prepared, scope)) :
    scope = replayScope request.metadata request.model ∧ ∃ own body, requestBody request = .ok own ∧
      Rebuilt first now second later scope own (first.injection now second later request) body ∧
      (prepared.payload = some (.obj body) ∨
        prepared.payload = some (.obj (body.remove "previous_response_id"))) := by
  obtain ⟨c, hc, h⟩ := bind_eq_ok.mp h
  obtain ⟨⟨body, _⟩, hreplay, h⟩ := bind_eq_ok.mp h
  obtain ⟨own, hown, -, hexpanded⟩ := expandRequest_expanded hc
  have hbody := Continuation.body_of_replay hreplay
  have hrebuilt := hexpanded.inject second later
  rw [← hbody] at hrebuilt
  have hinjection : first.injection now second later request = c.injection second later := by
    rw [GrokReplayCache.injection, hc]
    rfl
  dsimp only at h hrebuilt
  rw [← hexpanded.scope_eq] at hrebuilt ⊢
  rw [hinjection]
  split at h
  · cases h
    exact ⟨rfl, own, body, hown, hrebuilt, .inr rfl⟩
  · cases h
    exact ⟨rfl, own, body, hown, hrebuilt, .inl rfl⟩

end ProviderCore.Grok
