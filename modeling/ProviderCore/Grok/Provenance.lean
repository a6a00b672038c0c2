import ProviderCore.Grok.Rebuilt

/-!
# Where replayed items come from

Requests and responses share one map.  `ReplaySystem` is that map with the streams under
observation and, beside them, the history of the responses that ended: what each one put out, or
that it was dropped, which is to say that it failed, was incomplete, was cancelled or was cut off.
The history is kept for the statement only.

An entry of the map is always the last record of its key, and the map is never over its limit
(`Faithful`).  So whatever preparation brings into a request was put out by a response that
completed under the request's routing scope and model, and not dropped since.
-/

namespace ProviderCore.Grok

open List GrokReplayCache
open Json (Members)
open Routing (Instant)

inductive Outcome
  | completed (output : List Json)
  | dropped

def Outcome.output : Outcome → List Json
  | .completed output => output
  | .dropped => []

structure ResponseRecord where
  endedAt : Instant
  key : GrokReplayKey
  outcome : Outcome

/-! ## The record that a stream writes -/

namespace ObservedStream

variable (parse : Bytes → Option Json) (stream : ObservedStream) (now : Instant)

/-- The end of the response with this id, if it has one. -/
def ending (responseId : Option String) (outcome : Outcome) : Option ResponseRecord :=
  responseId.map fun responseId => ⟨now, ⟨stream.scope, responseId⟩, outcome⟩

def cutOffRecord : Option ResponseRecord :=
  if !stream.terminalSeen && !stream.responseId.isEmpty then
    stream.ending now (Text.trimmed? stream.responseId) .dropped
  else none

/-- The output that a completed response lists. -/
def outputOf (payload : Json) : List Json :=
  (((payload.member? "response").bind (·.member? "output")).bind Json.toArr).getD []

def frameRecord (payload : Json) : Option ResponseRecord :=
  let filled := stream.fillResponseId payload
  match frameKind payload with
  | some .created | none => none
  | some .completed =>
    stream.ending now (GrokReplayCache.responseId filled) (.completed (outputOf filled))
  | some _ => stream.ending now (GrokReplayCache.responseId filled) .dropped

def chunkRecord : Except ProviderError Bytes → Option ResponseRecord
  | .ok bytes => (framePayload parse bytes).bind (stream.frameRecord now)
  | .error _ => stream.cutOffRecord now

end ObservedStream

/-! ## The shared map -/

/-- A change of the order in which the map is iterated. -/
structure Shuffle where
  order : List ReplayEntry → List ReplayEntry
  perm : ∀ entries, (order entries).Perm entries

structure ReplaySystem where
  cache : GrokReplayCache := .empty
  streams : List ObservedStream := []
  /-- The responses that ended, the latest first. -/
  history : List ResponseRecord := []

inductive ReplayEvent
  /-- A request that is being prepared looks into the map. -/
  | look
  /-- The response to a prepared request begins. -/
  | observe (scope : GrokReplayScope)
  | chunk (stream : ℕ) (item : Except ProviderError Bytes)
  /-- The upstream ends. -/
  | ended (stream : ℕ)
  /-- The client goes away: nothing more is read. -/
  | abandoned (stream : ℕ)
  | shuffle (shuffle : Shuffle)

namespace GrokReplayCache

def shuffle (cache : GrokReplayCache) (shuffle : Shuffle) : GrokReplayCache :=
  ⟨shuffle.order cache.rows, ((shuffle.perm cache.rows).map _).nodup_iff.mpr cache.nodup⟩

end GrokReplayCache

namespace ReplaySystem

variable (parse : Bytes → Option Json) (size : List Json → ℕ)

def perform (s : ReplaySystem) (now : Instant) : ReplayEvent → ReplaySystem
  | .look => { s with cache := s.cache.retain now }
  | .observe scope => { s with streams := s.streams ++ [{ scope }] }
  | .chunk i item =>
    match s.streams[i]? with
    | none => s
    | some stream =>
      let (cache, stream') := stream.observeChunk parse size s.cache now item
      { cache, streams := s.streams.set i stream'
        history := (stream.chunkRecord parse now item).toList ++ s.history }
  | .ended i =>
    match s.streams[i]? with
    | none => s
    | some stream =>
      { cache := stream.cutOff s.cache now, streams := s.streams.eraseIdx i
        history := (stream.cutOffRecord now).toList ++ s.history }
  | .abandoned i => { s with streams := s.streams.eraseIdx i }
  | .shuffle shuffle => { s with cache := s.cache.shuffle shuffle }

def run (s : ReplaySystem) (events : List (Instant × ReplayEvent)) : ReplaySystem :=
  events.foldl (fun s event => s.perform parse size event.1 event.2) s

end ReplaySystem

/-! ## What an end does to the map -/

namespace GrokReplayCache

variable {cache : GrokReplayCache} {now : Instant} {scope : GrokReplayScope}

/-- Write the end of a response into the map. -/
def put (cache : GrokReplayCache) (size : List Json → ℕ) (record : ResponseRecord) :
    GrokReplayCache :=
  (cache.evict record.key).upsert
    ⟨record.key, replayableItems size record.outcome.output, record.endedAt⟩

@[simp] theorem replayableItems_nil (size : List Json → ℕ) : replayableItems size [] = [] := by
  simp [replayableItems]

theorem replayableItems_subset (size : List Json → ℕ) (output : List Json) :
    replayableItems size output ⊆ output := by
  unfold replayableItems
  dsimp only
  split
  · exact nil_subset _
  · exact filter_subset_self _

theorem trimmed?_responseId (payload : Json) :
    Text.trimmed? ((responseId payload).getD "") = responseId payload := by
  rcases hid : responseId payload with _ | id
  · decide
  · obtain ⟨_, -, htext⟩ := Option.bind_eq_some_iff.mp hid
    exact Text.trimmed?_of_trimmed? htext

end GrokReplayCache

namespace ObservedStream

variable {parse : Bytes → Option Json} {size : List Json → ℕ} {stream : ObservedStream}
  {cache : GrokReplayCache} {now : Instant}

def putAll (cache : GrokReplayCache) (size : List Json → ℕ) (record : Option ResponseRecord) :
    GrokReplayCache := (record.map (cache.put size)).getD cache

theorem storeEntry_eq (responseId : String) (outcome : Outcome) :
    cache.storeEntry now stream.scope responseId
        (replayableItems size outcome.output) =
      putAll cache size (stream.ending now (Text.trimmed? responseId) outcome) := by
  unfold storeEntry Text.trimmed?
  split
  · rfl
  · rfl

theorem cutOff_eq (size : List Json → ℕ) :
    stream.cutOff cache now = putAll cache size (stream.cutOffRecord now) := by
  unfold cutOff cutOffRecord
  split
  · rw [← storeEntry_eq, Outcome.output, replayableItems_nil]
    rfl
  · rfl

theorem storeCompleted_eq (payload : Json) :
    cache.storeCompleted size now stream.scope payload =
      putAll cache size (stream.ending now (GrokReplayCache.responseId payload)
        (.completed (outputOf payload))) := by
  rw [← trimmed?_responseId, ← storeEntry_eq]
  unfold storeCompleted
  rcases hresponse : (payload.member? "response").bind Json.toObj with _ | response
  · -- without a record behind it the response has no id either
    have hid : GrokReplayCache.responseId payload = none := by
      unfold GrokReplayCache.responseId
      rcases hmember : payload.member? "response" with _ | tree
      · rfl
      · cases tree <;> simp_all [Json.toObj, Json.text?, Json.field, Json.member?]
    rw [hid]
    rfl
  · obtain ⟨tree, hmember, htree⟩ := Option.bind_eq_some_iff.mp hresponse
    have hout : ((response.get? "output").bind Json.toArr).getD [] = outputOf payload := by
      cases tree <;> cases htree
      simp [outputOf, hmember, Members.get?]
    rw [Outcome.output, ← hout]

theorem invalidateTerminal_eq (size : List Json → ℕ) (payload : Json) :
    cache.invalidateTerminal now stream.scope payload =
      putAll cache size (stream.ending now (GrokReplayCache.responseId payload) .dropped) := by
  rw [← trimmed?_responseId, ← storeEntry_eq, Outcome.output, replayableItems_nil]
  unfold invalidateTerminal
  cases GrokReplayCache.responseId payload with
  | none | some => rfl

theorem observeFrame_fst (payload : Json) :
    (stream.observeFrame size cache now payload).1 =
      putAll cache size (stream.frameRecord now payload) := by
  unfold observeFrame frameRecord
  rcases frameKind payload with _ | kind
  · rfl
  · cases kind with
    | created => rfl
    | completed => exact storeCompleted_eq _
    | failed | incomplete | cancelled => exact invalidateTerminal_eq size _

/-- What a stream writes into the map is what its record says. -/
theorem observeChunk_fst (item : Except ProviderError Bytes) :
    (stream.observeChunk parse size cache now item).1 =
      putAll cache size (stream.chunkRecord parse now item) := by
  cases item with
  | error => exact cutOff_eq size
  | ok bytes =>
    unfold observeChunk chunkRecord
    dsimp only
    rcases framePayload parse bytes with _ | payload
    · rfl
    · exact observeFrame_fst payload

end ObservedStream

/-! ## The map and its history -/

/-- The entry is the last record of its key. -/
def ReplayEntry.Recorded (entry : ReplayEntry) (history : List ResponseRecord) : Prop :=
  ∃ after outcome before, history = after ++ ⟨entry.storedAt, entry.key, outcome⟩ :: before ∧
    entry.items ⊆ outcome.output ∧ ∀ record ∈ after, record.key ≠ entry.key

/-- Every entry is the last record of its key, and there are not too many of them. -/
structure GrokReplayCache.Faithful (cache : GrokReplayCache) (history : List ResponseRecord) :
    Prop where
  recorded : ∀ entry ∈ cache.rows, entry.Recorded history
  bounded : cache.rows.length ≤ maxReplaySessions

namespace GrokReplayCache

variable {cache : GrokReplayCache} {history : List ResponseRecord}

theorem faithful_empty : Faithful .empty [] := ⟨fun _ hentry => (by cases hentry), Nat.zero_le _⟩

section

variable (h : cache.Faithful history)

include h

theorem Faithful.filter (p : ReplayEntry → Bool) : Faithful (Table.filter cache p) history where
  recorded _ hentry := h.recorded _ (Table.mem_filter.mp hentry).1
  bounded := (length_filter_le _ _).trans h.bounded

theorem Faithful.shuffle (shuffle : Shuffle) : (cache.shuffle shuffle).Faithful history where
  recorded entry hentry := h.recorded entry ((shuffle.perm cache.rows).mem_iff.mp hentry)
  bounded := (shuffle.perm cache.rows).length_eq.trans_le h.bounded

theorem Faithful.evict (key : GrokReplayKey) : (cache.evict key).Faithful history := by
  unfold GrokReplayCache.evict
  split
  · split
    · exact h.filter _
    · exact h
  · exact h

/-- A map with room for the key: it is there already, or the map is not full. -/
theorem Faithful.room (key : GrokReplayKey) :
    ((cache.evict key).find? key).isSome ∨
      (cache.evict key).rows.length < maxReplaySessions := by
  unfold GrokReplayCache.evict
  split
  · rename_i hfull
    have hrows : cache.rows ≠ [] := by
      intro hnil
      rw [hnil] at hfull
      exact absurd hfull.1 (by decide)
    rcases hold : cache.oldest with _ | oldest
    · exact absurd (argmin_eq_none.mp hold) hrows
    · refine .inr ((Table.length_filter_lt (argmin_mem hold) ?_).trans_le h.bounded)
      simp
  · rename_i hroom
    rw [not_and_or, not_le, Bool.not_eq_true, Option.isNone_eq_false_iff] at hroom
    exact hroom.symm

theorem Faithful.put (size : List Json → ℕ)
    (record : ResponseRecord) : (cache.put size record).Faithful (record :: history) where
  recorded entry hentry := by
    rcases Table.mem_upsert.mp hentry with rfl | ⟨hold, hkey⟩
    · exact ⟨[], record.outcome, history, rfl, replayableItems_subset size _, nofun⟩
    · obtain ⟨after, outcome, before, rfl, hitems, hlast⟩ :=
        (h.evict record.key).recorded entry hold
      exact ⟨record :: after, outcome, before, rfl, hitems,
        forall_mem_cons.mpr ⟨Ne.symm hkey, hlast⟩⟩
  bounded := by
    rw [GrokReplayCache.put, Table.length_upsert]
    split
    · exact (h.evict record.key).bounded
    · rename_i habsent
      exact (h.room record.key).resolve_left habsent

theorem Faithful.putAll (size : List Json → ℕ) (record : Option ResponseRecord) :
    (ObservedStream.putAll cache size record).Faithful (record.toList ++ history) := by
  cases record with
  | none => exact h
  | some record => exact h.put size record

end

end GrokReplayCache

namespace ReplaySystem

variable {parse : Bytes → Option Json} {size : List Json → ℕ}

theorem perform_faithful {s : ReplaySystem} (h : s.cache.Faithful s.history) (now : Instant)
    (event : ReplayEvent) :
    (s.perform parse size now event).cache.Faithful (s.perform parse size now event).history := by
  cases event with
  | look => exact h.filter _
  | observe => exact h
  | chunk =>
    unfold perform
    dsimp only
    split
    · exact h
    · rw [ObservedStream.observeChunk_fst]
      exact h.putAll size _
  | ended =>
    unfold perform
    dsimp only
    split
    · exact h
    · rw [ObservedStream.cutOff_eq size]
      exact h.putAll size _
  | abandoned => exact h
  | shuffle shuffle => exact h.shuffle shuffle

theorem run_faithful {s : ReplaySystem} (h : s.cache.Faithful s.history)
    (events : List (Instant × ReplayEvent)) :
    (s.run parse size events).cache.Faithful (s.run parse size events).history := by
  induction events generalizing s with
  | nil => exact h
  | cons event _ ih => exact ih (perform_faithful h event.1 event.2)

end ReplaySystem

/-! ## The items of a prepared request -/

/-- The item was put out by a response that completed under the routing scope and model of `scope`,
is not expired at `now`, and nothing was recorded under the key of that response since. -/
def CompletedItem (history : List ResponseRecord) (now : Instant) (scope : GrokReplayScope)
    (item : Json) : Prop :=
  ∃ after endedAt key output before,
    history = after ++ ⟨endedAt, key, .completed output⟩ :: before ∧ item ∈ output ∧
    key.scope.routingScope = scope.routingScope ∧ key.scope.model = scope.model ∧
    now - endedAt < replayTtl ∧ ∀ record ∈ after, record.key ≠ key

theorem GrokReplayCache.Faithful.completedItem {cache : GrokReplayCache}
    {history : List ResponseRecord} (h : cache.Faithful history) {now : Instant}
    {scope : GrokReplayScope} {item : Json} (hitem : Replayable cache now scope item) :
    CompletedItem history now scope item := by
  obtain ⟨entry, husable, hitem⟩ := hitem
  obtain ⟨after, outcome, before, hhistory, hitems, hlast⟩ := h.recorded entry husable.mem
  cases outcome with
  | dropped => cases hitems hitem
  | completed output =>
    exact ⟨after, entry.storedAt, entry.key, output, before, hhistory, hitems hitem,
      husable.routingScope, husable.model, husable.fresh, hlast⟩

def payloadItems (payload : Option Json) : List Json :=
  ((payload.bind Json.toObj).map inputItems).getD []

/-- An item that the client sent, as an item or as a text. -/
def OwnItem (own : Members) (item : Json) : Prop :=
  item ∈ inputItems own ∨ ∃ text, own.get? "input" = some (.str text) ∧ item = userMessage text

theorem inputItems_of_get? {body : Members} {input : List Json}
    (h : body.get? "input" = some (.arr input)) : inputItems body = input := by
  simp [inputItems, h, Json.toArr]

@[simp] theorem inputItems_insert (body : Members) (input : List Json) :
    inputItems (body.insert "input" (.arr input)) = input :=
  inputItems_of_get? (Members.get?_insert body "input" (.arr input))

theorem inputItems_remove_previous (body : Members) :
    inputItems (body.remove "previous_response_id") = inputItems body := by
  rw [inputItems, Members.get?_remove_of_ne (by decide), inputItems]

theorem ownItem_of_injectionInput {own : Members} {cached input : List Json}
    (h : injectionInput own cached = some input) : ∀ item ∈ input, OwnItem own item := by
  unfold injectionInput at h
  split at h
  · rename_i text hinput
    split at h
    · cases h
      exact fun item hitem => .inr ⟨text, hinput, mem_singleton.mp hitem⟩
    · cases h
  · rename_i input' hinput
    cases h
    exact fun item hitem => .inl ((inputItems_of_get? hinput).symm ▸ hitem)
  · cases h

/-- Each item of a prepared input is the client's or comes from a look at the map. -/
theorem Rebuilt.item {first second : GrokReplayCache} {now later : Instant}
    {scope : Option GrokReplayScope} {own body : Members}
    {injection : Option (List Json × List Json)}
    (h : Rebuilt first now second later scope own injection body) {item : Json}
    (hitem : item ∈ inputItems body) :
    OwnItem own item ∨ ∃ s, scope = some s ∧
      (Replayable first now s item ∨ Replayable second later s item) := by
  cases h with
  | kept => exact .inl (.inl hitem)
  | @expanded s input cached resolved hscope hinput hcached hresolved =>
    obtain ⟨_, hitem₀, hresolve⟩ := Fold.exists_of_forall₂ hresolved hitem
    rcases mem_of_resolve hresolve with ⟨-, rfl⟩ | ⟨-, hown | hcache⟩
    · exact .inl (.inl ((inputItems_of_get? hinput).symm ▸ hitem₀))
    · exact .inl (.inl ((inputItems_of_get? hinput).symm ▸ hown))
    · exact .inr ⟨s, hscope, .inl (hcached item hcache)⟩
  | @injected s entry input hscope href hentry hinput =>
    rcases mem_append.mp hitem with hreplay | hown
    · exact .inr ⟨s, hscope, .inr ⟨entry, hentry, mem_of_mem_filter hreplay⟩⟩
    · exact .inl (ownItem_of_injectionInput hinput item hown)

/-- **Replay neither leaks nor resurrects.**  Whatever happened to the map before the two looks of a
preparation and between them, each item of the prepared input is the client's own, or was put out
by a response that completed under the request's routing scope and model, had not expired when it
was looked up, and was not dropped until then; and the map is never over its limit. -/
theorem replay_provenance (parse : Bytes → Option Json) (size : List Json → ℕ)
    (events between : List (Instant × ReplayEvent)) :
    let first := ReplaySystem.run parse size {} events
    let second := first.run parse size between
    first.cache.rows.length ≤ maxReplaySessions ∧
      ∀ (now later : Instant) (request prepared : ProviderRequest)
        (scope : Option GrokReplayScope) (own : Members), request.payload = some (.obj own) →
        first.cache.prepareRequest now second.cache later request = .ok (prepared, scope) →
        ∀ item ∈ payloadItems prepared.payload, OwnItem own item ∨
          ∃ s, replayScope request.metadata request.model = some s ∧
            (CompletedItem first.history now s item ∨
              CompletedItem second.history later s item) := by
  intro first second
  have hfirst : first.cache.Faithful first.history :=
    ReplaySystem.run_faithful faithful_empty events
  have hsecond : second.cache.Faithful second.history :=
    ReplaySystem.run_faithful hfirst between
  refine ⟨hfirst.bounded, ?_⟩
  intro now later request prepared scope own hpayload hprepare item hitem
  obtain ⟨hscope, _, body, hown, hrebuilt, hprepared⟩ := prepareRequest_rebuilt hprepare
  rw [requestBody, hpayload] at hown
  cases hown
  have hmem : item ∈ inputItems body := by
    rcases hprepared with hprepared | hprepared
    · simpa [payloadItems, hprepared, Json.toObj] using hitem
    · simpa [payloadItems, hprepared, Json.toObj, inputItems_remove_previous] using hitem
  rcases hrebuilt.item hmem with hclient | ⟨s, hs, hlook⟩
  · exact .inl hclient
  · exact .inr ⟨s, hscope ▸ hs, hlook.imp hfirst.completedItem hsecond.completedItem⟩

def lookupCall : Json := .obj [("type", .str "function_call"), ("call_id", .str "call_1"),
  ("name", .str "lookup"), ("arguments", .str "null")]

def lookupCompleted : Json := .obj [("type", .str "response.completed"),
  ("response", .obj [("id", .str "resp_1"), ("output", .arr [lookupCall])])]

def lookupText : Bytes := Text.ascii ("\x7b\"type\":\"response.completed\",\"response\":\x7b" ++
  "\"id\":\"resp_1\",\"output\":[\x7b\"type\":\"function_call\",\"call_id\":\"call_1\"," ++
  "\"name\":\"lookup\",\"arguments\":\"null\"\x7d]\x7d\x7d")

def parseLookup (bytes : Bytes) : Option Json :=
  if bytes = lookupText then some lookupCompleted else none

def lookupRun : List (Instant × ReplayEvent) :=
  [(0, .observe ⟨"key-a", "grok-4.5", "session-1"⟩),
    (1, .chunk 0 (.ok (Text.ascii "data: " ++ lookupText ++ Text.ascii "\n\n")))]

def lookupOutput : Json := .obj [("type", .str "function_call_output"), ("call_id", .str "call_1"),
  ("output", .str "done")]

def lookupBody : Members :=
  [("previous_response_id", .str "resp_1"), ("input", .arr [lookupOutput])]

def lookupContinuation : ProviderRequest :=
  ⟨.openAiResponses, "grok-4.5", some (.obj lookupBody),
    { sessionId := some "session-1", routingScope := some "key-a" }⟩

set_option maxRecDepth 4000 in
theorem replay_provenance_lookup :
    let s := ReplaySystem.run parseLookup (fun _ => 0) {} lookupRun
    ∃ (prepared : ProviderRequest) (scope : Option GrokReplayScope),
      s.cache.prepareRequest 2 s.cache 3 lookupContinuation = .ok (prepared, scope) ∧
      payloadItems prepared.payload = [lookupCall, lookupOutput] ∧
      ∀ item ∈ payloadItems prepared.payload, OwnItem lookupBody item ∨
        ∃ scope, replayScope lookupContinuation.metadata lookupContinuation.model = some scope ∧
          (CompletedItem s.history 2 scope item ∨ CompletedItem s.history 3 scope item) :=
  ⟨_, _, rfl, rfl, (replay_provenance parseLookup (fun _ => 0) lookupRun []).2 2 3
    lookupContinuation _ _ lookupBody rfl rfl⟩

end ProviderCore.Grok
