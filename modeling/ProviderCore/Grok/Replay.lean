import Mathlib.Data.List.MinMax
import ProviderCore.Drivers.ResponsesHistory

/-!
# The Grok replay cache

Grok keeps no response on its side, so the driver remembers the output items of completed responses
and puts them back into the request that continues one.  `GrokReplayCache` is the map from scope
and response id to those items; a response that failed or was cut off leaves an entry without
items, a tombstone.

`prepareRequest` looks into the map twice, once to resolve item references and once to find what to
inject, and lets go of the lock in between: it takes the two states of the map it finds.  A look at
the map also drops the expired entries, which is `GrokReplayCache.retain`.  `ObservedStream` follows
the frames of one response and writes its end into the map.
-/

namespace ProviderCore.Grok

open Json (Members)
open Routing (Instant seconds)
open ResponsesHistory (invalidRequest)

def replayTtl : ℕ := seconds (60 * 60)

def maxReplaySessions : ℕ := 128

def maxReplayItems : ℕ := 64

def maxReplayBytes : ℕ := 256 * 1024

structure GrokReplayScope where
  routingScope : String
  model : String
  sessionId : String
deriving DecidableEq

structure GrokReplayKey where
  scope : GrokReplayScope
  responseId : String
deriving DecidableEq

structure ReplayEntry where
  key : GrokReplayKey
  items : List Json
  storedAt : Instant

abbrev GrokReplayCache := Table ReplayEntry.key

def replayScope (metadata : RequestMetadata) (model : String) : Option GrokReplayScope := do
  let routingScope := Text.trim (← metadata.routingScope)
  let model := Text.trim model
  if routingScope.isEmpty || model.isEmpty then none
  else some {
    routingScope, model
    sessionId := ((metadata.routingSessionId.or metadata.sessionId).bind Text.trimmed?).getD "" }

/-! ## Items -/

section

variable (item : Json)

def itemType : Option String := item.text? "type"

def callId : Option String := item.text? "call_id"

def isToolCall : Bool := (itemType item).any fun type =>
  [ "function_call", "custom_tool_call", "local_shell_call", "tool_search_call",
    "mcp_tool_call" ].contains type

def isToolOutput : Bool := (itemType item).any fun type =>
  [ "function_call_output", "custom_tool_call_output", "local_shell_call_output",
    "tool_search_output", "mcp_tool_call_output" ].contains type

def isProse : Bool := (itemType item).any fun type =>
  ["reasoning", "message"].contains type

def isItemReference : Bool := itemType item == some "item_reference"

def isReplayableItem : Bool := isProse item || isToolCall item

end

def inputItems (body : Members) : List Json := ((body.get? "input").bind Json.toArr).getD []

def inputHasItemReference (body : Members) : Bool := (inputItems body).any isItemReference

def toolOutputCallIds (body : Members) : List String :=
  ((inputItems body).filter isToolOutput).filterMap fun item => (callId item).bind Text.trimmed?

def replayEntryMatchesOutputs (entry : ReplayEntry) (outputCallIds : List String) : Bool :=
  outputCallIds.all fun outputCallId =>
    entry.items.any fun item => isToolCall item && callId item == some outputCallId

def hasUnpairedToolOutputs (body : Members) (outputCallIds : List String) : Bool :=
  if outputCallIds.isEmpty then false
  else
    let calls := ((inputItems body).filter isToolCall).filterMap callId
    outputCallIds.any fun output => !calls.any (· == output)

def requestContainsCompleteHistory (body : Members) : Bool :=
  (inputItems body).any fun item =>
    itemType item == some "reasoning" || isToolCall item ||
      item.text? "role" == some "assistant"

/-! ## The map -/

namespace GrokReplayCache

section

variable (cache : GrokReplayCache) (now : Instant) (scope : GrokReplayScope)

def retain : GrokReplayCache :=
  cache.filter fun entry => decide (now - entry.storedAt < replayTtl)

/-- The newest entry; of equally new ones, the last in the map's order. -/
def newest (entries : List ReplayEntry) : Option ReplayEntry :=
  entries.reverse.argmax ReplayEntry.storedAt

def cachedItemsForSession : List Json :=
  let matched := (cache.retain now).rows.filter fun entry => decide (entry.key.scope = scope)
  (matched.insertionSort fun a b => a.storedAt ≤ b.storedAt).flatMap ReplayEntry.items

def only : List ReplayEntry → Option ReplayEntry
  | [entry] => some entry
  | _ => none

/-- Look an entry up by the response it continues. -/
def entryOfResponse (entries : List ReplayEntry) (scope : GrokReplayScope)
    (previousResponseId : String) : Option ReplayEntry :=
  let candidates := entries.filter fun entry =>
    entry.key.responseId == previousResponseId &&
      entry.key.scope.routingScope == scope.routingScope && entry.key.scope.model == scope.model
  let exact := candidates.filter fun entry => entry.key.scope.sessionId == scope.sessionId
  if !scope.sessionId.isEmpty && !exact.isEmpty then only exact else only candidates

/-- Look an entry up by the tool calls it answers, or take the session's newest. -/
def entryOfSession (entries : List ReplayEntry) (scope : GrokReplayScope)
    (outputCallIds : List String) : Option ReplayEntry :=
  if scope.sessionId.isEmpty && outputCallIds.isEmpty then none
  else
    let inScope := entries.filter fun entry => decide (entry.key.scope = scope)
    -- the newest response of the session was not replayable: nothing older stands in for it
    if (newest inScope).any fun entry => entry.items.isEmpty then none
    else
      let candidates := inScope.filter fun entry =>
        outputCallIds.isEmpty || replayEntryMatchesOutputs entry outputCallIds
      if !outputCallIds.isEmpty && candidates.length ≠ 1 then none else newest candidates

def entry (previousResponseId : Option String) (outputCallIds : List String) :
    Option ReplayEntry :=
  match previousResponseId with
  | some previousResponseId => entryOfResponse (cache.retain now).rows scope previousResponseId
  | none => entryOfSession (cache.retain now).rows scope outputCallIds

/-- The entry that makes room in a full map; of equally old ones, the first in the map's order. -/
def oldest : Option ReplayEntry :=
  cache.rows.argmin ReplayEntry.storedAt

def evict (key : GrokReplayKey) : GrokReplayCache :=
  if cache.rows.length ≥ maxReplaySessions ∧ (cache.find? key).isNone then
    match cache.oldest with
    | some oldest => cache.filter fun entry => decide (entry.key ≠ oldest.key)
    | none => cache
  else cache

def storeEntry (responseId : String) (items : List Json) : GrokReplayCache :=
  if (Text.trim responseId).isEmpty then cache
  else
    let key : GrokReplayKey := ⟨scope, Text.trim responseId⟩
    (cache.evict key).upsert ⟨key, items, now⟩

def invalidateResponseId (responseId : String) : GrokReplayCache :=
  cache.storeEntry now scope responseId []

def responseId (payload : Json) : Option String :=
  ((payload.member? "response").bind (·.text? "id")).bind Text.trimmed?

def invalidateTerminal (payload : Json) : GrokReplayCache :=
  match responseId payload with
  | some responseId => cache.invalidateResponseId now scope responseId
  | none => cache

end

variable (size : List Json → ℕ)

/-- What is kept of an output; too much of it is not kept at all. -/
def replayableItems (output : List Json) : List Json :=
  let items := output.filter isReplayableItem
  if items.length > maxReplayItems || size items > maxReplayBytes then [] else items

def storeCompleted (cache : GrokReplayCache) (now : Instant) (scope : GrokReplayScope)
    (payload : Json) : GrokReplayCache :=
  match (payload.member? "response").bind Json.toObj with
  | none => cache
  | some response =>
    let output := ((response.get? "output").bind Json.toArr).getD []
    cache.storeEntry now scope ((responseId payload).getD "") (replayableItems size output)

end GrokReplayCache

/-! ## Resolving item references -/

/-- The items an id may stand for: the request's own first, then the cached ones. -/
structure ReferenceIndex where
  index : Members := []
  localIds : List String := []
  ambiguousIds : List String := []

namespace ReferenceIndex

def itemId (item : Json) : Option String := (item.text? "id").bind Text.trimmed?

/-- The first of the request's own items with an id is the one meant. -/
def addLocal (refs : ReferenceIndex) (item : Json) : ReferenceIndex :=
  if isItemReference item then refs
  else
    match itemId item with
    | none => refs
    | some id =>
      { index := if (refs.index.get? id).isSome then refs.index else refs.index.insert id item
        localIds := id :: refs.localIds
        ambiguousIds :=
          if refs.localIds.contains id then id :: refs.ambiguousIds else refs.ambiguousIds }

def addCached (refs : ReferenceIndex) (item : Json) : ReferenceIndex :=
  match itemId item with
  | none => refs
  | some id =>
    if refs.localIds.contains id then refs
    else
      { refs with
        index := refs.index.insert id item
        ambiguousIds :=
          if (refs.index.get? id).isSome then id :: refs.ambiguousIds else refs.ambiguousIds }

def build (own cached : List Json) : ReferenceIndex :=
  cached.foldl addCached (own.foldl addLocal {})

/-- The item behind a reference; every other item stands for itself. -/
def resolve (refs : ReferenceIndex) (item : Json) : Option Json :=
  if isItemReference item then do
    let id ← itemId item
    (refs.index.get? id).filter fun _ => !refs.ambiguousIds.contains id
  else some item

end ReferenceIndex

def continuationUnavailable : ProviderError :=
  invalidRequest "Grok continuation state is unavailable; resend complete input history"

def referenceUnavailable : ProviderError :=
  invalidRequest ("Grok continuation state is unavailable to resolve item_reference; " ++
    "resend complete input history")

def referenceAmbiguous : ProviderError :=
  invalidRequest ("Grok continuation state is unavailable or ambiguous for item_reference; " ++
    "resend complete input history")

def toolContinuationUnavailable : ProviderError :=
  invalidRequest ("Grok tool continuation state is unavailable or ambiguous; " ++
    "resend complete input history")

/-- The cached items that the references of a request may name. -/
def referencedItems (cache : GrokReplayCache) (now : Instant) (scope : GrokReplayScope)
    (previousResponseId : Option String) : Except ProviderError (List Json) :=
  match previousResponseId with
  | some previousResponseId =>
    match cache.entry now scope (some previousResponseId) [] with
    | some entry => .ok entry.items
    | none => .error referenceUnavailable
  | none =>
    if scope.sessionId.isEmpty then .error referenceUnavailable
    else .ok (cache.cachedItemsForSession now scope)

def expandItemReferences (cache : GrokReplayCache) (now : Instant) (scope : GrokReplayScope)
    (previousResponseId : Option String) (body : Members) : Except ProviderError Members :=
  match body.get? "input" with
  | some (.arr input) => do
      let cachedItems ← referencedItems cache now scope previousResponseId
      match input.mapM (ReferenceIndex.build input cachedItems).resolve with
      | some resolved => .ok (body.insert "input" (.arr resolved))
      | none => .error referenceAmbiguous
  | _ => .ok body

/-! ## Injecting cached items -/

def userMessage (text : String) : Json := .obj [("role", .str "user"), ("content", .str text)]

/-- The cached items that an input lacks: the assistant's prose if it has none, and the calls it
answers without holding them. -/
def missingItems (input cached : List Json) : List Json :=
  let outputCallIds := (input.filter isToolOutput).filterMap callId
  let existingCallIds := (input.filter isToolCall).filterMap callId
  let hasAssistant := input.any fun item =>
    item.text? "role" == some "assistant" || itemType item == some "reasoning"
  cached.filter fun item =>
    if isProse item then !hasAssistant
    else isToolCall item && (callId item).any fun callId =>
      outputCallIds.contains callId && !existingCallIds.contains callId

/-- The input as a list of items, for an injection; a text without prose to precede it stays. -/
def injectionInput (body : Members) (cached : List Json) : Option (List Json) :=
  match body.get? "input" with
  | some (.str text) => if cached.any isProse then some [userMessage text] else none
  | some (.arr input) => some input
  | _ => none

/-- Put the missing items before the input, and say whether there were any. -/
def injectReplayItems (body : Members) (cached : List Json) : Members × Bool :=
  match injectionInput body cached with
  | none => (body, false)
  | some input =>
    let replay := missingItems input cached
    if replay.isEmpty then (body.insert "input" (.arr input), false)
    else (body.insert "input" (.arr (replay ++ input)), true)

/-! ## Preparing a request -/

structure Continuation where
  scope : Option GrokReplayScope
  previousResponseId : Option String
  body : Members
  expandedReferences : Bool

def requestBody (request : ProviderRequest) : Except ProviderError Members :=
  match request.payload with
  | none => .error (invalidRequest "Grok Responses request body must be valid JSON")
  | some (.obj body) => .ok body
  | some _ => .error (invalidRequest "Grok Responses request body must be a JSON object")

def previousResponseId (request : ProviderRequest) (body : Members) : Option String :=
  (request.metadata.previousResponseId.bind Text.trimmed?).or
    (((body.get? "previous_response_id").bind Json.toStr).bind Text.trimmed?)

def expandRequest (cache : GrokReplayCache) (now : Instant) (request : ProviderRequest) :
    Except ProviderError Continuation := do
  let scope := replayScope request.metadata request.model
  let body ← requestBody request
  let previousResponseId := previousResponseId request body
  if inputHasItemReference body then
    match scope with
    | none => .error continuationUnavailable
    | some scope => do
        let body ← expandItemReferences cache now scope previousResponseId body
        return ⟨some scope, previousResponseId, body, true⟩
  else return ⟨scope, previousResponseId, body, false⟩

def Continuation.entry (c : Continuation) (cache : GrokReplayCache) (now : Instant) :
    Option ReplayEntry :=
  c.scope.bind fun scope =>
    let outputCallIds := toolOutputCallIds c.body
    if c.previousResponseId.isSome || !outputCallIds.isEmpty || !scope.sessionId.isEmpty then
      cache.entry now scope c.previousResponseId outputCallIds
    else none

/-- Expanded references have brought the history along: nothing is injected on top of them. -/
def Continuation.inject (c : Continuation) (entry : Option ReplayEntry) : Members × Bool :=
  match entry with
  | some entry => if c.expandedReferences then (c.body, false) else
      injectReplayItems c.body entry.items
  | none => (c.body, false)

def Continuation.replay (c : Continuation) (cache : GrokReplayCache) (now : Instant) :
    Except ProviderError (Members × Bool) :=
  let entry := c.entry cache now
  let (body, replayed) := c.inject entry
  let cacheMiss := entry.isNone || !replayed
  if c.previousResponseId.isSome && cacheMiss && !requestContainsCompleteHistory body then
    .error continuationUnavailable
  else if hasUnpairedToolOutputs body (toolOutputCallIds body) &&
      (c.expandedReferences || replayed || (c.previousResponseId.isNone && cacheMiss)) then
    .error toolContinuationUnavailable
  else .ok (body, replayed)

/-- Prepare a request, from the map as it is at the look for references and at the look for what to
inject. -/
def GrokReplayCache.prepareRequest (first : GrokReplayCache) (now : Instant)
    (second : GrokReplayCache) (later : Instant) (request : ProviderRequest) :
    Except ProviderError (ProviderRequest × Option GrokReplayScope) := do
  let c ← expandRequest first now request
  let (body, replayed) ← c.replay second later
  if c.previousResponseId.isSome || replayed || c.expandedReferences then
    return ({ request with
      payload := some (.obj (body.remove "previous_response_id"))
      metadata := { request.metadata with previousResponseId := none } }, c.scope)
  else return ({ request with payload := some (.obj body) }, c.scope)

/-! ## Observing a response -/

/-- The lines of a frame, each ended by a carriage return, a line feed or both. -/
def sseLines (frame : Bytes) : List Bytes :=
  go [] frame
where
  go (line : Bytes) : Bytes → List Bytes
    | [] => if line.isEmpty then [] else [line.reverse]
    | 13 :: 10 :: rest => line.reverse :: go [] rest
    | 13 :: rest => line.reverse :: go [] rest
    | 10 :: rest => line.reverse :: go [] rest
    | byte :: rest => go (byte :: line) rest

/-- The data lines of a frame, one under the other. -/
def frameData (frame : Bytes) : Bytes :=
  (sseLines frame).foldl (fun data line =>
    match (Text.afterStart (Text.ascii "data: ") line).or
        (Text.afterStart (Text.ascii "data:") line) with
    | some part => if data.isEmpty then part else data ++ 10 :: part
    | none => data) []

/-- The events of a response that matter to the map. -/
inductive FrameKind
  | created
  | completed
  | failed
  | incomplete
  | cancelled
deriving DecidableEq

def frameKind (payload : Json) : Option FrameKind :=
  (itemType payload).bind fun type =>
    [ ("response.created", FrameKind.created), ("response.completed", .completed),
      ("response.failed", .failed), ("response.incomplete", .incomplete),
      ("response.cancelled", .cancelled), ("response.canceled", .cancelled) ].lookup type

structure ObservedStream where
  scope : GrokReplayScope
  /-- The id that the response was created with, or nothing. -/
  responseId : String := ""
  terminalSeen : Bool := false
deriving DecidableEq

namespace ObservedStream

variable (parse : Bytes → Option Json) (size : List Json → ℕ)

def framePayload (frame : Bytes) : Option Json := parse (frameData frame)

section

variable (stream : ObservedStream) (cache : GrokReplayCache) (now : Instant)

/-- Give a terminal event the id that the response was created with, unless it has its own. -/
def fillResponseId (payload : Json) : Json :=
  match payload.toObj with
  | some members =>
    if ((members.get? "response").bind (·.text? "id")).isNone && !stream.responseId.isEmpty then
      let response := ((members.get? "response").bind Json.toObj).getD []
      .obj (members.insert "response" (.obj (response.insert "id" (.str stream.responseId))))
    else payload
  | none => payload

/-- Without an end of its own the response is cut off here. -/
def cutOff : GrokReplayCache :=
  if !stream.terminalSeen && !stream.responseId.isEmpty then
    cache.invalidateResponseId now stream.scope stream.responseId
  else cache

def observeFrame (payload : Json) : GrokReplayCache × ObservedStream :=
  match frameKind payload with
  | some .created =>
    (cache, { stream with
      responseId := (GrokReplayCache.responseId payload).getD stream.responseId })
  | some .completed =>
    (cache.storeCompleted size now stream.scope (stream.fillResponseId payload),
      { stream with terminalSeen := true })
  | some _ =>
    (cache.invalidateTerminal now stream.scope (stream.fillResponseId payload),
      { stream with terminalSeen := true })
  | none => (cache, stream)

def observeChunk : Except ProviderError Bytes → GrokReplayCache × ObservedStream
  | .ok bytes =>
    match framePayload parse bytes with
    | some payload => stream.observeFrame size cache now payload
    | none => (cache, stream)
  | .error _ => (stream.cutOff cache now, stream)

end

end ObservedStream

end ProviderCore.Grok
