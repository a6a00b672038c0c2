import ProviderCore.Grok.StreamPayload
import ProviderCore.Lib.OrderedMap
import ProviderCore.Protocol.SseLines

/-!
# The Grok stream restorer

The restorer rewrites the upstream's events one frame at a time.  It remembers the response's id,
the numbers it gives to events, the names it gives to items, the calls to the client's own tools
while they are streamed, and the items that are finished.

An event whose payload is a record is always restored.  Any other JSON value has no place for a
sequence number: when there is one to write, `restoreValue` is `none`, which stands for a panic.
-/

namespace ProviderCore.Grok.Restore

open Json (Edit Members)
open Protocol (sseEventName sseDataPayload)

/-- What the stream is given from outside. -/
structure StreamEnv where
  codec : JsonCodec
  model : String
  /-- The name-based identifier of an item's id. -/
  itemUuid : String → String
  /-- The identifier of a response that the upstream did not name. -/
  responseUuid : String

/-! ## Item ids -/

def maxItemIdLength : ℕ := 64

structure ItemIds where
  itemIds : List (String × String) := []
  usedItemIds : List String := []
  nextGeneratedItemId : ℕ := 0

/-- Number a name until it is not taken.  There is one more try than names that are taken. -/
def untakenName (stem : String) (used : List String) : ℕ → String → ℕ → String × ℕ
  | 0, name, generated => (name, generated)
  | tries + 1, name, generated =>
    if used.contains name then
      let generated := min (generated + 1) 18446744073709551615
      untakenName stem used tries (stem ++ "_" ++ toString generated) generated
    else (name, generated)

namespace ItemIds

variable (itemUuid : String → String) (ids : ItemIds)

def normalizedItemId (itemId : String) : String × ItemIds :=
  match ids.itemIds.lookup itemId with
  | some normalized => (normalized, ids)
  | none =>
    let stem := "grok_item_" ++ itemUuid itemId
    let first := if itemId.length ≤ maxItemIdLength && !(ids.usedItemIds.contains itemId) then
      itemId else stem
    let (normalized, generated) := untakenName stem ids.usedItemIds
      (ids.usedItemIds.length + 1) first ids.nextGeneratedItemId
    (normalized, {
      itemIds := (itemId, normalized) :: ids.itemIds
      usedItemIds := normalized :: ids.usedItemIds
      nextGeneratedItemId := generated })

def normalizeField (field : String) (object : Members) : (Members × Bool) × ItemIds :=
  match object.text? field with
  | none => ((object, false), ids)
  | some itemId =>
    let (normalized, ids) := ids.normalizedItemId itemUuid itemId
    if normalized == itemId then ((object, false), ids)
    else ((object.insert field (.str normalized), true), ids)

def normalizeItem : Json → (Json × Bool) × ItemIds
  | .obj item =>
    let ((item, changed), ids) := ids.normalizeField itemUuid "id" item
    ((.obj item, changed), ids)
  | item => ((item, false), ids)

def normalizeItems (ids : ItemIds) : List Json → (List Json × Bool) × ItemIds
  | [] => (([], false), ids)
  | item :: items =>
    let ((item, changed), ids) := ids.normalizeItem itemUuid item
    let ((items, changed'), ids) := ids.normalizeItems items
    ((item :: items, changed || changed'), ids)

def normalizeEventItem (payload : Members) : (Members × Bool) × ItemIds :=
  match payload.get? "item" with
  | some item =>
    let ((item, changed), ids) := ids.normalizeItem itemUuid item
    ((payload.update "item" fun _ => item, changed), ids)
  | none => ((payload, false), ids)

def normalizeOutput (payload : Members) : (Members × Bool) × ItemIds :=
  match (payload.get? "response").bind (Json.field "output" Json.toArr) with
  | some output =>
    let ((output, changed), ids) := ids.normalizeItems itemUuid output
    ((payload.update "response" fun response =>
      (Edit.record (.always (Members.update · "output" fun _ => .arr output)) response).1,
      changed), ids)
  | none => ((payload, false), ids)

def normalizeItemIds (payload : Members) : (Members × Bool) × ItemIds :=
  let ((payload, changed), ids) := ids.normalizeField itemUuid "item_id" payload
  let ((payload, changed'), ids) := ids.normalizeEventItem itemUuid payload
  let ((payload, changed''), ids) := ids.normalizeOutput itemUuid payload
  ((payload, changed || changed' || changed''), ids)

end ItemIds

/-! ## The state -/

structure GrokToolStreamRestorer where
  mappings : GrokToolMappings
  clientToolCalls : List ClientToolCall := []
  completedItems : OrderedMap ℤ Json := .empty
  completedItemsFallback : List Json := []
  nextSequence : Option ℤ := none
  responseId : Option String := none
  ids : ItemIds := {}
  terminalSeen : Bool := false

def responseIdOf (payload : Members) : Option String :=
  ((payload.get? "response").bind (Json.text? "id")).bind Text.trimmed?

/-- A status other than that of a completed response. -/
def otherStatus (payload : Members) : Option String :=
  (((payload.get? "response").bind (Json.text? "status")).bind Text.trimmed?).filter
    (· ≠ "completed")

def terminalTypeOf : String → String
  | "incomplete" => "response.incomplete"
  | "cancelled" => "response.cancelled"
  | "canceled" => "response.canceled"
  | _ => "response.failed"

def nonSuccessError : Json := .obj [
  ("code", .str "upstream_non_success_terminal"),
  ("message", .str "Grok upstream returned a non-success terminal status")]

def withError (response : Members) : Members :=
  if (response.get? "error").isSome then response else response.insert "error" nonSuccessError

/-- A completed response with another status is not completed. -/
def renameCompleted (type : String) (payload : Members) : String × Members :=
  match if type == "response.completed" then otherStatus payload else none with
  | some status =>
    let type := terminalTypeOf status
    (type, Members.update (payload.insert "type" (.str type)) "response" fun response =>
      (Edit.record (.always withError) response).1)
  | none => (type, payload)

def sequenceOf (payload : Members) : Option ℤ := (payload.get? "sequence_number").bind Json.toI64

/-- The number after one, of 64 bits. -/
def saturatingSucc (n : ℤ) : ℤ := min (n + 1) 9223372036854775807

def clientToolKind (mappings : GrokToolMappings) (name : String) : Option ClientToolKind :=
  if mappings.customTools.contains name then some .custom
  else if mappings.toolSearch && name == "tool_search" then some .toolSearch
  else none

namespace GrokToolStreamRestorer

variable (env : StreamEnv) (r : GrokToolStreamRestorer)
  (payload : Members) (sequence : Option ℤ) (changed : Bool)

def noteResponseId : GrokToolStreamRestorer :=
  { r with responseId := (responseIdOf payload).or r.responseId }

def beginSequence : GrokToolStreamRestorer :=
  { r with nextSequence := r.nextSequence.or sequence }

def resequence : Members × GrokToolStreamRestorer :=
  match r.nextSequence with
  | none => (payload, r)
  | some next =>
    (if changed || sequence != some next then payload.insert "sequence_number" (.int next)
      else payload, { r with nextSequence := some (saturatingSucc next) })

def generatedEvent : Members × GrokToolStreamRestorer :=
  match r.nextSequence with
  | none => (payload, r)
  | some next =>
    (payload.insert "sequence_number" (.int next),
      { r with nextSequence := some (saturatingSucc next) })

/-! ## The client's tools -/

/-- The call that an item is about, if it is one to a tool of the client, with its place. -/
def recordClientToolItem : Option (ℕ × ClientToolCall × GrokToolStreamRestorer) := do
  let item ← (payload.get? "item").bind Json.toObj
  guard (isFunctionCallItem item)
  let name ← item.text? "name"
  let kind ← clientToolKind r.mappings name
  let itemId := (item.text? "id").getD ""
  let callId := (item.text? "call_id").getD ""
  let outputIndex := ((payload.get? "output_index").bind Json.toI64).getD 0
  let existing := r.clientToolCalls.zipIdx.find? fun call =>
    (!itemId.isEmpty && call.1.itemId == itemId) || (!callId.isEmpty && call.1.callId == callId) ||
      (itemId.isEmpty && callId.isEmpty && call.1.outputIndex == outputIndex &&
        call.1.upstreamName == name)
  let reference := r.mappings.namespaceTools.lookup name
  let call := (existing.map (·.1)).getD {
    kind, upstreamName := name
    name := (reference.map (·.name)).getD name
    ns := reference.map (·.ns)
    callId, itemId, outputIndex, arguments := "" }
  let call := match (item.text? "arguments").filter (!·.isEmpty) with
    | some arguments => { call with arguments }
    | none => call
  match existing with
  | some (_, index) =>
    return (index, call, { r with clientToolCalls := r.clientToolCalls.set index call })
  | none =>
    return (r.clientToolCalls.length, call,
      { r with clientToolCalls := r.clientToolCalls ++ [call] })

def clientToolCallFor : Option (ClientToolCall × ℕ) :=
  let itemId := (payload.text? "item_id").getD ""
  let callId := (payload.text? "call_id").getD ""
  let outputIndex := (payload.get? "output_index").bind Json.toI64
  let name := (payload.text? "name").getD ""
  r.clientToolCalls.zipIdx.find? fun call =>
    (!itemId.isEmpty && call.1.itemId == itemId) || (!callId.isEmpty && call.1.callId == callId) ||
      outputIndex.any (call.1.outputIndex == ·) ||
      (itemId.isEmpty && callId.isEmpty && outputIndex.isNone && !name.isEmpty &&
        call.1.upstreamName == name)

def setCall (index : ℕ) (call : ClientToolCall) : GrokToolStreamRestorer :=
  { r with clientToolCalls := r.clientToolCalls.set index call }

/-! ## Events -/

/-- An event that is handed on, with the names of namespaced tools. -/
def passEvent : List Members × GrokToolStreamRestorer :=
  let (payload, renamed) := restoreNamespaceEvent r.mappings payload
  let (payload, r) := r.resequence payload sequence (changed || renamed)
  ([payload], r)

def outputItemAdded : List Members × GrokToolStreamRestorer :=
  match r.recordClientToolItem payload with
  | some (_, call, r) =>
    let (payload, restored) := restoreClientToolItem env.codec call "" payload
    let (payload, r) := r.resequence payload sequence (changed || restored)
    ([payload], r)
  | none => r.passEvent payload sequence changed

def argumentsDelta : List Members × GrokToolStreamRestorer :=
  match r.clientToolCallFor payload with
  | some (call, index) =>
    ([], match payload.text? "delta" with
      | some delta => r.setCall index { call with arguments := call.arguments ++ delta }
      | none => r)
  | none => r.passEvent payload sequence changed

section

variable (call : ClientToolCall)

/-- The input of a custom tool in one piece. -/
def inputDelta (input : String) : Members := [
  ("type", .str "response.custom_tool_call_input.delta"),
  ("output_index", .int call.outputIndex),
  ("item_id", .str call.itemId),
  ("delta", .str input)]

def inputDone (input : String) : Members := [
  ("type", .str "response.custom_tool_call_input.done"),
  ("output_index", .int call.outputIndex),
  ("item_id", .str call.itemId),
  ("call_id", .str call.callId),
  ("name", .str call.name),
  ("input", .str input)]

def inNamespace (event : Members) : Members :=
  match call.ns with
  | some ns => event.insert "namespace" (.str ns)
  | none => event

def customInput (input : String) : List Members × GrokToolStreamRestorer :=
  if input.isEmpty then
    let (done, r) := r.generatedEvent (inputDone call input)
    ([inNamespace call done], r)
  else
    let (delta, r) := r.generatedEvent (inputDelta call input)
    let (done, r) := r.generatedEvent (inputDone call input)
    ([delta, inNamespace call done], r)

end

def argumentsDone : List Members × GrokToolStreamRestorer :=
  match r.clientToolCallFor payload with
  | none => r.passEvent payload sequence changed
  | some (call, index) =>
    let call := match (payload.text? "arguments").filter (!·.isEmpty) with
      | some arguments => { call with arguments }
      | none => call
    let r := r.setCall index call
    match call.kind with
    | .toolSearch => ([], r)
    | .custom => r.customInput call (customToolInput env.codec call.arguments)

def recordCompletedItem : GrokToolStreamRestorer :=
  match payload.get? "item", (payload.get? "output_index").bind Json.toI64 with
  | none, _ => r
  | some item, some index => { r with completedItems := r.completedItems.insert index item }
  | some item, none => { r with completedItemsFallback := r.completedItemsFallback ++ [item] }

def outputItemDone : List Members × GrokToolStreamRestorer :=
  let ((payload, restored), r) := match r.recordClientToolItem payload with
    | some (index, call, r) =>
      (restoreClientToolItem env.codec call (customToolInput env.codec call.arguments) payload,
        { r with clientToolCalls := r.clientToolCalls.eraseIdx index })
    | none => (restoreNamespaceEvent r.mappings payload, r)
  let r := r.recordCompletedItem payload
  let (payload, r) := r.resequence payload sequence (changed || restored)
  ([payload], r)

def restoreEvent (type : String) (payload : Members) (sequence : Option ℤ) (changed : Bool) :
    List Members × GrokToolStreamRestorer :=
  match type with
  | "response.output_item.added" => r.outputItemAdded env payload sequence changed
  | "response.function_call_arguments.delta" => r.argumentsDelta payload sequence changed
  | "response.function_call_arguments.done" => r.argumentsDone env payload sequence changed
  | "response.output_item.done" => r.outputItemDone env payload sequence changed
  | _ => r.passEvent payload sequence changed

/-- The end of a text of reasoning is two events. -/
def reasoningTextDone : List Members × GrokToolStreamRestorer :=
  let (textDone, r) := r.resequence (normalizeReasoningTextDone payload) sequence true
  let (partDone, r) := r.generatedEvent (normalizeReasoningPartDone payload)
  ([textDone, partDone], r)

/-- A response whose output is missing gets the items that were finished. -/
def patchTerminalOutput : Edit Members := .member "response" (.record fun response =>
  if ((response.get? "output").bind Json.toArr).any (!·.isEmpty) ||
      (r.completedItems.entries.isEmpty && r.completedItemsFallback.isEmpty) then
    (response, false)
  else
    (response.insert "output" (.arr (r.completedItems.values ++ r.completedItemsFallback)), true))

def terminalEvent : List Members × GrokToolStreamRestorer :=
  let r := { r with terminalSeen := true }
  let (payload, patched) := r.patchTerminalOutput payload
  let (payload, restored) := restoreTerminalToolPayload r.mappings env.codec payload
  let (payload, r) := r.resequence payload sequence (changed || patched || restored)
  ([payload], r)

def restorePayload : List Members × GrokToolStreamRestorer :=
  let r := r.noteResponseId payload
  let (type, payload) := renameCompleted ((payload.text? "type").getD "") payload
  let sequence := sequenceOf payload
  let r := r.beginSequence sequence
  let ((payload, renamed), ids) := r.ids.normalizeItemIds env.itemUuid payload
  let r := { r with ids }
  if type == "response.reasoning_text.done" then r.reasoningTextDone payload sequence
  else
    let (payload, reworded) := normalizeReasoningPayload payload
    if isTerminalResponseEvent type then r.terminalEvent env payload sequence (renamed || reworded)
    else r.restoreEvent env type payload sequence (renamed || reworded)

/-- A value that is no record can only be handed on. -/
def restoreValue : Json → Option (List Json × GrokToolStreamRestorer)
  | .obj payload =>
    let (payloads, r) := r.restorePayload env payload
    some (payloads.map .obj, r)
  | .null => some (match r.nextSequence with
      | none => ([.null], r)
      | some _ =>
        let (payload, r) := r.resequence [] none false
        ([.obj payload], r))
  | value => if r.nextSequence.isNone then some ([value], r) else none

end GrokToolStreamRestorer

/-! ## Frames -/

/-- What the client is sent. -/
inductive Output
  | ping (frame : Bytes)
  | verbatim (frame : Bytes)
  | rewritten (frame : Bytes) (payload : Json)
  | failure (payload : Json)

def pingComment (frame : Bytes) : Bytes :=
  if [13, 10] <:+: frame then Text.ascii ": ping\r\n\r\n"
  else if frame.contains 13 then Text.ascii ": ping\r\r"
  else Text.ascii ": ping\n\n"

/-- The lines of a frame with another payload: its data stands where the first data stood. -/
def rewriteLines (type data : Bytes) (wroteData : Bool) :
    List (Bytes × Bytes) → List (Bytes × Bytes)
  | [] => []
  | (content, ending) :: lines =>
    if Text.ascii "data:" <+: content then
      if wroteData then rewriteLines type data true lines
      else (Text.ascii "data: " ++ data, ending) :: rewriteLines type data true lines
    else if Text.ascii "event:" <+: content then
      (Text.ascii "event: " ++ type, ending) :: rewriteLines type data wroteData lines
    else (content, ending) :: rewriteLines type data wroteData lines

def rewriteSseFrame (codec : JsonCodec) (frame : Bytes) (payload : Json) : Bytes :=
  Protocol.unlines (rewriteLines (Text.utf8 ((payload.text? "type").getD ""))
    (codec.renderBytes payload) false (Protocol.sseLines frame))

def Output.bytes (codec : JsonCodec) : Output → Bytes
  | .ping frame => pingComment frame
  | .verbatim frame => frame
  | .rewritten frame payload => rewriteSseFrame codec frame payload
  | .failure payload =>
    Text.ascii "event: response.failed\ndata: " ++ codec.renderBytes payload ++ Text.ascii "\n\n"

namespace GrokToolStreamRestorer

variable (env : StreamEnv) (r : GrokToolStreamRestorer)

def failurePayload (responseId model code message : String) : Json := .obj [
  ("type", .str "response.failed"),
  ("response", .obj [
    ("id", .str responseId),
    ("object", .str "response"),
    ("model", .str model),
    ("status", .str "failed"),
    ("output", .arr []),
    ("error", .obj [("code", .str code), ("message", .str message)])])]

def failureFrame (code message : String) : Output × GrokToolStreamRestorer :=
  let responseId := r.responseId.getD ("resp_" ++ env.responseUuid)
  (.failure (failurePayload responseId env.model code message),
    { r with terminalSeen := true, responseId := some responseId })

/-- `none` is a panic. -/
def restoreFrame (frame : Bytes) : Option (List Output × GrokToolStreamRestorer) :=
  if sseEventName frame == some "ping" then some ([.ping frame], r)
  else
    match (sseDataPayload frame).bind env.codec.parse with
    | none => some ([.verbatim frame], r)
    | some payload => (r.restoreValue env payload).map fun restored =>
        (restored.1.map (.rewritten frame), restored.2)

end GrokToolStreamRestorer

end ProviderCore.Grok.Restore
