import ProviderCore.Protocol.StreamAdapter

/-!
# From Responses events to Claude events

The converter keeps at most one content block open and opens and closes blocks as the events come.
An event is kept as data: `Event.name` and `Event.data` are what its frame is written from.  How
JSON is rendered is a parameter.
-/

namespace ProviderCore.Protocol.Claude

open Emit (emit when withSome)

/-! ## Claude events -/

inductive ContentBlock
  | thinking
  | text
  | toolUse (id name : String) (signature : Option String)
  | serverToolUse (id : String)
  | webSearchToolResult (toolUseId : String) (content : List Json)

inductive BlockDelta
  | thinking (thinking : String)
  | text (text : String)
  | inputJson (partialJson : String)
  | signature (signature : String)
deriving DecidableEq

inductive Event
  | messageStart (id model : String)
  | contentBlockStart (index : ℕ) (block : ContentBlock)
  | contentBlockDelta (index : ℕ) (delta : BlockDelta)
  | contentBlockStop (index : ℕ)
  | messageDelta (stopReason : String) (stopSequence usage : Json)
  | messageStop
  | error (type message : String)

def ContentBlock.json : ContentBlock → Json
  | .thinking => .obj [("type", .str "thinking"), ("thinking", .str "")]
  | .text => .obj [("type", .str "text"), ("text", .str "")]
  | .toolUse id name signature =>
    Json.present [("type", some (.str "tool_use")), ("id", some (.str id)),
      ("name", some (.str name)), ("input", some (.obj [])), ("signature", signature.map .str)]
  | .serverToolUse id =>
    .obj [("type", .str "server_tool_use"), ("id", .str id), ("name", .str "web_search"),
      ("input", .obj [])]
  | .webSearchToolResult toolUseId content =>
    .obj [("type", .str "web_search_tool_result"), ("tool_use_id", .str toolUseId),
      ("content", .arr content)]

def BlockDelta.json : BlockDelta → Json
  | .thinking value => .obj [("type", .str "thinking_delta"), ("thinking", .str value)]
  | .text value => .obj [("type", .str "text_delta"), ("text", .str value)]
  | .inputJson partialJson =>
    .obj [("type", .str "input_json_delta"), ("partial_json", .str partialJson)]
  | .signature value => .obj [("type", .str "signature_delta"), ("signature", .str value)]

def Event.name : Event → String
  | .messageStart .. => "message_start"
  | .contentBlockStart .. => "content_block_start"
  | .contentBlockDelta .. => "content_block_delta"
  | .contentBlockStop .. => "content_block_stop"
  | .messageDelta .. => "message_delta"
  | .messageStop => "message_stop"
  | .error .. => "error"

def Event.fields : Event → List (String × Json)
  | .messageStart id model =>
    [("message", .obj [("id", .str id), ("type", .str "message"), ("role", .str "assistant"),
      ("model", .str model), ("content", .arr []), ("stop_reason", .null),
      ("stop_sequence", .null),
      ("usage", .obj [("input_tokens", .int 0), ("output_tokens", .int 0)])])]
  | .contentBlockStart index block => [("index", .int index), ("content_block", block.json)]
  | .contentBlockDelta index delta => [("index", .int index), ("delta", delta.json)]
  | .contentBlockStop index => [("index", .int index)]
  | .messageDelta stopReason stopSequence usage =>
    [("delta", .obj [("stop_reason", .str stopReason), ("stop_sequence", stopSequence)]),
      ("usage", usage)]
  | .messageStop => []
  | .error type message => [("error", .obj [("type", .str type), ("message", .str message)])]

def Event.data (event : Event) : Json := .obj (("type", .str event.name) :: event.fields)

/-! ## Errors -/

def claudeErrorPayload (error : Json) (defaultMessage : Option String) : Event :=
  let type := (((error.member? "type").or (error.member? "code")).bind Json.toStr).getD "api_error"
  let type := if type == "invalid_request" then "invalid_request_error" else type
  .error type (((error.text? "message").or defaultMessage).getD type)

def claudeError (event : Json) : Event :=
  claudeErrorPayload ((event.member? "error").getD .null) (event.text? "message")

def claudeResponseError (event : Json) (defaultMessage : String) : Event :=
  claudeErrorPayload (((event.member? "response").bind (·.member? "error")).getD .null)
    (some defaultMessage)

/-! ## The converter -/

inductive OpenBlock
  | thinking (index : ℕ)
  | text (index : ℕ)
  | tool (index : ℕ) (argumentsEmitted : Bool)
deriving DecidableEq

namespace OpenBlock

def index : OpenBlock → ℕ
  | thinking index | text index | tool index _ => index

def isThinking : OpenBlock → Bool
  | thinking _ => true
  | _ => false

def isText : OpenBlock → Bool
  | text _ => true
  | _ => false

def isTool : OpenBlock → Bool
  | tool _ _ => true
  | _ => false

end OpenBlock

/-- A call whose name is not known yet. -/
structure PendingTool where
  callId : String
  name : String
  arguments : String
  signature : Option String
deriving DecidableEq

structure ClaudeEventConverter where
  model : String
  toolNames : List (String × String)
  blockIndex : ℕ := 0
  openBlock : Option OpenBlock := none
  thinkingSignature : Option String := none
  pendingTool : Option PendingTool := none
  emittedText : Bool := false
  emittedTool : Bool := false
  webSearchRequests : ℕ := 0
deriving DecidableEq

abbrev Convert := Emit ClaudeEventConverter Event

def currentIndex (s : ClaudeEventConverter) : ℕ :=
  (s.openBlock.map OpenBlock.index).getD s.blockIndex

/-- The signature of a thinking block that is about to close. -/
def emitSignature (index : ℕ) : Convert Unit := do
  withSome (← get).thinkingSignature fun signature => do
    modify ({ · with thinkingSignature := none })
    emit (.contentBlockDelta index (.signature signature))

def closeBlock : Convert Unit := do
  withSome (← get).openBlock fun block => do
    modify ({ · with openBlock := none })
    when block.isThinking (emitSignature block.index)
    emit (.contentBlockStop block.index)
    modify ({ · with blockIndex := block.index + 1 })

def startThinking : Convert Unit := do
  when (!(← get).openBlock.any OpenBlock.isThinking) do
    closeBlock
    let index := (← get).blockIndex
    emit (.contentBlockStart index .thinking)
    modify ({ · with openBlock := some (.thinking index) })

def startText : Convert Unit := do
  when (!(← get).openBlock.any OpenBlock.isText) do
    closeBlock
    let index := (← get).blockIndex
    emit (.contentBlockStart index .text)
    modify ({ · with openBlock := some (.text index) })

def startTool (callId name : String) (signature : Option String) : Convert Unit := do
  closeBlock
  let index := (← get).blockIndex
  let name := ((← get).toolNames.lookup name).getD name
  emit (.contentBlockStart index (.toolUse callId name signature))
  modify ({ · with openBlock := some (.tool index false), emittedTool := true })

def emitToolArguments (arguments : String) : Convert Unit := do
  match (← get).openBlock with
  | some (.tool index _) =>
    emit (.contentBlockDelta index (.inputJson arguments))
    modify ({ · with openBlock := some (.tool index true) })
  | _ => pure ()

/-! ## Web searches -/

def webSearchResults (item : Json) : List Json :=
  let results := ((item.member? "results").bind Json.toArr).or
    (((item.member? "action").bind (·.member? "sources")).bind Json.toArr)
  (results.getD []).filterMap fun result => do
    let url ← (result.text? "url").filter (!·.isEmpty)
    let title := ((result.text? "title").filter (!·.isEmpty)).getD url
    some (.obj [("type", .str "web_search_result"), ("title", .str title), ("url", .str url),
      ("page_age", .null)])

section

variable (render : Json → String) (event item : Json)

def emitWebSearch : Convert Unit := do
  closeBlock
  let toolIndex := (← get).blockIndex
  let id := ((((item.member? "id").or (item.member? "call_id")).bind Json.toStr).filter
    (!·.isEmpty)).getD ("web_search_" ++ toString toolIndex)
  let query := ((((item.member? "action").bind (·.member? "query")).or
    (item.member? "query")).bind Json.toStr).getD ""
  emit (.contentBlockStart toolIndex (.serverToolUse id))
  when (!query.isEmpty) do
    emit (.contentBlockDelta toolIndex (.inputJson (render (.obj [("query", .str query)]))))
  emit (.contentBlockStop toolIndex)
  modify ({ · with blockIndex := toolIndex + 1 })
  emit (.contentBlockStart (toolIndex + 1) (.webSearchToolResult id (webSearchResults item)))
  emit (.contentBlockStop (toolIndex + 1))
  modify fun s => { s with
    blockIndex := toolIndex + 2, webSearchRequests := s.webSearchRequests + 1 }

/-! ## Items -/

def outputItemAdded : Convert Unit := do
  let item := eventItem event
  match item.text? "type" with
  | some "reasoning" => modify ({ · with thinkingSignature := item.text? "encrypted_content" })
  | some "function_call" =>
    closeBlock
    let callId := (item.text? "call_id").getD ""
    let name := (item.text? "name").getD ""
    let signature := item.text? "signature"
    if name.isEmpty then
      modify ({ · with pendingTool := some { callId, name, arguments := "", signature } })
    else startTool callId name signature
  | _ => pure ()

def reasoningDone : Convert Unit := do
  withSome (item.text? "encrypted_content") fun signature =>
    modify ({ · with thinkingSignature := some signature })
  let s ← get
  when (s.thinkingSignature.isSome && !s.openBlock.any OpenBlock.isThinking) startThinking
  when ((← get).openBlock.any OpenBlock.isThinking) closeBlock

/-- The text of a message that did not come in pieces. -/
def messageDone : Convert Unit := do
  let text := outputText item
  when (!text.isEmpty) do
    startText
    emit (.contentBlockDelta (currentIndex (← get)) (.text text))
    modify ({ · with emittedText := true })
    closeBlock

/-- Start the block of a call that was only announced, or not even that. -/
def startPendingTool : Convert Unit := do
  let pending := (← get).pendingTool
  modify ({ · with pendingTool := none })
  let own (field : String) := (item.text? field).filter (!·.isEmpty)
  startTool (((own "call_id").or (pending.map PendingTool.callId)).getD "")
    (((own "name").or (pending.map PendingTool.name)).getD "")
    ((item.text? "signature").or (pending.bind PendingTool.signature))
  withSome ((pending.map PendingTool.arguments).filter (!·.isEmpty)) emitToolArguments

def argumentsEmitted (s : ClaudeEventConverter) : Bool :=
  match s.openBlock with
  | some (.tool _ emitted) => emitted
  | _ => false

def functionCallDone : Convert Unit := do
  when (!(← get).openBlock.any OpenBlock.isTool) (startPendingTool item)
  when (!argumentsEmitted (← get)) (withSome (item.text? "arguments") emitToolArguments)
  closeBlock

def outputItemDone : Convert Unit := do
  let item := eventItem event
  match item.text? "type" with
  | some "reasoning" => reasoningDone item
  | some "message" => when (!(← get).emittedText) (messageDone item)
  | some "function_call" => functionCallDone item
  | some "web_search_call" => emitWebSearch render item
  | _ => pure ()

/-- Arguments of a call, in a piece or as a whole. -/
def functionArguments (isDelta : Bool) : Convert Unit := do
  let value := (event.text? (if isDelta then "delta" else "arguments")).getD ""
  let s ← get
  if s.openBlock.any OpenBlock.isTool then
    when (isDelta || !argumentsEmitted s) (emitToolArguments value)
  else
    withSome s.pendingTool fun pending =>
      when (isDelta || pending.arguments.isEmpty) do
        let arguments := if isDelta then pending.arguments ++ value else value
        modify ({ · with pendingTool := some { pending with arguments } })

/-! ## Completion -/

def claudeStopReason (s : ClaudeEventConverter) (response : Json) : String :=
  let incomplete := (response.member? "incomplete_details").bind (·.text? "reason")
  let upstream := (response.text? "stop_reason").or incomplete
  if s.emittedTool then "tool_use"
  else if upstream.any (["max_tokens", "max_output_tokens"].contains ·) then "max_tokens"
  else if upstream == some "content_filter" then "refusal"
  else if upstream.any (["end_turn", "stop_sequence", "pause_turn", "refusal"].contains ·) then
    upstream.getD "end_turn"
  else if incomplete == some "model_context_window_exceeded" then "model_context_window_exceeded"
  else "end_turn"

def claudeUsage (s : ClaudeEventConverter) (usage : Json) : Json :=
  let cached := ((usage.member? "input_tokens_details").bind (·.count? "cached_tokens")).getD 0
  let input := (usage.count? "input_tokens").getD 0 - cached
  let output := (usage.count? "output_tokens").getD 0
  Json.present [("input_tokens", some (.int input)), ("output_tokens", some (.int output)),
    ("cache_read_input_tokens", if cached > 0 then some (.int cached) else none),
    ("server_tool_use", if s.webSearchRequests > 0 then
      some (.obj [("web_search_requests", .int s.webSearchRequests)]) else none)]

def complete : Convert Unit := do
  closeBlock
  let response := eventResponse event
  let s ← get
  emit (.messageDelta (claudeStopReason s response)
    (((response.member? "stop_sequence").filter (!·.isNull)).getD .null)
    (claudeUsage s ((response.member? "usage").getD .null)))
  emit .messageStop

/-! ## Events -/

def messageStart : Convert Unit := do
  let response := eventResponse event
  emit (.messageStart ((response.text? "id").getD "")
    ((response.text? "model").getD (← get).model))

def thinkingDelta : Convert Unit := do
  startThinking
  emit (.contentBlockDelta (currentIndex (← get)) (.thinking ((event.text? "delta").getD "")))

def textDelta : Convert Unit := do
  startText
  modify ({ · with emittedText := true })
  emit (.contentBlockDelta (currentIndex (← get)) (.text ((event.text? "delta").getD "")))

def partType : Option String := (event.member? "part").bind (·.text? "type")

def convert : Convert Unit :=
  match eventType event with
  | "error" => emit (claudeError event)
  | "response.created" => messageStart event
  | "response.output_item.added" => outputItemAdded event
  | "response.reasoning_summary_part.added" => startThinking
  | "response.reasoning_summary_text.delta" | "response.reasoning_text.delta" =>
    thinkingDelta event
  | "response.content_part.added" =>
    match partType event with
    | some "output_text" => startText
    | some "reasoning_text" => startThinking
    | _ => pure ()
  | "response.output_text.delta" => textDelta event
  | "response.content_part.done" =>
    when (partType event == some "output_text") closeBlock
  | "response.function_call_arguments.delta" => functionArguments event true
  | "response.function_call_arguments.done" => functionArguments event false
  | "response.output_item.done" => outputItemDone render event
  | "response.completed" | "response.incomplete" => complete event
  | "response.failed" => emit (claudeResponseError event "Upstream response failed")
  | "response.canceled" | "response.cancelled" =>
    emit (claudeResponseError event "Upstream response was canceled")
  | _ => pure ()

end

end ProviderCore.Protocol.Claude
