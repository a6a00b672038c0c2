import ProviderCore.Protocol.StreamAdapter

/-!
# From Responses events to Chat Completions chunks

Every chunk repeats the response's id, model and creation time.  An event is kept as data:
`Event.data` is the JSON of its data line, absent for the end mark.
-/

namespace ProviderCore.Protocol.OpenAiChat

open Emit (emit when withSome)

/-! ## Chat Completions events -/

inductive Event
  | chunk (fields : List (String × Json))
  | error (type message : String)
  | done

def Event.data : Event → Option Json
  | .chunk fields => some (.obj fields)
  | .error type message =>
    some (.obj [("error", .obj [("type", .str type), ("message", .str message)])])
  | .done => none

def chatError (error : Json) : Event :=
  let type := (((error.member? "type").or (error.member? "code")).bind Json.toStr).getD "api_error"
  .error type ((error.text? "message").getD type)

/-! ## The converter -/

structure ChatEventConverter where
  id : String := ""
  model : String
  includeUsage : Bool
  created : ℕ := 0
  roleEmitted : Bool := false
  emittedText : Bool := false
  emittedReasoning : Bool := false
  emittedTools : Bool := false
  toolIndexes : List (String × ℕ) := []
  toolNames : List (ℕ × String) := []
  toolArgumentsEmitted : List ℕ := []
  nextToolIndex : ℕ := 0
deriving DecidableEq

abbrev Convert := Emit ChatEventConverter Event

section

variable (s : ChatEventConverter)

def chunkId : String := if s.id.isEmpty then "chatcmpl-provider" else s.id

/-- The fields that every chunk begins with. -/
def envelope : List (String × Json) :=
  [("id", .str (chunkId s)), ("object", .str "chat.completion.chunk"), ("created", .int s.created),
    ("model", .str s.model)]

def chunk (delta : Json) (finishReason : Option String) : Event :=
  .chunk (envelope s ++
    [("choices", .arr [.obj [("index", .int 0), ("delta", delta),
      ("finish_reason", Json.ofOption .str finishReason)]])] ++
    if s.includeUsage then [("usage", .null)] else [])

end

def emitChunk (delta : List (String × Json)) (finishReason : Option String) : Convert Unit := do
  emit (chunk (← get) (.obj delta) finishReason)

def captureResponse (response : Json) : Convert Unit :=
  modify fun s => { s with
    id := (response.text? "id").getD s.id
    model := (response.text? "model").getD s.model
    created := (response.count? "created_at").getD s.created }

def emitRole : Convert Unit := do
  when (!(← get).roleEmitted) do
    emitChunk [("role", .str "assistant"), ("content", .null)] none
    modify ({ · with roleEmitted := true })

/-! ## Tools -/

/-- The index of a tool by its key, a new one if it has none. -/
def toolIndex (key : String) : Convert ℕ := do
  let s ← get
  match s.toolIndexes.lookup key with
  | some index => return index
  | none =>
    set { s with
      nextToolIndex := s.nextToolIndex + 1
      toolIndexes := (key, s.nextToolIndex) :: s.toolIndexes }
    return s.nextToolIndex

def toolIndexForItem (item : Json) : Convert ℕ := do
  let s ← get
  let callId := item.text? "call_id"
  let itemId := item.text? "id"
  let known := (callId.bind (s.toolIndexes.lookup ·)).or (itemId.bind (s.toolIndexes.lookup ·))
  let index := known.getD s.nextToolIndex
  set { s with
    nextToolIndex := if known.isSome then s.nextToolIndex else s.nextToolIndex + 1
    -- the later entry hides the earlier, as an insertion does
    toolIndexes := (itemId.map (·, index)).toList ++ (callId.map (·, index)).toList ++
      s.toolIndexes }
  return index

def toolKey (value : Json) : String :=
  ((((value.member? "call_id").or (value.member? "item_id")).or (value.member? "id")).bind
    Json.toStr).getD "tool"

def emitToolCall (call : List (String × Json)) : Convert Unit :=
  emitChunk [("tool_calls", .arr [.obj call])] none

def emitToolStart (item : Json) : Convert Unit := do
  emitRole
  let index ← toolIndexForItem item
  let id := (((item.member? "call_id").or (item.member? "id")).bind Json.toStr).getD ""
  let name := (item.text? "name").getD ""
  when (!name.isEmpty) (modify fun s => { s with toolNames := (index, name) :: s.toolNames })
  modify ({ · with emittedTools := true })
  emitToolCall [("index", .int index), ("id", .str id), ("type", .str "function"),
    ("function", .obj [("name", .str name), ("arguments", .str "")])]

def emitArguments (index : ℕ) (arguments : String) : Convert Unit := do
  modify fun s => { s with toolArgumentsEmitted := index :: s.toolArgumentsEmitted }
  emitToolCall [("index", .int index), ("function", .obj [("arguments", .str arguments)])]

def emitToolArguments (event : Json) (delta : Bool) : Convert Unit := do
  let index ← toolIndex (toolKey event)
  let arguments := (event.text? (if delta then "delta" else "arguments")).getD ""
  let settled := !delta && (← get).toolArgumentsEmitted.contains index
  when (!arguments.isEmpty && !settled) do
    modify ({ · with emittedTools := true })
    emitArguments index arguments

/-! ## Items -/

/-- The text of a message that did not come in pieces. -/
def messageDone (item : Json) : Convert Unit := do
  let text := outputText item
  when (!text.isEmpty) do
    emitRole
    modify ({ · with emittedText := true })
    emitChunk [("content", .str text)] none

def functionCallDone (item : Json) : Convert Unit := do
  let index ← toolIndexForItem item
  when ((← get).toolNames.lookup index).isNone (emitToolStart item)
  let settled := (← get).toolArgumentsEmitted.contains index
  withSome (item.text? "arguments") fun arguments =>
    when (!settled && !arguments.isEmpty) (emitArguments index arguments)

def outputItemDone (event : Json) : Convert Unit := do
  let item := eventItem event
  match item.text? "type" with
  | some "message" => when (!(← get).emittedText) (messageDone item)
  | some "function_call" => functionCallDone item
  | _ => pure ()

/-! ## Completion -/

def chatUsage (usage : Json) : Json :=
  let input := (usage.count? "input_tokens").getD 0
  let output := (usage.count? "output_tokens").getD 0
  let cached := ((usage.member? "input_tokens_details").bind (·.count? "cached_tokens")).getD 0
  let reasoning :=
    ((usage.member? "output_tokens_details").bind (·.count? "reasoning_tokens")).getD 0
  .obj [("prompt_tokens", .int input), ("completion_tokens", .int output),
    ("total_tokens", .int ((usage.count? "total_tokens").getD (min (input + output) maxU64))),
    ("prompt_tokens_details", .obj [("cached_tokens", .int cached)]),
    ("completion_tokens_details", .obj [("reasoning_tokens", .int reasoning)])]

def finishReason (s : ChatEventConverter) (response : Json) : String :=
  let incomplete := (response.member? "incomplete_details").bind (·.text? "reason")
  if s.emittedTools then "tool_calls"
  else if incomplete.any (["max_output_tokens", "max_tokens"].contains ·) then "length"
  else if incomplete == some "content_filter" then "content_filter"
  else "stop"

def complete (event : Json) : Convert Unit := do
  emitRole
  let response := eventResponse event
  captureResponse response
  let s ← get
  emitChunk [] (some (finishReason s response))
  when s.includeUsage do
    withSome (response.member? "usage") fun usage =>
      emit (.chunk (envelope s ++ [("choices", .arr []), ("usage", chatUsage usage)]))
  emit .done

/-! ## Events -/

def reasoningDelta (event : Json) : Convert Unit := do
  emitRole
  let delta := (event.text? "delta").getD ""
  when (!delta.isEmpty) do
    modify ({ · with emittedReasoning := true })
    emitChunk [("reasoning_content", .str delta)] none

def textDelta (event : Json) : Convert Unit := do
  emitRole
  let delta := (event.text? "delta").getD ""
  when (!delta.isEmpty) do
    modify ({ · with emittedText := true })
    emitChunk [("content", .str delta)] none

def convert (event : Json) : Convert Unit :=
  match eventType event with
  | "response.created" => do
      captureResponse (eventResponse event)
      emitRole
  | "response.reasoning_text.delta" | "response.reasoning_summary_text.delta" =>
    reasoningDelta event
  | "response.output_text.delta" => textDelta event
  | "response.output_item.added" =>
    when ((eventItem event).text? "type" == some "function_call")
      (emitToolStart (eventItem event))
  | "response.function_call_arguments.delta" => emitToolArguments event true
  | "response.function_call_arguments.done" => emitToolArguments event false
  | "response.output_item.done" => outputItemDone event
  | "response.completed" | "response.incomplete" => complete event
  | "error" => emit (chatError ((event.member? "error").getD event))
  | "response.failed" =>
    emit (chatError (((event.member? "response").bind (·.member? "error")).getD event))
  | "response.canceled" | "response.cancelled" =>
    emit (chatError (.obj [("type", .str "api_error"),
      ("message", .str "Upstream response was canceled")]))
  | _ => pure ()

end ProviderCore.Protocol.OpenAiChat
