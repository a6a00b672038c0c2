import ProviderCore.Lib.OrderedMap
import ProviderCore.Protocol.ResponsesEvents
import ProviderCore.Protocol.StreamAdapter

/-!
# From Chat Completions chunks to Responses events

The converter collects a message, a reasoning and any number of tool calls side by side and ends
them together.  A call takes its output index when it is first heard of and is added when both its
id and its name are known.  JSON parsing is a parameter; numbers count without bound.
-/

namespace ProviderCore.Protocol.OpenAiResponses

open Emit (emit when withSome)

inductive ToolTarget
  | function
  | custom
  | localShell
  | applyPatch
  | toolSearch
  | nested (ns name : String) (custom : Bool)
deriving DecidableEq

abbrev ToolTargets := List (String × ToolTarget)

/-- The text of a message or of a reasoning, so far. -/
structure TextOutput where
  index : ℕ
  itemId : String
  text : String
deriving DecidableEq

structure ToolOutput where
  outputIndex : ℕ
  itemId : String
  callId : String
  name : String
  arguments : String
  target : ToolTarget
  started : Bool
deriving DecidableEq

structure ChatEventConverter where
  id : String := ""
  model : String
  createdAt : ℕ := 0
  targets : ToolTargets
  sequence : ℕ := 0
  nextOutputIndex : ℕ := 0
  created : Bool := false
  terminal : Bool := false
  text : Option TextOutput := none
  reasoning : Option TextOutput := none
  tools : OrderedMap ℕ ToolOutput := .empty
  output : OrderedMap ℕ Json := .empty
  usage : Option Json := none
  finishReason : Option String := none
  failure : Option String := none

abbrev Convert := Emit ChatEventConverter NumberedEvent

/-! ## Envelope -/

section

variable (s : ChatEventConverter)

def responseId : String := if s.id.isEmpty then "resp_provider" else s.id

def dropResp : List Char → List Char
  | 'r' :: 'e' :: 's' :: 'p' :: '_' :: rest => dropResp rest
  | rest => rest

def idSuffix : String :=
  .ofList ((dropResp (responseId s).toList).map fun c => if c.isAlphanum then c else '_')

def response (status : String) (output usage incompleteDetails : Json) : Json :=
  .obj [("id", .str (responseId s)), ("object", .str "response"), ("created_at", .int s.createdAt),
    ("status", .str status), ("model", .str s.model), ("output", output), ("usage", usage),
    ("error", .null), ("incomplete_details", incompleteDetails)]

def failedResponse (message : String) : Json :=
  .obj [("id", .str (responseId s)), ("object", .str "response"), ("created_at", .int s.createdAt),
    ("status", .str "failed"), ("model", .str s.model), ("output", .arr []),
    ("usage", s.usage.getD .null),
    ("error", .obj [("code", .str "upstream_protocol_error"), ("message", .str message),
      ("param", .null)]),
    ("incomplete_details", .null)]

end

def emitEvent (event : ResponsesEvent) : Convert Unit := do
  let sequence := (← get).sequence
  modify ({ · with sequence := sequence + 1 })
  emit ⟨sequence, event⟩

def takeOutputIndex : Convert ℕ := do
  let index := (← get).nextOutputIndex
  modify ({ · with nextOutputIndex := index + 1 })
  return index

def emitCreated : Convert Unit := do
  when (!(← get).created) do
    modify ({ · with created := true })
    emitEvent (.created (response (← get) "in_progress" (.arr []) .null .null))

def fail (message : String) : Convert Unit := do
  when (!(← get).terminal) do
    emitEvent (.failed (failedResponse (← get) message))
    modify ({ · with terminal := true })

/-- Take over a field of the envelope, which must not change once the response is created.  The
result is what is wrong with it. -/
def captureField {α : Type} (event : Json) (field : String) (read : Json → Option α)
    (invalid changed : String) (same : ChatEventConverter → α → Bool)
    (store : ChatEventConverter → α → ChatEventConverter) : Convert (Option String) := do
  match (event.member? field).filter (!·.isNull) with
  | none => return none
  | some value =>
    match read value with
    | none => return some invalid
    | some value =>
      let s ← get
      if s.created && !same s value then return some changed
      else
        modify (store · value)
        return none

def nonEmptyText (value : Json) : Option String := value.toStr.filter (!·.isEmpty)

def captureId (event : Json) : Convert (Option String) :=
  captureField event "id"
    (fun value => (nonEmptyText value).map fun id =>
      if "resp_".toList <+: id.toList then id else "resp_" ++ id)
    "Chat Completions response id must be non-empty text"
    "Chat Completions upstream changed response id within one stream"
    (fun s id => id == responseId s) fun s id => { s with id }

def captureModel (event : Json) : Convert (Option String) :=
  captureField event "model" nonEmptyText
    "Chat Completions response model must be non-empty text"
    "Chat Completions upstream changed response model within one stream"
    (fun s model => model == s.model) fun s model => { s with model }

def captureCreated (event : Json) : Convert (Option String) :=
  captureField event "created" Json.toU64
    "Chat Completions response created must be a non-negative integer"
    "Chat Completions upstream changed response creation time within one stream"
    (fun s created => created == s.createdAt) fun s createdAt => { s with createdAt }

def captureEnvelope (event : Json) : Convert (Option String) := do
  match ← captureId event with
  | some message => return some message
  | none =>
    match ← captureModel event with
    | some message => return some message
    | none => captureCreated event

/-! ## Texts -/

section

/-- Where the text of a part is collected. -/
def textOf (s : ChatEventConverter) : Part → Option TextOutput
  | .content => s.text
  | .reasoningSummary => s.reasoning

def setText (s : ChatEventConverter) (text : Option TextOutput) : Part → ChatEventConverter
  | .content => { s with text }
  | .reasoningSummary => { s with reasoning := text }

variable (part : Part) (itemId text : String)

def partChannel : Channel :=
  match part with
  | .content => .outputText
  | .reasoningSummary => .reasoningSummary

def partIdStart : String :=
  match part with
  | .content => "msg_"
  | .reasoningSummary => "rs_"

def partValue : Json :=
  match part with
  | .content => .obj [("type", .str "output_text"), ("text", .str text), ("annotations", .arr [])]
  | .reasoningSummary => .obj [("type", .str "summary_text"), ("text", .str text)]

def partItem (status : String) (parts : List Json) : Json :=
  match part with
  | .content =>
    .obj [("id", .str itemId), ("type", .str "message"), ("status", .str status),
      ("role", .str "assistant"), ("content", .arr parts)]
  | .reasoningSummary =>
    .obj [("id", .str itemId), ("type", .str "reasoning"), ("status", .str status),
      ("summary", .arr parts)]

def startPart : Convert TextOutput := do
  let index ← takeOutputIndex
  let itemId := partIdStart part ++ idSuffix (← get)
  let output : TextOutput := { index, itemId, text := "" }
  modify fun s => setText s (some output) part
  emitEvent (.itemAdded index (partItem part itemId "in_progress" []))
  emitEvent (.partAdded part itemId index (partValue part ""))
  return output

/-- The text of a part, begun if there is none. -/
def currentPart : Convert TextOutput := do
  match textOf (← get) part with
  | some output => return output
  | none => startPart part

def emitPiece (delta : String) : Convert Unit := do
  let output ← currentPart part
  modify fun s => setText s (some { output with text := output.text ++ delta }) part
  emitEvent (.delta (partChannel part) output.itemId output.index delta)

def finishPart : Convert Unit := do
  withSome (textOf (← get) part) fun output => do
    modify fun s => setText s none part
    emitEvent (.textDone (partChannel part) output.itemId output.index output.text)
    emitEvent (.partDone part output.itemId output.index (partValue part output.text))
    let item := partItem part output.itemId "completed" [partValue part output.text]
    emitEvent (.itemDone output.index item)
    modify fun s => { s with output := s.output.insert output.index item }

end

/-- What a piece of text leaves alone: whatever is not the numbering or the text of the part. -/
theorem keeps_emitPiece {τ : Type} {view : ChatEventConverter → τ} {part : Part}
    (hsequence : ∀ s n, view { s with sequence := n } = view s)
    (hindex : ∀ s n, view { s with nextOutputIndex := n } = view s)
    (htext : ∀ s output, view (setText s output part) = view s) (delta : String) :
    Emit.Keeps view (emitPiece part delta) := by
  have hemit : ∀ event, Emit.Keeps view (emitEvent event) := fun event => ⟨fun s => hsequence s _⟩
  have hstart : Emit.Keeps view (startPart part) := by
    refine .bind ⟨fun s => hindex s _⟩ fun _ => .bind .of_get fun _ => ?_
    refine .bind (.of_modify fun s => htext s _) fun _ => .bind (hemit _) fun _ => ?_
    exact .bind (hemit _) fun _ => .of_pure _
  have hcurrent : Emit.Keeps view (currentPart part) := by
    refine .bind .of_get fun s => ?_
    split
    · exact .of_pure _
    · exact hstart
  exact .bind hcurrent fun _ => .bind (.of_modify fun s => htext s _) fun _ => hemit _

def emitText (delta : String) : Convert Unit := emitPiece .content delta

def emitReasoning (delta : String) : Convert Unit := emitPiece .reasoningSummary delta

def finishText : Convert Unit := finishPart .content

def finishReasoning : Convert Unit := finishPart .reasoningSummary

/-! ## Tool calls -/

namespace ToolTarget

/-- The arguments are streamed. -/
def isFunction : ToolTarget → Bool
  | function | nested _ _ false => true
  | _ => false

def isCustom : ToolTarget → Bool
  | custom | nested _ _ true => true
  | _ => false

end ToolTarget

/-- Bring in the id and the name of a call, which must not change.  The result says also what is
wrong. -/
def ToolOutput.identify (tool : ToolOutput) (targets : ToolTargets) (callId : Option String)
    (name : String) : ToolOutput × Option String :=
  if callId.any fun id => !tool.callId.isEmpty && tool.callId != id then
    (tool, some "Chat Completions upstream changed a tool call id within one index")
  else
    let tool := { tool with callId := callId.getD tool.callId }
    if name.isEmpty then (tool, none)
    else if !tool.name.isEmpty && tool.name != name then
      (tool, some "Chat Completions upstream changed a tool name within one index")
    else ({ tool with name, target := (targets.lookup name).getD .function }, none)

section

variable (parse : Bytes → Option Json)

def customInput (arguments : String) : String :=
  ((parse (Text.utf8 arguments)).bind (·.text? "input")).getD arguments

def hostedItem (tool : ToolOutput) (status type field : String) (completed : Bool) : Json :=
  .obj [("id", .str tool.itemId), ("type", .str type), ("status", .str status),
    ("call_id", .str tool.callId),
    (field, if completed then (parse (Text.utf8 tool.arguments)).getD (.str tool.arguments)
      else .null)]

def toolItem (tool : ToolOutput) (status : String) (completed : Bool) : Json :=
  let input := if completed then customInput parse tool.arguments else ""
  let arguments := if completed then tool.arguments else ""
  match tool.target with
  | .custom =>
    .obj [("id", .str tool.itemId), ("type", .str "custom_tool_call"), ("status", .str status),
      ("call_id", .str tool.callId), ("name", .str tool.name), ("input", .str input)]
  | .nested ns name true =>
    .obj [("id", .str tool.itemId), ("type", .str "custom_tool_call"), ("status", .str status),
      ("call_id", .str tool.callId), ("namespace", .str ns), ("name", .str name),
      ("input", .str input)]
  | .nested ns name false =>
    .obj [("id", .str tool.itemId), ("type", .str "function_call"), ("status", .str status),
      ("call_id", .str tool.callId), ("namespace", .str ns), ("name", .str name),
      ("arguments", .str arguments)]
  | .localShell => hostedItem parse tool status "local_shell_call" "action" completed
  | .applyPatch => hostedItem parse tool status "apply_patch_call" "operation" completed
  | .toolSearch =>
    .obj [("id", .str tool.itemId), ("type", .str "tool_search_call"), ("status", .str status),
      ("call_id", .str tool.callId), ("arguments", .str arguments)]
  | .function =>
    .obj [("id", .str tool.itemId), ("type", .str "function_call"), ("status", .str status),
      ("call_id", .str tool.callId), ("name", .str tool.name), ("arguments", .str arguments)]

/-- The call of an index, with a new output index if it is new. -/
def toolAt (index : ℕ) (callId : Option String) (name : String) : Convert ToolOutput := do
  match (← get).tools.get? index with
  | some tool => return tool
  | none =>
    let outputIndex ← takeOutputIndex
    let s ← get
    return {
      outputIndex
      itemId := "fc_" ++ idSuffix s ++ "_" ++ toString index
      callId := callId.getD ""
      name
      arguments := ""
      target := (s.targets.lookup name).getD .function
      started := false }

def putTool (index : ℕ) (tool : ToolOutput) : Convert Unit :=
  modify fun s => { s with tools := s.tools.insert index tool }

/-- Arguments of a call that has its id and its name in order. -/
def extendTool (index : ℕ) (tool : ToolOutput) (arguments : String) : Convert Unit := do
  let tool := { tool with arguments := tool.arguments ++ arguments }
  if !tool.callId.isEmpty && !tool.name.isEmpty && !tool.started then
    putTool index { tool with started := true }
    emitEvent (.itemAdded tool.outputIndex (toolItem parse tool "in_progress" false))
    when (tool.target.isFunction && !tool.arguments.isEmpty)
      (emitEvent (.delta .functionArguments tool.itemId tool.outputIndex tool.arguments))
  else
    putTool index tool
    when (tool.started && tool.target.isFunction && !arguments.isEmpty)
      (emitEvent (.delta .functionArguments tool.itemId tool.outputIndex arguments))

def emitToolDelta (toolCall : Json) : Convert Unit := do
  let index := (toolCall.count? "index").getD 0
  let function := (toolCall.member? "function").getD .null
  let name := (function.text? "name").getD ""
  let targets := (← get).targets
  if !name.isEmpty && (targets.lookup name).isNone then
    modify ({ · with
      failure := some ("Chat Completions upstream called undeclared tool " ++ name) })
  else
    let callId := (toolCall.text? "id").filter (!·.isEmpty)
    let tool ← toolAt index callId name
    match tool.identify targets callId name with
    | (tool, some message) =>
      putTool index tool
      modify ({ · with failure := some message })
    | (tool, none) => extendTool parse index tool ((function.text? "arguments").getD "")

/-- The channel and the text that a call ends with. -/
def toolText (tool : ToolOutput) : Channel × String :=
  if tool.target.isCustom then (.customInput, customInput parse tool.arguments)
  else (.functionArguments, tool.arguments)

def finishTool (tool : ToolOutput) : Convert Unit := do
  let (channel, text) := toolText parse tool
  when tool.target.isCustom (emitEvent (.delta channel tool.itemId tool.outputIndex text))
  emitEvent (.textDone channel tool.itemId tool.outputIndex text)
  let item := toolItem parse tool "completed" true
  emitEvent (.itemDone tool.outputIndex item)
  modify fun s => { s with output := s.output.insert tool.outputIndex item }

def finishTools : Convert Unit := do
  let tools := (← get).tools
  modify ({ · with tools := .empty })
  Emit.each (finishTool parse) tools.values

/-! ## Completion -/

/-- Why a response is incomplete, by its finish reason; some reasons are no reasons. -/
def incompleteReason (finishReason : String) : Except String (Option String) :=
  match finishReason with
  | "length" => .ok (some "max_output_tokens")
  | "content_filter" => .ok (some "content_filter")
  | "stop" | "tool_calls" | "function_call" => .ok none
  | reason =>
    .error ("Chat Completions upstream returned unsupported finish_reason " ++ reason)

/-- The last event of a response whose items are all done. -/
def completion (s : ChatEventConverter) (reason : Option String) : ResponsesEvent :=
  let output := .arr s.output.values
  let usage := s.usage.getD .null
  match reason with
  | some reason => .incomplete (response s "incomplete" output usage
      (.obj [("reason", .str reason)]))
  | none => .completed (response s "completed" output usage .null)

def complete : Convert Unit := do
  when (!(← get).terminal) do
    emitCreated
    let s ← get
    if s.tools.values.any (!·.started) then
      fail "Chat Completions upstream ended a tool call without both id and name"
    else
      match incompleteReason (s.finishReason.getD "stop") with
      | .error message => fail message
      | .ok reason =>
        finishReasoning
        finishText
        finishTools parse
        emitEvent (completion (← get) reason)
        modify ({ · with terminal := true })

/-! ## Chunks -/

def responsesUsage (usage : Json) : Json :=
  let input := (usage.count? "prompt_tokens").getD 0
  let output := (usage.count? "completion_tokens").getD 0
  let cached := ((usage.member? "prompt_tokens_details").bind (·.count? "cached_tokens")).getD 0
  let reasoning :=
    ((usage.member? "completion_tokens_details").bind (·.count? "reasoning_tokens")).getD 0
  .obj [("input_tokens", .int input), ("output_tokens", .int output),
    ("total_tokens", .int ((usage.count? "total_tokens").getD (min (input + output) maxU64))),
    ("input_tokens_details", .obj [("cached_tokens", .int cached)]),
    ("output_tokens_details", .obj [("reasoning_tokens", .int reasoning)])]

def responseError (error : Json) : ResponsesEvent :=
  let code := (error.text? "code").getD "upstream_error"
  .error code ((error.text? "message").getD code) ((error.member? "param").getD .null)

/-- The part of a text field that is not empty, if there is one. -/
def emitNonEmpty (value : Option Json) (emitDelta : String → Convert Unit) : Convert Unit :=
  withSome (value.bind nonEmptyText) emitDelta

def convertDelta (delta : Json) : Convert Unit := do
  emitNonEmpty ((delta.member? "reasoning_content").or (delta.member? "reasoning")) emitReasoning
  emitNonEmpty (delta.member? "content") emitText
  withSome ((delta.member? "tool_calls").bind Json.toArr) (Emit.each (emitToolDelta parse))

/-- Only the first choice is converted. -/
def isFirstChoice (choice : Json) : Bool := (choice.count? "index").getD 0 == 0

def convertChoice (choice : Json) : Convert Unit := do
  when (isFirstChoice choice) do
    emitCreated
    withSome ((choice.member? "delta").filter (·.toObj.isSome)) (convertDelta parse)
    withSome (choice.text? "finish_reason") fun reason =>
      modify ({ · with finishReason := some reason })

/-- The failure that some call of the chunk ran into. -/
def failPending : Convert Unit := do
  withSome (← get).failure fun message => do
    modify ({ · with failure := none })
    fail message

def chunkChoices (event : Json) : Option (List Json) := (event.member? "choices").bind Json.toArr

def convertChunk (event : Json) : Convert Unit := do
  withSome ((event.member? "usage").filter (·.toObj.isSome)) fun usage =>
    modify ({ · with usage := some (responsesUsage usage) })
  withSome (chunkChoices event) fun choices => do
    Emit.each (convertChoice parse) choices
    failPending

def chunkError (event : Json) : Option Json := (event.member? "error").filter (!·.isNull)

def convert (event : Json) : Convert Unit := do
  match chunkError event with
  | some error =>
    emitCreated
    emitEvent (responseError error)
    modify ({ · with terminal := true })
  | none =>
    match ← captureEnvelope event with
    | some message =>
      emitCreated
      fail message
    | none => convertChunk parse event

end

end ProviderCore.Protocol.OpenAiResponses
