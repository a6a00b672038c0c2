import ProviderCore.Grok.RequestTools
import ProviderCore.Lib.JsonCodec
import ProviderCore.Lib.JsonEdit

/-!
# Payloads of the Grok stream

What the stream restorer does to one event, as edits of its payload.  Reasoning is told as a
summary, and a call to a tool that the request had to rename or turn into a function is turned back
into what the client declared.
-/

namespace ProviderCore.Grok.Restore

open Json (Edit Members)

/-! ## Reasoning -/

def isReasoningText (part : Json) : Bool := part.text? "type" == some "reasoning_text"

def asSummaryText : Json → Json
  | .obj part => .obj (Members.insert part "type" (.str "summary_text"))
  | part => part

def normalizeSummaryIndex (payload : Members) : Members :=
  (match payload.get? "summary_index", payload.get? "content_index" with
  | none, some index => payload.insert "summary_index" index
  | _, _ => payload).remove "content_index"

def relabelSummaryPart : Edit Json := fun part =>
  if isReasoningText part then (asSummaryText part, true) else (part, false)

/-- Reasoning in an item's content becomes its summary. -/
def moveReasoningContent : Edit Members := fun item =>
  let parts := (((item.get? "content").bind Json.toArr).getD []).filter isReasoningText
  if parts.isEmpty then (item, false)
  else ((item.insert "summary" (.arr (parts.map asSummaryText))).remove "content", true)

def normalizeReasoningItem : Edit Json := .record fun item =>
  if item.text? "type" == some "reasoning" then
    Edit.andThen (.member "summary" (.items relabelSummaryPart)) moveReasoningContent item
  else (item, false)

/-- The part of a content event is reasoning. -/
def hasReasoningPart (payload : Members) : Bool :=
  (payload.get? "part").any isReasoningText

/-- An event about reasoning, under another name. -/
def renameReasoning (type : String) (payload : Members) : Members :=
  normalizeSummaryIndex (payload.insert "type" (.str type))

def renameReasoningPart (type : String) (payload : Members) : Members :=
  normalizeSummaryIndex
    (Members.update (payload.insert "type" (.str type)) "part" asSummaryText)

def normalizeReasoningType : Edit Members := fun payload =>
  match payload.text? "type" with
  | some "response.reasoning_text.delta" =>
    (renameReasoning "response.reasoning_summary_text.delta" payload, true)
  | some "response.content_part.added" =>
    if hasReasoningPart payload then
      (renameReasoningPart "response.reasoning_summary_part.added" payload, true)
    else (payload, false)
  | some "response.content_part.done" =>
    if hasReasoningPart payload then
      (renameReasoningPart "response.reasoning_summary_part.done" payload, true)
    else (payload, false)
  | _ => (payload, false)

def editOutput (f : Edit Json) : Edit Members :=
  .member "response" (.record (.member "output" (.items f)))

def normalizeReasoningPayload : Edit Members :=
  Edit.andThen normalizeReasoningType
    (Edit.andThen (.member "item" normalizeReasoningItem) (editOutput normalizeReasoningItem))

def normalizeReasoningTextDone (payload : Members) : Members :=
  renameReasoning "response.reasoning_summary_text.done" payload

def normalizeReasoningPartDone (payload : Members) : Members :=
  let payload := payload.insert "type" (.str "response.reasoning_summary_part.done")
  let part := Json.obj
    [("type", .str "summary_text"), ("text", .str ((payload.text? "text").getD ""))]
  normalizeSummaryIndex ((payload.insert "part" part).remove "text")

/-! ## Ends -/

def terminalTypes : List String :=
  ["response.completed", "response.done", "response.incomplete", "response.failed",
    "response.cancelled", "response.canceled"]

def isTerminalResponseEvent (type : String) : Bool := terminalTypes.contains type

/-! ## Tools -/

inductive ClientToolKind
  | custom
  | toolSearch
deriving DecidableEq

/-- A call to a tool that the client did not declare as a function. -/
structure ClientToolCall where
  kind : ClientToolKind
  upstreamName : String
  name : String
  ns : Option String
  callId : String
  itemId : String
  outputIndex : ℤ
  arguments : String
deriving DecidableEq

def isFunctionCallItem (item : Members) : Bool := item.text? "type" == some "function_call"

/-- The client's name and namespace. -/
def nameAs (reference : NamespaceToolRef) (item : Members) : Members :=
  (item.insert "name" (.str reference.name)).insert "namespace" (.str reference.ns)

def editCall (f : Edit Members) : Edit Json := .record fun item =>
  if isFunctionCallItem item then f item else (item, false)

section

variable (mappings : GrokToolMappings)

def restoreNamespaceToolItem : Edit Json := editCall fun item =>
  match (item.text? "name").bind (mappings.namespaceTools.lookup ·) with
  | some reference => (nameAs reference item, true)
  | none => (item, false)

def argumentsTypes : List String :=
  ["response.function_call_arguments.delta", "response.function_call_arguments.done"]

def restoreArgumentsName : Edit Members := fun payload =>
  if (payload.text? "type").any (argumentsTypes.contains ·) then
    match (payload.text? "name").bind (mappings.namespaceTools.lookup ·) with
    | some reference => (payload.insert "name" (.str reference.name), true)
    | none => (payload, false)
  else (payload, false)

def restoreNamespaceEvent : Edit Members :=
  Edit.andThen (.member "item" (restoreNamespaceToolItem mappings)) (restoreArgumentsName mappings)

def restoreCustomItemValue (input : String) : Edit Json := editCall (.always fun item =>
  (((item.insert "type" (.str "custom_tool_call")).insert "input" (.str input)).remove
    "arguments").remove "namespace")

def restoreCustomNamespace (upstreamName : String) : Edit Json :=
  match mappings.namespaceTools.lookup upstreamName with
  | some reference => .record (.always (nameAs reference))
  | none => .skip

variable (codec : JsonCodec)

/-- The arguments of a finished tool search are a record again. -/
def parseArguments (item : Members) : Members :=
  match (item.text? "arguments").bind codec.parseText with
  | some arguments => item.insert "arguments" arguments
  | none => item

/-- A tool search that has no arguments yet. -/
def fillArguments (item : Members) : Members :=
  if (item.text? "arguments").all (·.isEmpty) then item.insert "arguments" (.str "\x7b\x7d")
  else item

def restoreToolSearchItemValue (terminal : Bool) : Edit Json := editCall (.always fun item =>
  let item := ((item.insert "type" (.str "tool_search_call")).remove "name").remove "namespace"
  if terminal then parseArguments codec (item.insert "execution" (.str "client"))
  else fillArguments item)

def customToolInput (arguments : String) : String :=
  match (codec.parseText arguments).bind (Json.member? "input") with
  | some (.str value) => value
  | some .null => ""
  | some value => codec.render value
  | none => ""

def restoreToolItem : Edit Json := fun item =>
  let name := (item.text? "name").getD ""
  if mappings.customTools.contains name then
    Edit.andThen
      (restoreCustomItemValue (customToolInput codec ((item.text? "arguments").getD "")))
      (restoreCustomNamespace mappings name) item
  else if mappings.toolSearch && name == "tool_search" then
    restoreToolSearchItemValue codec true item
  else restoreNamespaceToolItem mappings item

def restoreTerminalToolPayload : Edit Members := editOutput (restoreToolItem mappings codec)

/-- The client's name of a custom tool, on an item that may be no call. -/
def nameClientTool (call : ClientToolCall) (item : Members) : Members :=
  let item := item.insert "name" (.str call.name)
  match call.ns with
  | some ns => item.insert "namespace" (.str ns)
  | none => item

def restoreClientToolItem (call : ClientToolCall) (input : String) : Edit Members :=
  .member "item" (match call.kind with
    | .custom => fun item =>
        let restored := restoreCustomItemValue input item
        ((Edit.record (.always (nameClientTool call)) restored.1).1, restored.2)
    | .toolSearch => restoreToolSearchItemValue codec false)

end

end ProviderCore.Grok.Restore
