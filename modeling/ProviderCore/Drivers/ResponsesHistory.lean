import ProviderCore.Proxy.Provider

/-!
# Responses history items

The drivers that speak to an upstream without the Responses item types send a history of messages,
function calls and function call outputs only.  `normalizeInputItem` turns one item into such an
item, drops it, or refuses the request.  How a JSON value is rendered is a parameter.
-/

namespace ProviderCore.ResponsesHistory

open Json (Members)

def invalidRequest (message : String) : ProviderError := ⟨.invalidRequest, message, none⟩

/-! ## Refused items -/

def rejectUnresolvedItemReferences (body : Members) (provider : String) :
    Except ProviderError Unit :=
  match body.get? "input" with
  | some (.arr input) =>
    if input.any fun item => item.text? "type" == some "item_reference" then
      .error (invalidRequest (provider ++ " continuation state is unavailable to resolve " ++
        "item_reference; resend complete input history"))
    else .ok ()
  | _ => .ok ()

def unsupportedHistoryItem (provider type : String) : ProviderError :=
  invalidRequest (provider ++ " cannot safely replay Responses history item type `" ++ type ++ "`")

section

variable (item : Members)

/-- Refuse a call that carries its own result. -/
def rejectHostedToolResults (provider : String) (resultFields : List String) :
    Except ProviderError Unit :=
  match resultFields.find? fun field => (item.get? field).any fun value => !value.isNull with
  | some field =>
    .error (invalidRequest (provider ++ " cannot preserve `" ++ field ++
      "` result semantics from `" ++ (item.text? "type").getD "hosted_tool_call" ++ "` history"))
  | none => .ok ()

/-! ## Reading items -/

def nonEmptyField (field : String) : Bool :=
  ((item.text? field).bind Text.trimmed?).isSome

/-- The id by which a call and its output find each other. -/
def itemCallId : Option String :=
  ((item.text? "call_id").bind Text.trimmed?).or ((item.text? "id").bind Text.trimmed?)

/-- Take the item's id for a missing call id. -/
def ensureCallId : Option Members :=
  if nonEmptyField item "call_id" then some item
  else ((item.text? "id").bind Text.trimmed?).map fun callId => item.insert "call_id" (.str callId)

def stripInternalItemFields : Members :=
  ((item.remove "phase").remove "encrypted_function_args").remove
    "internal_chat_message_metadata_passthrough"

end

/-! ## Rebuilt items -/

inductive HostedCallArgs
  | action
  | actionOrRest
deriving DecidableEq

section

variable (render : Json → String) (item : Members)

def jsonObjectString : Json → String
  | .str value => value
  | .null => "\x7b\x7d"
  | value => render value

def customToolOutput : Json → String
  | .str text => text
  | .null => ""
  | value => render value

def customToolArguments (input : Json) : String :=
  render (.obj [("input", .str (customToolOutput render input))])

def functionCall (callId name arguments : Json) : Json :=
  .obj [("type", .str "function_call"), ("call_id", callId), ("name", name),
    ("arguments", arguments)]

def rebuildFunctionCall (name : String) (arguments : Json) : Json :=
  functionCall (item.getNull "call_id") (.str name) (.str (jsonObjectString render arguments))

def rebuildFunctionOutput (output : String) : Json :=
  .obj [("type", .str "function_call_output"), ("call_id", item.getNull "call_id"),
    ("output", .str output)]

/-- What is left of a hosted call as its arguments. -/
def restArguments : Json :=
  .obj (item.filter fun member =>
    !(["type", "id", "call_id", "status", "name", "arguments"].contains member.1))

def convertHostedToolCall (name : String) (args : HostedCallArgs) : Option Json :=
  (ensureCallId item).map fun item =>
    rebuildFunctionCall render item name (match args with
      | .action => item.getNull "action"
      | .actionOrRest => (item.get? "action").getD (restArguments item))

def convertHostedToolOutput : Option Json :=
  (ensureCallId item).map fun item =>
    rebuildFunctionOutput item (customToolOutput render (item.getNull "output"))

end

/-! ## Agent messages -/

/-- One part of an agent message; an encrypted part without content is left out. -/
def normalizeAgentPart (provider : String) (part : Json) : Except ProviderError (Option Json) :=
  match part.toObj with
  | none => .error (invalidRequest (provider ++ " agent_message content items must be objects"))
  | some members =>
    match members.text? "type" with
    | some "input_text" =>
      if (members.text? "text").isSome then .ok (some part)
      else .error (invalidRequest (provider ++ " agent_message text must be a string"))
    | some "encrypted_content" =>
      match members.text? "encrypted_content" with
      | some text =>
        .ok (some (.obj (((members.insert "type" (.str "input_text")).insert "text"
          (.str text)).remove "encrypted_content")))
      | none =>
        if (members.get? "text").any Json.isNull then .ok none
        else .error (invalidRequest
          (provider ++ " agent_message encrypted_content must be a string"))
    | some type =>
      .error (invalidRequest
        (provider ++ " cannot replay agent_message content type `" ++ type ++ "`"))
    | none => .error (invalidRequest (provider ++ " agent_message content requires a type"))

def normalizeAgentMessage (provider : String) (item : Members) :
    Except ProviderError (Option Json) :=
  match (item.get? "content").bind Json.toArr with
  | none => .error (invalidRequest (provider ++ " agent_message requires content items"))
  | some content => do
      let parts ← content.mapM (normalizeAgentPart provider)
      let content := parts.filterMap id
      if content.isEmpty then return none
      else return some (.obj (((item.insert "content" (.arr content)).insert "type"
        (.str "message")).insert "role" (.str "user")))

/-! ## One item -/

/-- The item types that do not pass as they are. -/
inductive HistoryKind
  | compactionTrigger
  | agentMessage
  | customToolCall
  | customToolCallOutput
  | toolSearchCall
  | toolSearchOutput
  | applyPatchCall
  | applyPatchCallOutput
  | program
  | programOutput
  | webSearchCall
  | fileSearchCall
  | computerCall
  | hostedOutput
  | codeInterpreterCall
  | imageGenerationCall
  | shellCall
  | mcpToolCall
  | mcpToolCallOutput
  | unsupported
deriving DecidableEq

def historyKind (type : String) : Option HistoryKind :=
  [ ("compaction_trigger", HistoryKind.compactionTrigger), ("agent_message", .agentMessage),
    ("custom_tool_call", .customToolCall), ("custom_tool_call_output", .customToolCallOutput),
    ("tool_search_call", .toolSearchCall), ("tool_search_output", .toolSearchOutput),
    ("apply_patch_call", .applyPatchCall), ("apply_patch_call_output", .applyPatchCallOutput),
    ("program", .program), ("program_output", .programOutput),
    ("web_search_call", .webSearchCall), ("file_search_call", .fileSearchCall),
    ("computer_call", .computerCall), ("computer_call_output", .hostedOutput),
    ("code_interpreter_call", .codeInterpreterCall),
    ("code_interpreter_call_output", .hostedOutput),
    ("image_generation_call", .imageGenerationCall), ("local_shell_call", .shellCall),
    ("shell_call", .shellCall), ("local_shell_call_output", .hostedOutput),
    ("shell_call_output", .hostedOutput), ("mcp_tool_call", .mcpToolCall),
    ("mcp_tool_call_output", .mcpToolCallOutput), ("mcp_call", .unsupported),
    ("mcp_list_tools", .unsupported), ("mcp_approval_request", .unsupported),
    ("mcp_approval_response", .unsupported), ("context_compaction", .unsupported) ].lookup type

section

variable (render : Json → String) (provider : String) (item : Members)

/-- The output of a call that has an id, and nothing otherwise. -/
def outputWithCallId (output : String) : Option Json :=
  if nonEmptyField item "call_id" then some (rebuildFunctionOutput item output) else none

def callWithCallId (name : String) (arguments : Json) : Option Json :=
  if nonEmptyField item "call_id" then some (rebuildFunctionCall render item name arguments)
  else none

def required (message : String) : Option Json → Except ProviderError (Option Json)
  | some item => .ok (some item)
  | none => .error (invalidRequest (provider ++ message))

def normalizeKind (type : String) : HistoryKind → Except ProviderError (Option Json)
  | .compactionTrigger => .ok none
  | .agentMessage => normalizeAgentMessage provider item
  | .customToolCall =>
    if !nonEmptyField item "call_id" || !nonEmptyField item "name" then .ok none
    else .ok (some (functionCall (item.getNull "call_id") (item.getNull "name")
      (.str (customToolArguments render (item.getNull "input")))))
  | .customToolCallOutput =>
    .ok (outputWithCallId item (customToolOutput render (item.getNull "output")))
  | .toolSearchCall =>
    required provider " cannot safely replay tool_search_call without a call_id"
      (callWithCallId render item "tool_search" (item.getNull "arguments"))
  | .toolSearchOutput =>
    required provider " cannot safely replay tool_search_output without a call_id"
      (outputWithCallId item (customToolOutput render ((item.get? "tools").getD (.arr []))))
  | .applyPatchCall =>
    .ok (callWithCallId render item "apply_patch" (item.getNull "operation"))
  | .applyPatchCallOutput =>
    .ok (outputWithCallId item (render (.obj [("output", item.getNull "output"),
      ("status", item.getNull "status")])))
  | .program =>
    .ok (callWithCallId render item "program" (.obj [("code", item.getNull "code"),
      ("fingerprint", item.getNull "fingerprint")]))
  | .programOutput =>
    .ok (outputWithCallId item (render (.obj [("result", item.getNull "result"),
      ("status", item.getNull "status")])))
  | .webSearchCall => .ok (convertHostedToolCall render item "web_search" .action)
  | .fileSearchCall => do
      rejectHostedToolResults item provider ["results"]
      return convertHostedToolCall render item "file_search" .actionOrRest
  | .computerCall => .ok (convertHostedToolCall render item "computer" .action)
  | .hostedOutput => .ok (convertHostedToolOutput render item)
  | .codeInterpreterCall => do
      rejectHostedToolResults item provider ["outputs"]
      return convertHostedToolCall render item "code_interpreter" .actionOrRest
  | .imageGenerationCall => do
      rejectHostedToolResults item provider ["result"]
      return convertHostedToolCall render item "image_generation" .actionOrRest
  | .shellCall => .ok (convertHostedToolCall render item "local_shell" .action)
  | .mcpToolCall =>
    required provider " replayed mcp_tool_call requires call_id and name"
      ((ensureCallId item).bind fun item =>
        if nonEmptyField item "name" then
          some (rebuildFunctionCall render item ((item.text? "name").getD "")
            (item.getNull "arguments"))
        else none)
  | .mcpToolCallOutput =>
    required provider " replayed mcp_tool_call_output requires a call_id"
      (outputWithCallId item (customToolOutput render (item.getNull "output")))
  | .unsupported => .error (unsupportedHistoryItem provider type)

/-- The item that is sent in an item's place, if any. -/
def normalizeInputItem (item : Json) : Except ProviderError (Option Json) :=
  match item.toObj with
  | none => .ok (some item)
  | some members =>
    match members.text? "type" with
    | none => .ok (some (.obj (stripInternalItemFields members)))
    | some type =>
      match historyKind type with
      | some kind => normalizeKind render provider members type kind
      | none => .ok (some (.obj (stripInternalItemFields members)))

def normalizeInput (body : Members) : Except ProviderError Members :=
  match body.get? "input" with
  | some (.arr input) => do
      let items ← input.mapM (normalizeInputItem render provider)
      return body.insert "input" (.arr (items.filterMap id))
  | _ => .ok body

end

end ProviderCore.ResponsesHistory
