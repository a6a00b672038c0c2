import ProviderCore.Grok.Replay
import ProviderCore.Grok.RequestTools

/-!
# Preparing a Grok request

What is sent to Grok is the client's body in Grok's terms: fields and item types that Grok does not
know are removed, converted or refused, and every tool output has to come with its call.  How JSON
is rendered and which texts pass for Grok's encrypted content are parameters.
-/

namespace ProviderCore.Grok

open Json (Members)
open ResponsesHistory (invalidRequest itemCallId)

def unsupportedFields : List String :=
  ["previous_response_id", "prompt_cache_retention", "safety_identifier", "stream_options"]

def removeAll (body : Members) (fields : List String) : Members := fields.foldl (·.remove ·) body

/-! ## Model fields -/

def asciiLower (s : String) : String := .ofList (s.toList.map Char.toLower)

/-- The part of a model name after its last slash. -/
def normalizedModelName (model : String) : String :=
  let name := Text.trim model
  match Text.splitOnce '/' name.toList.reverse with
  | some (last, _) => Text.trim (.ofList last.reverse)
  | none => name

def effortModels : List String :=
  [ "grok-4.5", "grok-4.5-latest", "grok-4.6", "grok-4.6-latest", "grok-4.3", "grok-4.3-latest",
    "grok-3-mini", "grok-3-mini-fast", "grok-4.20-0309-reasoning", "grok-4.20-reasoning",
    "grok-4.20-multi-agent-0309" ]

def normalizedReasoningEffortValue (value : Json) : Option String := do
  let value := (asciiLower (Text.trim (← value.toStr))).toList
  let compact := String.ofList (value.filter fun c => !(['-', '_', ' '].contains c))
  [ ("none", "none"), ("low", "low"), ("medium", "medium"), ("high", "high"), ("minimal", "low"),
    ("xhigh", "high"), ("extrahigh", "high"), ("max", "high"), ("ultra", "high") ].lookup compact

/-- An effort that the model takes. -/
def supportedEffort (model : String) (value : Option Json) : Option String :=
  if effortModels.contains (asciiLower model) then value.bind normalizedReasoningEffortValue
  else none

/-- The effort within the reasoning record; an empty record goes. -/
def normalizeReasoningRecord (body : Members) (model : String) : Members :=
  match (body.get? "reasoning").bind Json.toObj with
  | some reasoning =>
    let rest := reasoning.remove "effort"
    let reasoning := match supportedEffort model (reasoning.get? "effort") with
      | some effort => rest.insert "effort" (.str effort)
      | none => rest
    if reasoning.isEmpty then body.remove "reasoning"
    else body.insert "reasoning" (.obj reasoning)
  | none => body

def normalizeReasoningEffort (body : Members) (model : String) : Members :=
  let body := normalizeReasoningRecord body model
  let without := (body.remove "reasoning_effort").remove "reasoningEffort"
  match (supportedEffort model (body.get? "reasoning_effort")).or
      (supportedEffort model (body.get? "reasoningEffort")) with
  | some effort => without.insert "reasoning_effort" (.str effort)
  | none => without

def normalizeModelFields (body : Members) (model : String) : Members :=
  let model := asciiLower (normalizedModelName model)
  let body := if model == "grok-4.5" then
    removeAll body ["stop", "presence_penalty", "presencePenalty", "frequency_penalty",
      "frequencyPenalty"] else body
  let body := if (Text.afterStart "grok-4.20".toList model.toList).isSome then
    removeAll body ["logprobs", "top_logprobs"] else body
  normalizeReasoningEffort body model

/-! ## Reasoning items -/

section

variable (isGrokEncryptedContent : String → Bool)

/-- A reasoning or compaction item with content that Grok can read, or what is left of it. -/
def normalizeReasoningItem (item : Json) : Option Json :=
  match item.toObj with
  | none => some item
  | some members =>
    let isReasoning := members.text? "type" == some "reasoning"
    let isCompaction := (members.text? "type").any (["compaction", "compaction_summary"].contains ·)
    if !isReasoning && !isCompaction then some item
    else
      let members := if isReasoning then members.remove "status" else members
      let members := if isReasoning && (members.get? "content").any Json.isNull then
        members.remove "content" else members
      match members.get? "encrypted_content" with
      | none => some (.obj members)
      | some content =>
        if content.toStr.any isGrokEncryptedContent then some (.obj members)
        else if !isReasoning then none
        else
          let nonEmpty (field : String) : Bool :=
            ((members.get? field).bind Json.toArr).any (!·.isEmpty)
          if nonEmpty "summary" || nonEmpty "content" then
            some (.obj (members.remove "encrypted_content"))
          else none

def normalizeReasoning (body : Members) : Members :=
  match body.get? "input" with
  | some (.arr input) =>
    body.insert "input" (.arr (input.filterMap (normalizeReasoningItem isGrokEncryptedContent)))
  | _ => body

end

/-! ## Checks -/

def supportedItemTypes : List String :=
  [ "message", "function_call", "function_call_output", "reasoning", "compaction",
    "compaction_summary" ]

def checkInputItemType (item : Json) : Except ProviderError Unit :=
  match item.toObj with
  | none => .error (invalidRequest "Grok input items must be JSON objects")
  | some members =>
    match (members.text? "type").map Text.trim with
    | none =>
      if ((members.text? "role").bind Text.trimmed?).isSome then .ok ()
      else .error (invalidRequest "Grok input items require a supported type or role")
    | some type =>
      if supportedItemTypes.contains type then .ok ()
      else .error (invalidRequest
        ("Grok HTTP Responses does not support input item type `" ++ type ++ "`"))

def rejectUnknownInputItemTypes (body : Members) : Except ProviderError Unit :=
  match body.get? "input" with
  | some (.arr input) => input.forM checkInputItemType
  | _ => .ok ()

def isFunctionCall (item : Json) : Bool := itemType item == some "function_call"

def isFunctionCallOutput (item : Json) : Bool := itemType item == some "function_call_output"

/-- The id by which an item of the input is paired. -/
def pairingId (item : Json) : Option String := item.toObj.bind itemCallId

def checkToolOutput (contextIds : List String) (item : Json) : Except ProviderError Unit :=
  if isFunctionCallOutput item then
    match pairingId item with
    | none => .error (invalidRequest "Grok tool output requires a non-empty call_id")
    | some callId =>
      if contextIds.contains callId then .ok ()
      else .error (invalidRequest ("Grok tool output requires matching tool call context in " ++
        "input; previous_response_id-only continuation is unsupported"))
  else .ok ()

def validateToolOutputContext (body : Members) : Except ProviderError Unit :=
  match body.get? "input" with
  | some (.arr input) =>
    input.forM (checkToolOutput ((input.filter isFunctionCall).filterMap pairingId))
  | _ => .ok ()

/-! ## The request -/

structure PreparedGrokRequest where
  payload : Json
  model : String
  metadata : RequestMetadata
  toolMappings : GrokToolMappings

def hasPreviousResponse (request : ProviderRequest) (body : Members) : Bool :=
  request.metadata.previousResponseId.isSome ||
    ((body.text? "previous_response_id").bind Text.trimmed?).isSome

def sessionOf (metadata : RequestMetadata) (body : Members) : Option String :=
  ((metadata.routingSessionId.bind Text.trimmed?).or (metadata.sessionId.bind Text.trimmed?)).or
    ((body.text? "prompt_cache_key").bind Text.trimmed?)

section

variable (render : Json → String) (isGrokEncryptedContent : String → Bool)

/-- The body in Grok's terms. -/
def prepareBody (body : Members) (model : String) :
    Except ProviderError (Members × GrokToolMappings) := do
  let body := (body.insert "model" (.str model)).insert "stream" (.bool true)
  let body := normalizeModelFields (removeAll body unsupportedFields) model
  let (body, toolMappings) ← normalizeTools (promoteAdditionalTools body)
  let body := normalizeInputNamespaceCalls body
  ResponsesHistory.rejectUnresolvedItemReferences body "Grok"
  let body ← ResponsesHistory.normalizeInput render "Grok" body
  let body := normalizeReasoning isGrokEncryptedContent body
  rejectUnknownInputItemTypes body
  validateToolOutputContext body
  return (body, toolMappings)

def prepareRequest (request : ProviderRequest) : Except ProviderError PreparedGrokRequest := do
  if request.format ≠ .openAiResponses then
    .error (invalidRequest "Grok driver requires the OpenAI Responses format")
  else
    match Text.trimmed? request.model with
    | none => .error (invalidRequest "model must not be empty")
    | some model => do
        let body ← requestBody request
        if hasPreviousResponse request body then
          .error (invalidRequest ("Grok HTTP Responses requires complete input history and does " ++
            "not support previous_response_id"))
        else
          let (body, toolMappings) ← prepareBody render isGrokEncryptedContent body model
          let sessionId := sessionOf request.metadata body
          let body := match sessionId with
            | some sessionId => body.insert "prompt_cache_key" (.str sessionId)
            | none => body
          return ⟨.obj body, model, { request.metadata with sessionId }, toolMappings⟩

end

end ProviderCore.Grok
