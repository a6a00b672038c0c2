import ProviderCore.Lib.Emit
import ProviderCore.Protocol.ResponsesEvents

/-!
# From Gemini parts to Responses events

A message and a reasoning are opened by the parts that need them and closed by the parts that do
not; calls, images and the carriers of signatures are added and done at once.  A part can be a text,
a call and an image at the same time, in this order.

Outside the model: how JSON is parsed and rendered, base64, and how an upstream error is classified
(`Codec`).  Numbers count without bound.
-/

namespace ProviderCore.Antigravity

open Emit (emit when withSome)
open Protocol (NumberedEvent ResponsesEvent)

structure Codec where
  parse : Bytes → Option Json
  render : Json → String
  /-- The text behind a base64 text. -/
  decode : String → Option String
  encode : String → String
  streamError : Json → ProviderError

structure ToolIdentity where
  name : String
  ns : Option String := none
  custom : Bool := false
deriving DecidableEq

structure MessageState where
  id : String
  outputIndex : ℕ
  text : String
  annotations : List Json

structure ReasoningState where
  id : String
  outputIndex : ℕ
  text : String
  signature : String
deriving DecidableEq

structure ResponseState where
  model : String
  targetClaude : Bool
  toolIdentities : List (String × ToolIdentity)
  responseId : String
  started : Bool := false
  completed : Bool := false
  sequence : ℕ := 0
  nextOutputIndex : ℕ := 0
  message : Option MessageState := none
  reasoning : Option ReasoningState := none
  usage : Option Json := none
  output : List Json := []
  seenSignatures : List String := []
  lastReasoningSignature : Option String := none
  annotations : List Json := []

abbrev Convert := Emit ResponseState NumberedEvent

/-! ## Formats -/

section

variable (codec : Codec)

def isBlank (s : String) : Bool := (Text.trim s).isEmpty

def maxU64 : ℕ := 18446744073709551615

/-- Addition of counts, which stops at the largest. -/
def saturatingAdd (a b : ℕ) : ℕ := min (a + b) maxU64

def convertUsage (value : Json) : Json :=
  let input := (value.count? "promptTokenCount").getD 0
  let output := (value.count? "candidatesTokenCount").getD 0
  let reasoning := (value.count? "thoughtsTokenCount").getD 0
  let cached := (value.count? "cachedContentTokenCount").getD 0
  let total := (value.count? "totalTokenCount").getD
    (saturatingAdd (saturatingAdd input output) reasoning)
  .obj [("input_tokens", .int input), ("output_tokens", .int (saturatingAdd output reasoning)),
    ("total_tokens", .int total),
    ("input_tokens_details", .obj [("cached_tokens", .int cached)]),
    ("output_tokens_details", .obj [("reasoning_tokens", .int reasoning)])]

def normalizeResponseId (value : String) : String :=
  if "resp_".toList <+: value.toList then value else "resp_" ++ value

/-- A Claude signature is taken out of its base64 wrapping. -/
def formatResponseSignature (signature : String) (targetClaude : Bool) : String :=
  if !targetClaude || signature.toList.head? ≠ some 'R' then signature
  else ((codec.decode signature).filter (·.toList.head? == some 'E')).getD signature

def encodeReasoningCarrier (signature direction target : String) : String :=
  "cpa-gemini-responses-carrier-v1:" ++ direction ++ ":" ++ target ++ ":" ++ codec.encode signature

def customToolInput (value : Json) : String :=
  match value.member? "input" with
  | none => codec.render value
  | some input => input.toStr.getD (codec.render input)

def upper (s : String) : String := .ofList (s.toList.map Char.toUpper)

def incompleteReason (finishReason : String) : Option String :=
  match upper (Text.trim finishReason) with
  | "STOP" | "TOOL_CALLS" => none
  | "MAX_TOKENS" | "MAX_OUTPUT_TOKENS" | "LENGTH" => some "max_output_tokens"
  | "SAFETY" | "BLOCKLIST" | "PROHIBITED_CONTENT" | "RECITATION" | "SPII" | "IMAGE_SAFETY"
  | "IMAGE_PROHIBITED_CONTENT" | "IMAGE_RECITATION" | "MODEL_ARMOR" => some "content_filter"
  | "MALFORMED_FUNCTION_CALL" | "UNEXPECTED_TOOL_CALL" => some "tool_error"
  | _ => some "other"

end

/-! ## Items -/

def emitEvent (event : ResponsesEvent) : Convert Unit := do
  let sequence := (← get).sequence
  modify ({ · with sequence := sequence + 1 })
  emit ⟨sequence, event⟩

def takeOutputIndex : Convert ℕ := do
  let index := (← get).nextOutputIndex
  modify ({ · with nextOutputIndex := index + 1 })
  return index

def doneItem (index : ℕ) (item : Json) : Convert Unit := do
  emitEvent (.itemDone index item)
  modify fun s => { s with output := s.output ++ [item] }

def startedResponse (s : ResponseState) : Json :=
  .obj [("id", .str s.responseId), ("object", .str "response"), ("status", .str "in_progress"),
    ("model", .str s.model), ("output", .arr []), ("created_at", .int 0)]

def start : Convert Unit := do
  when (!(← get).started) do
    modify ({ · with started := true })
    emitEvent (.created (startedResponse (← get)))
    emitEvent (.inProgress (startedResponse (← get)))

def itemId (kind : String) (index : ℕ) (s : ResponseState) : String :=
  kind ++ "_" ++ s.responseId ++ "_" ++ toString index

section

def messageItem (id status : String) (content : List Json) : Json :=
  .obj [("id", .str id), ("type", .str "message"), ("status", .str status),
    ("role", .str "assistant"), ("content", .arr content)]

def outputText (text : String) (annotations : List Json) : Json :=
  .obj [("type", .str "output_text"), ("text", .str text), ("annotations", .arr annotations)]

def openMessage : Convert Unit := do
  when (← get).message.isNone do
    let outputIndex ← takeOutputIndex
    let id := itemId "msg" outputIndex (← get)
    emitEvent (.itemAdded outputIndex (messageItem id "in_progress" []))
    emitEvent (.partAdded .content id outputIndex (outputText "" []))
    modify fun s => { s with
      message := some { id, outputIndex, text := "", annotations := s.annotations }
      annotations := [] }

def closeMessage : Convert Unit := do
  withSome (← get).message fun message => do
    modify ({ · with message := none })
    emitEvent (.textDone .outputText message.id message.outputIndex message.text)
    emitEvent (.partDone .content message.id message.outputIndex (outputText message.text []))
    doneItem message.outputIndex
      (messageItem message.id "completed" [outputText message.text message.annotations])

def reasoningItem (id status encryptedContent : String) (summary : List Json) : Json :=
  .obj [("id", .str id), ("type", .str "reasoning"), ("status", .str status),
    ("encrypted_content", .str encryptedContent), ("summary", .arr summary)]

def summaryText (text : String) : Json := .obj [("type", .str "summary_text"), ("text", .str text)]

variable (codec : Codec)

def openReasoning (signature : String) : Convert Unit := do
  when (← get).reasoning.isNone do
    let signature := formatResponseSignature codec signature (← get).targetClaude
    let outputIndex ← takeOutputIndex
    let id := itemId "rs" outputIndex (← get)
    emitEvent (.itemAdded outputIndex (reasoningItem id "in_progress" signature []))
    emitEvent (.partAdded .reasoningSummary id outputIndex (summaryText ""))
    modify ({ · with reasoning := some { id, outputIndex, text := "", signature } })

def closeReasoning : Convert Unit := do
  withSome (← get).reasoning fun reasoning => do
    modify ({ · with reasoning := none })
    emitEvent (.textDone .reasoningSummary reasoning.id reasoning.outputIndex reasoning.text)
    emitEvent (.partDone .reasoningSummary reasoning.id reasoning.outputIndex
      (summaryText reasoning.text))
    doneItem reasoning.outputIndex
      (reasoningItem reasoning.id "completed" reasoning.signature [summaryText reasoning.text])
    modify ({ · with
      lastReasoningSignature := if reasoning.signature.isEmpty then none
        else some reasoning.signature })

/-- An item that has nothing but a signature. -/
def emitReasoningCarrier (signature direction target : String) : Convert Unit := do
  let outputIndex ← takeOutputIndex
  let s ← get
  let id := "rs_" ++ s.responseId ++ "_detached_" ++ toString outputIndex
  let carrierSignature := formatResponseSignature codec signature s.targetClaude
  let carrier := if s.targetClaude then carrierSignature
    else encodeReasoningCarrier codec carrierSignature direction target
  emitEvent (.itemAdded outputIndex (reasoningItem id "in_progress" carrier []))
  doneItem outputIndex (reasoningItem id "completed" carrier [])

def imageItem (id status outputFormat : String) (result : List (String × Json)) : Json :=
  .obj ([("id", .str id), ("type", .str "image_generation_call"), ("status", .str status),
    ("output_format", .str outputFormat)] ++ result)

def processInlineData (data : Json) : Convert Unit := do
  closeReasoning
  closeMessage
  let outputIndex ← takeOutputIndex
  let id := itemId "ig" outputIndex (← get)
  let mimeType := (((data.member? "mimeType").or (data.member? "mime_type")).bind
    fun value => value.toStr.filter (!isBlank ·)).getD "image/png"
  let outputFormat := ((Text.splitOnce '/' mimeType.toList).map fun parts =>
    String.ofList parts.2).getD "png"
  let encoded := (data.text? "data").getD ""
  emitEvent (.itemAdded outputIndex (imageItem id "in_progress" outputFormat []))
  when (!encoded.isEmpty) (emitEvent (.partialImage id outputIndex outputFormat encoded))
  doneItem outputIndex (imageItem id "completed" outputFormat [("result", .str encoded)])

end

/-! ## Parts -/

section

variable (codec : Codec) (part : Json)

def partSignature : Option String :=
  ((part.member? "thoughtSignature").or (part.member? "thought_signature")).bind Json.toStr

/-- Remember a signature.  The result says whether it is new. -/
def seeSignature (signature : String) : Convert Bool := do
  if (← get).seenSignatures.contains signature then return false
  else
    modify fun s => { s with seenSignatures := signature :: s.seenSignatures }
    return true

def reasoningDelta (text : String) : Convert Unit := do
  modify fun s => { s with reasoning := s.reasoning.map fun reasoning =>
    { reasoning with text := reasoning.text ++ text } }
  let reasoning := (← get).reasoning
  emitEvent (.delta .reasoningSummary ((reasoning.map (·.id)).getD "")
    ((reasoning.map (·.outputIndex)).getD 0) text)

def messageDelta (text : String) : Convert Unit := do
  modify fun s => { s with
    message := s.message.map fun message => { message with text := message.text ++ text } }
  let message := (← get).message
  emitEvent (.delta .outputText ((message.map (·.id)).getD "")
    ((message.map (·.outputIndex)).getD 0) text)

def processThought (text : String) : Convert Unit := do
  closeMessage
  let signature := (partSignature part).getD ""
  when (!signature.isEmpty) (do let _ ← seeSignature signature)
  when ((← get).reasoning.any (·.signature != signature)) closeReasoning
  openReasoning codec signature
  when (!text.isEmpty) (reasoningDelta text)

def processText (text : String) : Convert Unit := do
  withSome ((partSignature part).filter (!isBlank ·)) fun signature => do
    when (← seeSignature signature) do
      closeMessage
      emitReasoningCarrier codec signature "next" "text"
  closeReasoning
  modify ({ · with lastReasoningSignature := none })
  openMessage
  when (!text.isEmpty) (messageDelta text)

/-- The signature of a call: its own, or that of the reasoning before it. -/
def callSignature : Convert (Option String) := do
  match (partSignature part).filter (!isBlank ·) with
  | some signature => return some signature
  | none =>
    let signature := (← get).lastReasoningSignature
    modify ({ · with lastReasoningSignature := none })
    return signature

/-- A call as the client sees it. -/
structure Call where
  identity : ToolIdentity
  itemId : String
  callId : String
  signature : Option String

def Call.type (call : Call) : String :=
  if call.identity.custom then "custom_tool_call" else "function_call"

def Call.item (call : Call) (status text : String) : Json :=
  .obj ([("id", .str call.itemId), ("type", .str call.type), ("status", .str status),
      ("call_id", .str call.callId), ("name", .str call.identity.name),
      (if call.identity.custom then "input" else "arguments", .str text)] ++
    (call.identity.ns.map fun ns => ("namespace", Json.str ns)).toList ++
    (call.signature.map fun signature => ("signature", Json.str signature)).toList)

/-- The text of a call: its arguments, `{}` if it has none, or the input of a custom tool. -/
def callText (custom : Bool) (functionCall : Json) : String :=
  if custom then customToolInput codec ((functionCall.member? "args").getD .null)
  else ((functionCall.member? "args").map codec.render).getD "\x7b\x7d"

/-- The signature of a call is carried by an item of its own, once. -/
def carryCallSignature (fromPreviousReasoning : Bool) (signature : String) : Convert Unit := do
  let isNew ← rememberUnless fromPreviousReasoning signature
  when (isNew && !(← get).targetClaude) (emitReasoningCarrier codec signature "next" "function")
where
  rememberUnless (known : Bool) (signature : String) : Convert Bool :=
    if known then pure true else seeSignature signature

/-- The call that a function call of the upstream becomes. -/
def toCall (s : ResponseState) (functionCall : Json) (signature : Option String)
    (outputIndex : ℕ) : Call :=
  let upstreamName := (functionCall.text? "name").getD "function"
  let identity := (s.toolIdentities.lookup upstreamName).getD { name := upstreamName }
  { identity
    itemId := itemId (if identity.custom then "ctc" else "fc") outputIndex s
    callId := ((functionCall.text? "id").filter (!isBlank ·)).getD ("call_" ++ toString outputIndex)
    signature := signature.map fun signature =>
      formatResponseSignature codec signature s.targetClaude }

def emitCall (call : Call) (outputIndex : ℕ) (text : String) : Convert Unit := do
  emitEvent (.itemAdded outputIndex
    (call.item "in_progress" (if call.identity.custom then text else "")))
  when (!call.identity.custom)
    (emitEvent (.delta .functionArguments call.itemId outputIndex text))
  emitEvent (.textDone (if call.identity.custom then .customInput else .functionArguments)
    call.itemId outputIndex text)
  doneItem outputIndex (call.item "completed" text)

def processFunctionCall (functionCall : Json) : Convert Unit := do
  closeReasoning
  closeMessage
  let fromPreviousReasoning := (partSignature part).isNone && (← get).lastReasoningSignature.isSome
  let signature ← callSignature part
  withSome signature (carryCallSignature codec fromPreviousReasoning)
  let outputIndex ← takeOutputIndex
  let call := toCall codec (← get) functionCall signature outputIndex
  emitCall call outputIndex (callText codec call.identity.custom functionCall)

def processPart : Convert Unit := do
  withSome (part.text? "text") fun text =>
    if ((part.member? "thought").bind Json.toBool).getD false then processThought codec part text
    else processText codec part text
  withSome ((part.member? "functionCall").filter (·.toObj.isSome)) (processFunctionCall codec part)
  withSome ((part.member? "inlineData").or (part.member? "inline_data")) processInlineData

end

/-! ## Payloads -/

section

def groundingAnnotation (chunk : Json) : Option Json :=
  match ((chunk.member? "web").filter (·.toObj.isSome)) with
  | none => none
  | some web =>
    ((web.text? "uri").filter (!isBlank ·)).map fun url =>
      .obj [("type", .str "url_citation"), ("url", .str url),
        ("title", .str ((web.text? "title").getD url)), ("start_index", .int 0),
        ("end_index", .int 0)]

def captureGrounding (metadata : Option Json) : Convert Unit :=
  withSome ((metadata.bind (·.member? "groundingChunks")).bind Json.toArr) fun chunks =>
    modify fun s => { s with annotations := s.annotations ++ chunks.filterMap groundingAnnotation }

/-- The last event of a response that came to its end. -/
def completion (s : ResponseState) (reason : Option String) : ResponsesEvent :=
  let fields (status : String) (details : List (String × Json)) : Json :=
    .obj ([("id", .str s.responseId), ("object", .str "response"), ("status", .str status),
      ("model", .str s.model), ("output", .arr s.output)] ++ details ++
      (s.usage.map fun usage => ("usage", usage)).toList)
  match reason with
  | some reason =>
    .incomplete (fields "incomplete" [("incomplete_details", .obj [("reason", .str reason)])])
  | none => .completed (fields "completed" [])

def complete (finishReason : String) : Convert Unit := do
  when (!(← get).completed) do
    start
    closeReasoning
    closeMessage
    emitEvent (completion (← get) (incompleteReason finishReason))
    modify ({ · with completed := true })

def failedResponse (s : ResponseState) (message : String) : Json :=
  .obj [("id", .str s.responseId), ("object", .str "response"), ("status", .str "failed"),
    ("model", .str s.model), ("output", .arr []),
    ("error", .obj [("code", .str "upstream_error"), ("message", .str message)])]

/-- The events of a failure, which come once and not after a completion. -/
def failResponse (message : String) : Convert Unit := do
  when (!(← get).completed) do
    start
    closeReasoning
    closeMessage
    emitEvent (.failed (failedResponse (← get) message))
    modify ({ · with completed := true })

/-- A reason that says that the response is over. -/
def endReason (candidate : Json) : Option String :=
  (candidate.text? "finishReason").filter fun reason =>
    !isBlank reason && !(["UNSPECIFIED", "FINISH_REASON_UNSPECIFIED"].contains reason)

variable (codec : Codec)

def processCandidate (candidate : Json) : Convert Unit := do
  captureGrounding (candidate.member? "groundingMetadata")
  withSome (((candidate.member? "content").bind (·.member? "parts")).bind Json.toArr)
    (Emit.each (processPart codec))
  withSome (endReason candidate) complete

def payloadResponse (payload : Json) : Json := (payload.member? "response").getD payload

def payloadError (payload : Json) : Option Json :=
  (payload.member? "error").or ((payloadResponse payload).member? "error")

/-- The result is the error of the upstream. -/
def processPayload (payload : Json) : Convert (Option ProviderError) := do
  if (← get).completed then return none
  else
    match payloadError payload with
    | some error => return some (codec.streamError error)
    | none =>
      let response := payloadResponse payload
      when (!(← get).started) do
        withSome ((response.text? "responseId").filter (!isBlank ·)) fun responseId =>
          modify ({ · with responseId := normalizeResponseId responseId })
      withSome (response.member? "usageMetadata") fun usage =>
        modify ({ · with usage := some (convertUsage usage) })
      withSome (payload.member? "usageMetadata") fun usage =>
        modify ({ · with usage := some (convertUsage usage) })
      start
      withSome (((response.member? "candidates").bind Json.toArr).bind List.head?)
        (processCandidate codec)
      return none

end

end ProviderCore.Antigravity
