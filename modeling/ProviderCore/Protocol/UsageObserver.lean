import ProviderCore.Protocol.Sse

/-!
# Observing usage in passing

`UsageObservingStream` hands the upstream's items to the client as they are, reads along with a
decoder of its own, and tells the attempt once how the response ended: when the upstream ends or
when the client drops the stream.

An operation returns the new state with the calls it makes on the attempt.  JSON parsing is a
parameter.
-/

namespace ProviderCore.Protocol

open Usage (RawUsageFields)

/-! ## Reading usage (`raw.rs`) -/

section

def intField (parent : Json) (key : String) : Option I64 := parent.field key Json.toInt

def nestedInt (parent : Json) (object key : String) : Option I64 :=
  (parent.member? object).bind (intField · key)

/-- The first of several names for one count. -/
def nestedIntAny (parent : Json) (object : String) (keys : List String) : Option I64 :=
  (parent.member? object).bind fun details => keys.findSome? (intField details ·)

/-- The counts of a usage record, given its names for input, output and their details. -/
def readUsage (usage : Json) (input output inputDetails outputDetails : String) :
    RawUsageFields where
  input := intField usage input
  cacheRead := nestedInt usage inputDetails "cached_tokens"
  cacheWrite := nestedIntAny usage inputDetails ["cache_write_tokens", "cache_creation_tokens"]
  output := intField usage output
  reasoning := nestedInt usage outputDetails "reasoning_tokens"
  inputAudio := nestedInt usage inputDetails "audio_tokens"
  outputAudio := nestedInt usage outputDetails "audio_tokens"
  imageInput := nestedInt usage inputDetails "image_tokens"
  imageOutput := nestedInt usage outputDetails "image_tokens"
  total := intField usage "total_tokens"

def fromResponsesUsage (usage : Json) : RawUsageFields :=
  readUsage usage "input_tokens" "output_tokens" "input_tokens_details" "output_tokens_details"

def fromChatCompletionsUsage (usage : Json) : RawUsageFields :=
  readUsage usage "prompt_tokens" "completion_tokens" "prompt_tokens_details"
    "completion_tokens_details"

end

/-! ## Facts of a frame -/

/-- What one frame proves. -/
structure ObservedFrame where
  fields : Option RawUsageFields := none
  model : Option String := none
  /-- The frame starts the model's output. -/
  firstToken : Bool := false
  /-- The frame proves success or failure. -/
  successfulTerminal : Option Bool := none
deriving DecidableEq

def completedEvent : String := "response.completed"

def maxModelLen : ℕ := 200

def containsSubslice (haystack needle : Bytes) : Bool := (findSlice needle haystack).isSome

/-- A frame without a fact is no observation. -/
def ObservedFrame.nonTrivial (observed : ObservedFrame) : Option ObservedFrame :=
  if observed.fields.isNone && observed.model.isNone && observed.successfulTerminal.isNone &&
      !observed.firstToken then none
  else some observed

def plausibleModel (model : Option String) : Option String :=
  model.filter fun model => !model.isEmpty && model.utf8ByteSize ≤ maxModelLen

def isObject (tree : Json) : Bool := tree.toObj.isSome

def responsesEventStartsOutput (type : String) : Bool :=
  (Text.afterStart "response.".toList type.toList).isSome &&
    !([ "response.created", "response.queued", "response.in_progress", "response.completed",
        "response.done", "response.incomplete", "response.failed", "response.error",
        "response.canceled", "response.cancelled" ].contains type)

def responsesTerminal (type : Option String) (response : Option Json) : Option Bool :=
  let status := response.bind (·.text? "status")
  if type.any (["response.incomplete", "response.failed", "response.canceled",
        "response.cancelled"].contains ·) ||
      status.any (["incomplete", "failed", "canceled", "cancelled"].contains ·) then some false
  else if type == some completedEvent && status.all (· == "completed") then some true
  else none

def chatCompletionTerminal (choices : List Json) : Option Bool :=
  let reasons := (choices.filterMap (·.member? "finish_reason")).filter (!·.isNull)
  if reasons.isEmpty then none
  else some (reasons.all fun reason =>
    reason.toStr.any (["stop", "tool_calls", "function_call"].contains ·))

def hasText (tree : Json) (name : String) : Bool := (tree.text? name).any (!·.isEmpty)

def chatDeltaHasOutput (delta : Json) : Bool :=
  ["content", "reasoning_content", "reasoning"].any (hasText delta) ||
    ((delta.member? "tool_calls").bind Json.toArr).any fun calls =>
      calls.any fun call => (call.member? "function").any fun function =>
        ["arguments", "name"].any (hasText function)

/-- What is read from a parsed Responses event. -/
def responsesFacts (event : Json) : Option ObservedFrame :=
  let type := event.text? "type"
  let response := event.member? "response"
  let usage := ((response.bind (·.member? "usage")).or (event.member? "usage")).filter isObject
  let model := (response.bind (·.member? "model")).or (event.member? "model")
  ObservedFrame.nonTrivial {
    fields := usage.map fromResponsesUsage
    model := plausibleModel (model.bind Json.toStr)
    firstToken := type.any responsesEventStartsOutput
    successfulTerminal := responsesTerminal type response }

/-- What is read from a parsed Chat Completions event. -/
def chatCompletionsFacts (event : Json) : Option ObservedFrame :=
  let choices := (event.member? "choices").bind Json.toArr
  ObservedFrame.nonTrivial {
    fields := ((event.member? "usage").filter isObject).map fromChatCompletionsUsage
    model := plausibleModel (event.text? "model")
    firstToken := choices.any fun choices => choices.any fun choice =>
      (choice.member? "delta").any chatDeltaHasOutput
    successfulTerminal := choices.bind chatCompletionTerminal }

section

variable (parse : Bytes → Option Json)

def extractResponsesFacts (frame : Bytes) : Option ObservedFrame :=
  if !containsSubslice frame (Text.ascii "usage") &&
      !containsSubslice frame (Text.ascii completedEvent) &&
      !containsSubslice frame (Text.ascii "response.") then none
  else (parse frame).bind responsesFacts

def extractChatCompletionsFacts (frame : Bytes) : Option ObservedFrame :=
  if frame = Text.ascii "[DONE]" then some { successfulTerminal := some true }
  else if !containsSubslice frame (Text.ascii "usage") &&
      !containsSubslice frame (Text.ascii "model") &&
      !containsSubslice frame (Text.ascii "choices") then none
  else (parse frame).bind chatCompletionsFacts

/-- The formats whose streams are observed. -/
inductive UsageFormat
  | responses
  | chatCompletions
deriving DecidableEq

def extractFacts : UsageFormat → Bytes → Option ObservedFrame
  | .responses => extractResponsesFacts parse
  | .chatCompletions => extractChatCompletionsFacts parse

end

/-! ## The stream -/

/-- What the attempt is told. -/
inductive AttemptCall
  | providerModelObserved (model : String)
  | firstTokenObserved
  | observationLost
  | successTerminalObserved
  | finished (usage : Option RawUsageFields)
  | cancelled (usage : Option RawUsageFields)
deriving DecidableEq

structure UsageObservingStream where
  decoder : SseDecoder := {}
  latest : Option RawUsageFields := none
  /-- The attempt has not been told yet. -/
  attempt : Bool := true
  upstreamDone : Bool := false
  /-- The framing became unreadable; observation stopped. -/
  blind : Bool := false
  successfulTerminal : Option Bool := none
deriving DecidableEq

namespace UsageObservingStream

section

variable (extractor : Bytes → Option ObservedFrame) (s : UsageObservingStream)

/-- A proof of failure stands; a proof of success stands until one. -/
def terminalAfter (before observed : Option Bool) : Option Bool :=
  match observed with
  | some false => some false
  | some true => before.or (some true)
  | none => before

def inspectFrame (frame : Bytes) : UsageObservingStream × List AttemptCall :=
  match extractor frame with
  | none => (s, [])
  | some observed =>
    let calls := if s.attempt then
      (observed.model.map AttemptCall.providerModelObserved).toList ++
        (if observed.firstToken then [.firstTokenObserved] else []) else []
    ({ s with
        successfulTerminal := terminalAfter s.successfulTerminal observed.successfulTerminal
        latest := observed.fields.or s.latest }, calls)

def inspectFrames (s : UsageObservingStream) : List Bytes →
    UsageObservingStream × List AttemptCall
  | [] => (s, [])
  | frame :: frames =>
    let (s, calls) := inspectFrame extractor s frame
    let (s, more) := inspectFrames s frames
    (s, calls ++ more)

def inspect (chunk : Bytes) : UsageObservingStream × List AttemptCall :=
  if s.blind then (s, [])
  else
    match s.decoder.push chunk with
    | (decoder, .ok frames) => inspectFrames extractor { s with decoder } frames
    | (decoder, .error _) =>
      ({ s with decoder, blind := true }, if s.attempt then [.observationLost] else [])

def reportFinished : UsageObservingStream × List AttemptCall :=
  if s.attempt then
    ({ s with attempt := false, latest := none },
      (if s.successfulTerminal = some true then [.successTerminalObserved] else []) ++
        [.finished s.latest])
  else (s, [])

def reportCancelled : UsageObservingStream × List AttemptCall :=
  if s.attempt then
    ({ s with attempt := false, latest := none },
      match s.successfulTerminal with
      | some successful => (if successful then [.successTerminalObserved] else []) ++
          [.finished s.latest]
      | none => [.cancelled s.latest])
  else (s, [])

/-- One poll that finds the upstream ready with an item, or at its end. -/
def nextItem (upstream : Option StreamItem) :
    UsageObservingStream × List AttemptCall × Option StreamItem :=
  if s.upstreamDone then (s, [], none)
  else
    match upstream with
    | some (.ok chunk) =>
      let (s, calls) := inspect extractor s chunk
      (s, calls, some (.ok chunk))
    | some (.error e) => (s, [], some (.error e))
    | none =>
      let s := { s with upstreamDone := true }
      let (s, observed) := inspectFrames extractor s s.decoder.finish.toList
      let (s, told) := s.reportFinished
      (s, observed ++ told, none)

end

/-- A client that polls some times and then drops the stream.  A poll that finds nothing ready does
nothing. -/
structure Session where
  delivered : List StreamItem
  calls : List AttemptCall
deriving DecidableEq

/-- The polls of a client, the upstream's items one after the other and then its end. -/
def polls (extractor : Bytes → Option ObservedFrame) :
    ℕ → List StreamItem → UsageObservingStream → UsageObservingStream × Session
  | 0, _, s => (s, ⟨[], []⟩)
  | n + 1, upstream, s =>
    let (s, calls, item) := nextItem extractor s upstream.head?
    let (s, rest) := polls extractor n upstream.tail s
    (s, ⟨item.toList ++ rest.delivered, calls ++ rest.calls⟩)

def session (extractor : Bytes → Option ObservedFrame) (n : ℕ) (upstream : List StreamItem) :
    Session :=
  let (s, session) := polls extractor n upstream {}
  ⟨session.delivered, session.calls ++ s.reportCancelled.2⟩

end UsageObservingStream

end ProviderCore.Protocol
