import ProviderCore.Protocol.Sse

/-!
# The events of a Responses stream

The events that the translators emit, as data.  `ResponsesEvent.type` and `fields` are what an
event is written from; the writer numbers it.

An item is added under an output index, its texts come in pieces, and it ends with the whole text
and the whole item.  `added`, `doneItems`, `deltas` and `doneTexts` read these off a list of events.
-/

namespace ProviderCore.Protocol

/-- The texts that come in pieces. -/
inductive Channel
  | outputText
  | reasoningSummary
  | functionArguments
  | customInput
deriving DecidableEq

/-- The parts of an item that hold a text. -/
inductive Part
  | content
  | reasoningSummary
deriving DecidableEq

inductive ResponsesEvent
  | created (response : Json)
  | inProgress (response : Json)
  | itemAdded (index : ℕ) (item : Json)
  | partAdded (part : Part) (itemId : String) (index : ℕ) (value : Json)
  | delta (channel : Channel) (itemId : String) (index : ℕ) (piece : String)
  | textDone (channel : Channel) (itemId : String) (index : ℕ) (text : String)
  | partDone (part : Part) (itemId : String) (index : ℕ) (value : Json)
  | partialImage (itemId : String) (index : ℕ) (outputFormat image : String)
  | itemDone (index : ℕ) (item : Json)
  | completed (response : Json)
  | incomplete (response : Json)
  | failed (response : Json)
  | error (code message : String) (param : Json)

/-! ## Writing -/

def Channel.stem : Channel → String
  | outputText => "response.output_text"
  | reasoningSummary => "response.reasoning_summary_text"
  | functionArguments => "response.function_call_arguments"
  | customInput => "response.custom_tool_call_input"

/-- The place of the text within its item. -/
def Channel.place : Channel → List (String × Json)
  | outputText => [("content_index", .int 0)]
  | reasoningSummary => [("summary_index", .int 0)]
  | functionArguments | customInput => []

/-- The name of the whole text. -/
def Channel.whole : Channel → String
  | outputText | reasoningSummary => "text"
  | functionArguments => "arguments"
  | customInput => "input"

def Part.stem : Part → String
  | content => "response.content_part"
  | reasoningSummary => "response.reasoning_summary_part"

def Part.place : Part → String
  | content => "content_index"
  | reasoningSummary => "summary_index"

namespace ResponsesEvent

def type : ResponsesEvent → String
  | created _ => "response.created"
  | inProgress _ => "response.in_progress"
  | itemAdded _ _ => "response.output_item.added"
  | partAdded part _ _ _ => part.stem ++ ".added"
  | delta channel _ _ _ => channel.stem ++ ".delta"
  | textDone channel _ _ _ => channel.stem ++ ".done"
  | partDone part _ _ _ => part.stem ++ ".done"
  | partialImage _ _ _ _ => "response.image_generation_call.partial_image"
  | itemDone _ _ => "response.output_item.done"
  | completed _ => "response.completed"
  | incomplete _ => "response.incomplete"
  | failed _ => "response.failed"
  | error _ _ _ => "error"

def fields : ResponsesEvent → List (String × Json)
  | created response | inProgress response | completed response | incomplete response
  | failed response => [("response", response)]
  | itemAdded index item | itemDone index item => [("output_index", .int index), ("item", item)]
  | partAdded part itemId index value | partDone part itemId index value =>
    [("item_id", .str itemId), ("output_index", .int index), (part.place, .int 0),
      ("part", value)]
  | delta channel itemId index piece =>
    [("item_id", .str itemId), ("output_index", .int index)] ++ channel.place ++
      [("delta", .str piece)]
  | textDone channel itemId index text =>
    [("item_id", .str itemId), ("output_index", .int index)] ++ channel.place ++
      [(channel.whole, .str text)]
  | partialImage itemId index outputFormat image =>
    [("output_index", .int index), ("item_id", .str itemId), ("output_format", .str outputFormat),
      ("partial_image_b64", .str image), ("partial_image_index", .int 0)]
  | error code message param => [("code", .str code), ("message", .str message), ("param", param)]

end ResponsesEvent

structure NumberedEvent where
  sequence : ℕ
  event : ResponsesEvent

def NumberedEvent.data (numbered : NumberedEvent) : Json :=
  .obj (numbered.event.fields ++
    [("type", .str numbered.event.type), ("sequence_number", .int numbered.sequence)])

/-! ## Reading -/

namespace ResponsesEvent

def isCreated : ResponsesEvent → Bool
  | created _ => true
  | _ => false

def isInProgress : ResponsesEvent → Bool
  | inProgress _ => true
  | _ => false

def isTerminal : ResponsesEvent → Bool
  | completed _ | incomplete _ | failed _ | error _ _ _ => true
  | _ => false

/-- The response of a stream that came to its end. -/
def completion : ResponsesEvent → Option Json
  | completed response | incomplete response => some response
  | _ => none

def addedIndex : ResponsesEvent → Option ℕ
  | itemAdded index _ => some index
  | _ => none

def doneItem : ResponsesEvent → Option (ℕ × Json)
  | itemDone index item => some (index, item)
  | _ => none

/-- The piece of text that an event adds to an item. -/
def pieceOf (index : ℕ) : ResponsesEvent → Option String
  | delta _ _ index' piece => if index' = index then some piece else none
  | _ => none

def wholeOf (index : ℕ) : ResponsesEvent → Option String
  | textDone _ _ index' text => if index' = index then some text else none
  | _ => none

end ResponsesEvent

/-- The output indexes under which items were added. -/
def added (events : List ResponsesEvent) : List ℕ := events.filterMap ResponsesEvent.addedIndex

/-- The items that were done, with their output indexes. -/
def doneItems (events : List ResponsesEvent) : List (ℕ × Json) :=
  events.filterMap ResponsesEvent.doneItem

/-- The pieces of an item's text put together. -/
def deltas (index : ℕ) (events : List ResponsesEvent) : String :=
  String.join (events.filterMap (ResponsesEvent.pieceOf index))

/-- The texts that were done for an item. -/
def doneTexts (index : ℕ) (events : List ResponsesEvent) : List String :=
  events.filterMap (ResponsesEvent.wholeOf index)

/-- The text of an item: of a message, a reasoning, a function call or a custom call. -/
def itemText (item : Json) : Option String :=
  match item.text? "type" with
  | some "message" => some (itemParts item "content")
  | some "reasoning" => some (itemParts item "summary")
  | some "function_call" => item.text? "arguments"
  | some "custom_tool_call" => item.text? "input"
  | _ => none
where
  itemParts (item : Json) (field : String) : String :=
    String.join ((((item.member? field).bind Json.toArr).getD []).filterMap (·.text? "text"))

section

variable (events events' : List ResponsesEvent) (index : ℕ)

@[simp] theorem added_append : added (events ++ events') = added events ++ added events' :=
  List.filterMap_append

@[simp] theorem doneItems_append :
    doneItems (events ++ events') = doneItems events ++ doneItems events' :=
  List.filterMap_append

@[simp] theorem deltas_append :
    deltas index (events ++ events') = deltas index events ++ deltas index events' := by
  simp [deltas]

@[simp] theorem doneTexts_append :
    doneTexts index (events ++ events') = doneTexts index events ++ doneTexts index events' :=
  List.filterMap_append

end

end ProviderCore.Protocol
