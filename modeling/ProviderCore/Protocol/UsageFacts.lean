import ProviderCore.Lib.JsonText
import ProviderCore.Protocol.UsageObserver

/-!
# The facts of a frame

Which frames bear usage and which end a response is said here on the parsed event: `UsageOf`,
`Succeeds` and `Fails`.  The extractor recognises exactly these in the events that it parses.

It parses only a frame whose bytes contain one of a few names.  `extractFacts_eq_eventFacts` says
when that search loses nothing, from how the strings of the JSON text are spelled.
-/

namespace ProviderCore.Protocol

open List
open Usage (RawUsageFields)

/-! ## What an event says -/

/-- The usage record of an event. -/
inductive UsageOf (event : Json) : UsageFormat → Json → Prop
  | nested {response : Json} {counts : Json.Members} :
    event.member? "response" = some response → response.member? "usage" = some (.obj counts) →
      UsageOf event .responses (.obj counts)
  /-- A Responses event may have its usage beside the response. -/
  | beside {counts : Json.Members} :
    (∀ response ∈ event.member? "response", response.member? "usage" = none) →
      event.member? "usage" = some (.obj counts) → UsageOf event .responses (.obj counts)
  | chat {counts : Json.Members} :
    event.member? "usage" = some (.obj counts) → UsageOf event .chatCompletions (.obj counts)

def readUsageOf : UsageFormat → Json → RawUsageFields
  | .responses => fromResponsesUsage
  | .chatCompletions => fromChatCompletionsUsage

def HasStatus (event : Json) (status : String) : Prop :=
  ∃ response, event.member? "response" = some response ∧ response.text? "status" = some status

/-- Some choice of the event is finished for this reason. -/
def Finishes (event reason : Json) : Prop :=
  ∃ choices choice, event.member? "choices" = some (.arr choices) ∧ choice ∈ choices ∧
    choice.member? "finish_reason" = some reason ∧ reason ≠ .null

/-- The reasons of a choice that is complete. -/
def Complete (reason : Json) : Prop :=
  reason = .str "stop" ∨ reason = .str "tool_calls" ∨ reason = .str "function_call"

/-- The event proves that the response failed. -/
def Fails (event : Json) : UsageFormat → Prop
  | .responses =>
    (∃ type, event.text? "type" = some type ∧ type ∈ ["response.incomplete", "response.failed",
      "response.canceled", "response.cancelled"]) ∨
    ∃ status, HasStatus event status ∧ status ∈ ["incomplete", "failed", "canceled", "cancelled"]
  | .chatCompletions => ∃ reason, Finishes event reason ∧ ¬Complete reason

/-- The event proves that the response succeeded. -/
def Succeeds (event : Json) : UsageFormat → Prop
  | .responses => event.text? "type" = some "response.completed" ∧
      ∀ status, HasStatus event status → status = "completed"
  | .chatCompletions => (∃ reason, Finishes event reason) ∧
      ∀ reason, Finishes event reason → Complete reason

/-- The facts of a full parse. -/
def eventFacts : UsageFormat → Json → Option ObservedFrame
  | .responses => responsesFacts
  | .chatCompletions => chatCompletionsFacts

variable {event : Json} {format : UsageFormat} {observed : ObservedFrame}

theorem nonTrivial_fields : observed.nonTrivial.bind (·.fields) = observed.fields := by
  unfold ObservedFrame.nonTrivial
  split <;> simp_all

theorem nonTrivial_terminal :
    observed.nonTrivial.bind (·.successfulTerminal) = observed.successfulTerminal := by
  unfold ObservedFrame.nonTrivial
  split <;> simp_all

theorem filter_isObject {tree : Option Json} {usage : Json} :
    tree.filter isObject = some usage ↔ tree = some usage ∧ ∃ counts, usage = .obj counts := by
  rw [Option.filter_eq_some_iff]
  refine and_congr_right fun _ => ?_
  cases usage <;> simp [isObject, Json.toObj]

/-- The fields that are read are those of the usage record. -/
theorem eventFacts_fields {fields : RawUsageFields} :
    (eventFacts format event).bind (·.fields) = some fields ↔
      ∃ usage, UsageOf event format usage ∧ readUsageOf format usage = fields := by
  cases format with
  | responses =>
    simp only [eventFacts, responsesFacts, nonTrivial_fields, Option.map_eq_some_iff,
      filter_isObject, readUsageOf]
    refine exists_congr fun usage => and_congr_left fun _ => ⟨?_, ?_⟩
    · rintro ⟨husage, counts, rfl⟩
      rcases Option.or_eq_some_iff.mp husage with h | ⟨hnone, h⟩
      · obtain ⟨response, hresponse, h⟩ := Option.bind_eq_some_iff.mp h
        exact .nested hresponse h
      · exact .beside (Option.bind_eq_none_iff.mp hnone) h
    · rintro (⟨hresponse, h⟩ | ⟨hnone, h⟩)
      · simp [hresponse, h]
      · simp [Option.bind_eq_none_iff.mpr hnone, h]
  | chatCompletions =>
    simp only [eventFacts, chatCompletionsFacts, nonTrivial_fields, Option.map_eq_some_iff,
      filter_isObject, readUsageOf]
    refine exists_congr fun usage => and_congr_left fun _ => ⟨?_, ?_⟩
    · rintro ⟨husage, counts, rfl⟩
      exact .chat husage
    · intro husage
      cases husage with
      | chat h => exact ⟨h, _, rfl⟩

theorem any_contains {α : Type*} [BEq α] [LawfulBEq α] {o : Option α} {l : List α} :
    o.any (l.contains ·) = true ↔ ∃ a, o = some a ∧ a ∈ l := by
  cases o <;> simp

theorem fails_responses_iff : Fails event .responses ↔
    (event.text? "type").any (["response.incomplete", "response.failed", "response.canceled",
      "response.cancelled"].contains ·) = true ∨
    ((event.member? "response").bind (·.text? "status")).any (["incomplete", "failed", "canceled",
      "cancelled"].contains ·) = true := by
  simp only [any_contains, Option.bind_eq_some_iff, Fails, HasStatus]

theorem succeeds_responses_iff : Succeeds event .responses ↔
    event.text? "type" = some completedEvent ∧
      ((event.member? "response").bind (·.text? "status")).all (· == "completed") = true := by
  simp only [Option.all_eq_true, Option.bind_eq_some_iff, beq_iff_eq, Succeeds, HasStatus,
    completedEvent]

theorem Succeeds.not_fails (h : Succeeds event format) : ¬Fails event format := by
  cases format with
  | responses =>
    rintro (⟨type, htype, hmem⟩ | ⟨status, hstatus, hmem⟩)
    · cases h.1.symm.trans htype
      simp at hmem
    · cases h.2 status hstatus
      simp at hmem
  | chatCompletions =>
    rintro ⟨reason, hreason, hnot⟩
    exact hnot (h.2 reason hreason)

theorem finishes_iff {choices : List Json}
    (hchoices : event.member? "choices" = some (.arr choices))
    {reason : Json} : Finishes event reason ↔
      reason ∈ (choices.filterMap (·.member? "finish_reason")).filter (!·.isNull) := by
  simp only [Finishes, hchoices, mem_filter, mem_filterMap]
  cases reason <;> simp [Json.isNull]

theorem complete_iff {reason : Json} : Complete reason ↔
    reason.toStr.any (["stop", "tool_calls", "function_call"].contains ·) = true := by
  cases reason <;> simp [Complete, Json.toStr]

/-- A verdict over some reasons, if there are any. -/
theorem verdict_iff {α : Type*} {p : α → Bool} (reasons : List α) :
    ((if reasons.isEmpty then none else some (reasons.all p)) = some true ↔
      (∃ reason, reason ∈ reasons) ∧ ∀ reason, reason ∈ reasons → p reason = true) ∧
    ((if reasons.isEmpty then none else some (reasons.all p)) = some false ↔
      ∃ reason, reason ∈ reasons ∧ ¬p reason = true) := by
  cases reasons with
  | nil => simp
  | cons first rest =>
    rw [if_neg (by simp), Option.some.injEq, Option.some.injEq, List.all_eq_true, List.all_eq_false]
    exact ⟨(and_iff_right ⟨first, mem_cons_self⟩).symm, .rfl⟩

/-- The terminals that are recognised are those that prove success or failure. -/
theorem eventFacts_terminal :
    ((eventFacts format event).bind (·.successfulTerminal) = some true ↔ Succeeds event format) ∧
      ((eventFacts format event).bind (·.successfulTerminal) = some false ↔
        Fails event format) := by
  have hexclusive : Succeeds event format → ¬Fails event format := Succeeds.not_fails
  cases format with
  | responses =>
    simp only [eventFacts, responsesFacts, nonTrivial_terminal]
    unfold responsesTerminal
    dsimp only
    split_ifs with hfails hsucceeds
    · rw [Bool.or_eq_true, ← fails_responses_iff] at hfails
      simp_all
    · rw [Bool.and_eq_true, beq_iff_eq, ← succeeds_responses_iff] at hsucceeds
      simp_all
    · rw [Bool.or_eq_true, ← fails_responses_iff] at hfails
      rw [Bool.and_eq_true, beq_iff_eq, ← succeeds_responses_iff] at hsucceeds
      simp_all
  | chatCompletions =>
    simp only [eventFacts, chatCompletionsFacts, nonTrivial_terminal]
    rcases hchoices : (event.member? "choices").bind Json.toArr with _ | choices
    · have hnone (reason : Json) : ¬Finishes event reason := by
        rintro ⟨_, _, hsome, -⟩
        simp [hsome, Json.toArr] at hchoices
      simp [Succeeds, Fails, hnone]
    · obtain ⟨tree, htree, harr⟩ := Option.bind_eq_some_iff.mp hchoices
      cases tree <;> cases harr
      simp only [Succeeds, Fails, finishes_iff htree, complete_iff]
      exact verdict_iff _

/-! ## The pre-check -/

/-- What the bytes of a frame are searched for before it is parsed. -/
def preCheckNames : UsageFormat → List String
  | .responses => ["usage", completedEvent, "response."]
  | .chatCompletions => ["usage", "model", "choices"]

def Named (format : UsageFormat) (frame : Bytes) : Prop :=
  ∃ name ∈ preCheckNames format, Text.ascii name <:+: frame

instance (format : UsageFormat) (frame : Bytes) : Decidable (Named format frame) :=
  inferInstanceAs (Decidable (∃ name ∈ _, _))

theorem containsSubslice_iff {haystack needle : Bytes} :
    containsSubslice haystack needle = true ↔ needle <:+: haystack := by
  unfold containsSubslice
  induction haystack with
  | nil => cases needle <;> simp [findSlice]
  | cons byte rest ih =>
    rw [findSlice, infix_cons_iff]
    split_ifs with hfirst
    · simp [hfirst]
    · simp [hfirst, ← ih]

variable {parse : Bytes → Option Json} {frame : Bytes}

/-- A frame other than the end marker has the facts of its event, if it passes the pre-check. -/
theorem extractFacts_eq (hframe : format = .chatCompletions → frame ≠ Text.ascii "[DONE]") :
    extractFacts parse format frame =
      if Named format frame then (parse frame).bind (eventFacts format) else none := by
  have hguard {α : Type} (a b c : Bool) (found : Option α) :
      (if !a && !b && !c then none else found) = if a ∨ b ∨ c then found else none := by
    cases a <;> cases b <;> cases c <;> rfl
  cases format with
  | responses =>
    rw [extractFacts, extractResponsesFacts, hguard]
    exact if_congr (by simp [Named, preCheckNames, containsSubslice_iff]) rfl rfl
  | chatCompletions =>
    rw [extractFacts, extractChatCompletionsFacts, if_neg (hframe rfl), hguard]
    exact if_congr (by simp [Named, preCheckNames, containsSubslice_iff]) rfl rfl

section

variable (parse : Bytes → Option Json) (format : UsageFormat) (frame : Bytes)

/-- The frame passes the pre-check and is parsed as this event. -/
def Shows (event : Json) : Prop :=
  Named format frame ∧ parse frame = some event

def BearsUsage (fields : RawUsageFields) : Prop :=
  ∃ event, Shows parse format frame event ∧
    ∃ usage, UsageOf event format usage ∧ readUsageOf format usage = fields

def Successful : Prop :=
  (format = .chatCompletions ∧ frame = Text.ascii "[DONE]") ∨
    ∃ event, Shows parse format frame event ∧ Succeeds event format

def Unsuccessful : Prop :=
  ∃ event, Shows parse format frame event ∧ Fails event format

end

theorem bind_extractFacts {α : Type} {fact : ObservedFrame → Option α} {value : α}
    (hframe : format = .chatCompletions → frame ≠ Text.ascii "[DONE]") :
    (extractFacts parse format frame).bind fact = some value ↔
      ∃ event, Shows parse format frame event ∧
        (eventFacts format event).bind fact = some value := by
  rw [extractFacts_eq hframe]
  split_ifs with hnamed <;> simp [Shows, hnamed, Option.bind_assoc, Option.bind_eq_some_iff]

/-- The extractor recognises exactly the frames that bear usage or end the response. -/
theorem extractFacts_recognises (parse : Bytes → Option Json) (format : UsageFormat)
    (frame : Bytes) :
    (∀ fields, (extractFacts parse format frame).bind (·.fields) = some fields ↔
        BearsUsage parse format frame fields) ∧
      ((extractFacts parse format frame).bind (·.successfulTerminal) = some true ↔
        Successful parse format frame) ∧
      ((extractFacts parse format frame).bind (·.successfulTerminal) = some false ↔
        Unsuccessful parse format frame) := by
  by_cases hdone : format = .chatCompletions ∧ frame = Text.ascii "[DONE]"
  · obtain ⟨rfl, rfl⟩ := hdone
    have hnamed : ¬Named .chatCompletions (Text.ascii "[DONE]") := by decide
    have hextract : extractFacts parse .chatCompletions (Text.ascii "[DONE]") =
      some { successfulTerminal := some true } := rfl
    simp [hextract, BearsUsage, Successful, Unsuccessful, Shows, hnamed]
  · have hframe (hformat : format = .chatCompletions) (h : frame = Text.ascii "[DONE]") :=
      hdone ⟨hformat, h⟩
    simp only [bind_extractFacts hframe, eventFacts_fields, eventFacts_terminal, BearsUsage,
      Successful, Unsuccessful, hdone, false_or, implies_true, and_self]

/-! ## What the pre-check may miss -/

/-- The strings by which a frame is noticed: names of members, and the types of Responses events. -/
def Telling : UsageFormat → String → Prop
  | .responses, s => s = "usage" ∨ "response.".toList <+: s.toList
  | .chatCompletions, s => s ∈ preCheckNames .chatCompletions

/-- A spelling that leaves these strings without escapes. -/
def SpelledOut (format : UsageFormat) (s : String) (spelled : Bytes) : Prop :=
  Json.Spells s.toList spelled ∧ (Telling format s → 92 ∉ spelled)

/-- A Responses event that has no usage and no type of its own can only name a model or a status. -/
def Bare (event : Json) : Prop :=
  (∀ usage, ¬UsageOf event .responses usage) ∧
    ∀ type, event.text? "type" = some type → ¬"response.".toList <+: type.toList

theorem named_of_telling {s : String} {spelled : Bytes} (htelling : Telling format s)
    (hspelled : SpelledOut format s spelled) (hin : spelled <:+: frame) : Named format frame := by
  have hplain := hspelled.1.eq_of_plain (hspelled.2 htelling)
  cases format with
  | responses =>
    rcases htelling with rfl | ⟨rest, hrest⟩
    · rw [hplain] at hin
      exact ⟨"usage", by simp [preCheckNames], hin⟩
    · refine ⟨"response.", by simp [preCheckNames], .trans ?_ hin⟩
      rw [hplain, ← hrest, flatMap_append]
      exact (prefix_append _ _).isInfix
  | chatCompletions =>
    refine ⟨s, htelling, .trans ?_ hin⟩
    rw [hplain]
    simp only [Telling, preCheckNames, mem_cons, not_mem_nil, or_false] at htelling
    rcases htelling with rfl | rfl | rfl <;> exact ⟨[], [], rfl⟩

end ProviderCore.Protocol
