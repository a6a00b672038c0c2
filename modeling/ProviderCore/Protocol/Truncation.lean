import ProviderCore.Protocol.Claude.Response
import ProviderCore.Protocol.OpenAiChat.Response

/-!
# How a truncated response ends

A response that stops at the token limit should end with a stop reason that says so.  Both
translators let a tool call that was started go first, be it complete or not, and the Claude one
also another stop reason of the upstream.
-/

namespace ProviderCore.Protocol

def tokenLimitReasons : List String := ["max_tokens", "max_output_tokens"]

/-- The event that ends a response at the token limit. -/
structure Truncates (last : Json) : Prop where
  incomplete : eventType last = "response.incomplete"
  limit : ∃ reason ∈ tokenLimitReasons,
    ((eventResponse last).member? "incomplete_details").bind (·.text? "reason") = some reason

def Claude.Event.stopReason? : Event → Option String
  | .messageDelta reason _ _ => some reason
  | _ => none

def OpenAiChat.Event.finishReason? : Event → Option String
  | .chunk fields => do
    let choices ← ((Json.obj fields).member? "choices").bind Json.toArr
    (← choices.head?).text? "finish_reason"
  | _ => none

/-- The last reason that the client of a converter is told. -/
def lastReason {σ ε : Type} (reason? : ε → Option String) (convert : Json → Emit σ ε Unit)
    (converter : σ) (events : List Json) : Option String :=
  (((Emit.each convert events).events converter).filterMap reason?).getLast?

variable {events : List Json}

theorem lastReason_concat {σ ε : Type} {reason? : ε → Option String}
    {convert : Json → Emit σ ε Unit} {converter : σ} {last : Json} {reason : String}
    (h : (((convert last).events ((Emit.each convert events).state converter)).filterMap
    reason?).getLast? = some reason) :
    lastReason reason? convert converter (events ++ [last]) = some reason := by
  rw [lastReason, Emit.events_each_append, List.filterMap_append, List.getLast?_append]
  simp [h]

open Emit.Keeps List

namespace Claude

theorem keeps_emittedTool_closeBlock : Emit.Keeps ClaudeEventConverter.emittedTool closeBlock :=
  bind of_get fun _ => withSome fun _ _ => bind (of_modify fun _ => rfl) fun _ =>
    bind (when (bind of_get fun _ => withSome fun _ _ =>
      bind (of_modify fun _ => rfl) fun _ => of_emit _)) fun _ =>
    bind (of_emit _) fun _ => of_modify fun _ => rfl

variable {s : ClaudeEventConverter} {last : Json}

theorem claudeStopReason_eq_iff (h : Truncates last) :
    claudeStopReason s (eventResponse last) = "max_tokens" ↔ s.emittedTool = false ∧
      ∀ reason ∈ (eventResponse last).text? "stop_reason", reason ∈ tokenLimitReasons := by
  obtain ⟨limit, hlimit, hincomplete⟩ := h.limit
  obtain ⟨upstream, hupstream, hiff⟩ : ∃ upstream,
      ((eventResponse last).text? "stop_reason").or (some limit) = some upstream ∧
        ((∀ reason ∈ (eventResponse last).text? "stop_reason", reason ∈ tokenLimitReasons) ↔
          upstream ∈ tokenLimitReasons) := by
    cases (eventResponse last).text? "stop_reason" <;> simp [hlimit]
  rw [hiff, claudeStopReason, hincomplete, hupstream]
  by_cases hlimits : upstream ∈ tokenLimitReasons
  · cases s.emittedTool <;> simp_all [tokenLimitReasons]
  · -- the other reasons are passed on as they are, or replaced by one of their kind
    refine iff_of_false (fun hreason => ?_) fun h => hlimits h.2
    simp only [tokenLimitReasons, mem_cons, not_mem_nil, or_false] at hlimits
    grind

theorem lastReason_truncated {render : Json → String} (h : Truncates last) :
    lastReason Event.stopReason? (convert render) s (events ++ [last]) =
      some (claudeStopReason (closeBlock.state ((Emit.each (convert render) events).state s))
        (eventResponse last)) := by
  refine lastReason_concat ?_
  simp only [convert, h.incomplete]
  simp [complete, Event.stopReason?, List.getLast?_append]
  rfl

end Claude

namespace OpenAiChat

theorem keeps_emittedTools_emitRole : Emit.Keeps ChatEventConverter.emittedTools emitRole :=
  bind of_get fun _ => when <| bind (bind of_get fun _ => of_emit _) fun _ =>
    of_modify fun _ => rfl

variable {s : ChatEventConverter} {last : Json}

theorem finishReason_eq_iff (h : Truncates last) :
    finishReason s (eventResponse last) = "length" ↔ s.emittedTools = false := by
  obtain ⟨limit, hlimit, hincomplete⟩ := h.limit
  simp only [tokenLimitReasons, mem_cons, not_mem_nil, or_false] at hlimit
  rw [finishReason, hincomplete]
  rcases hlimit with rfl | rfl <;> cases s.emittedTools <;> simp

theorem lastReason_truncated (h : Truncates last) : ∃ s' : ChatEventConverter,
      s'.emittedTools = ((Emit.each convert events).state s).emittedTools ∧
        lastReason Event.finishReason? convert s (events ++ [last]) =
          some (finishReason s' (eventResponse last)) := by
  set t := (Emit.each convert events).state s with ht
  refine ⟨(captureResponse (eventResponse last)).state (emitRole.state t),
    keeps_emittedTools_emitRole.view_state t, lastReason_concat ?_⟩
  simp only [← ht, convert, h.incomplete]
  generalize hs : (captureResponse (eventResponse last)).state (emitRole.state t) = s'
  have hfinish : Event.finishReason? (chunk s' (.obj []) (some (finishReason s'
      (eventResponse last)))) = some (finishReason s' (eventResponse last)) := rfl
  have husage : ∀ usage, Event.finishReason? (.chunk (envelope s' ++
      [("choices", .arr []), ("usage", chatUsage usage)])) = none := fun _ => rfl
  have hdone : Event.finishReason? .done = none := rfl
  simp only [complete, emitChunk, Emit.events_bind, Emit.state_bind, Emit.events_get,
    Emit.result_get, Emit.state_get, hs, Emit.events_emit, Emit.state_emit, nil_append,
    filterMap_append, List.getLast?_append]
  cases s'.includeUsage <;> cases (eventResponse last).member? "usage" <;>
    simp [hfinish, husage, hdone]

end OpenAiChat

/-- A truncated response is reported as one just if no tool call was started before, and in Claude's
format the upstream gives no other stop reason. -/
theorem truncation_told_iff (render : Json → String) (claude : Claude.ClaudeEventConverter)
    (chat : OpenAiChat.ChatEventConverter) (events : List Json) (last : Json)
    (h : Truncates last) :
    (lastReason Claude.Event.stopReason? (Claude.convert render) claude (events ++ [last]) =
        some "max_tokens" ↔
      ((Emit.each (Claude.convert render) events).state claude).emittedTool = false ∧
        ∀ reason ∈ (eventResponse last).text? "stop_reason", reason ∈ tokenLimitReasons) ∧
    (lastReason OpenAiChat.Event.finishReason? OpenAiChat.convert chat (events ++ [last]) =
        some "length" ↔
      ((Emit.each OpenAiChat.convert events).state chat).emittedTools = false) := by
  constructor
  · rw [Claude.lastReason_truncated h, Option.some.injEq, Claude.claudeStopReason_eq_iff h,
      Claude.keeps_emittedTool_closeBlock.view_state]
  · obtain ⟨s', hsame, hreason⟩ := OpenAiChat.lastReason_truncated (s := chat) h
    rw [hreason, Option.some.injEq, OpenAiChat.finishReason_eq_iff h, hsame]

def limitReached : Json :=
  .obj [("type", .str "response.incomplete"), ("response", .obj [("incomplete_details",
    .obj [("reason", .str "max_output_tokens")])])]

def callAdded : Json :=
  .obj [("type", .str "response.output_item.added"), ("item", .obj [("type", .str "function_call"),
    ("call_id", .str "call"), ("name", .str "name")])]

def textDelta : Json := .obj [("type", .str "response.output_text.delta"), ("delta", .str "text")]

theorem truncation_told_iff_limitReached :
    lastReason Claude.Event.stopReason? (Claude.convert fun _ => "")
        { model := "", toolNames := [] } ([textDelta] ++ [limitReached]) = some "max_tokens" ∧
      lastReason OpenAiChat.Event.finishReason? OpenAiChat.convert
        { model := "", includeUsage := false } ([textDelta] ++ [limitReached]) = some "length" := by
  have htold := truncation_told_iff (fun _ => "") { model := "", toolNames := [] }
    { model := "", includeUsage := false } [textDelta] limitReached
    ⟨rfl, "max_output_tokens", by decide, rfl⟩
  exact ⟨htold.1.mpr ⟨rfl, fun _ h => nomatch h⟩, htold.2.mpr rfl⟩

/-- A call without arguments yet is reported as one to execute. -/
theorem truncation_told_as_tool_use :
    lastReason Claude.Event.stopReason? (Claude.convert fun _ => "")
        { model := "", toolNames := [] } [callAdded, limitReached] = some "tool_use" ∧
      lastReason OpenAiChat.Event.finishReason? OpenAiChat.convert
        { model := "", includeUsage := false } [callAdded, limitReached] = some "tool_calls" :=
  ⟨rfl, rfl⟩

end ProviderCore.Protocol
