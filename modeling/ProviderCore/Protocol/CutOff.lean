import ProviderCore.Protocol.Claude.Response
import ProviderCore.Protocol.OpenAiChat.Response
import ProviderCore.Protocol.OpenAiResponses.Stream

/-!
# A stream that is cut off

An upstream may end without saying how the response ended.  The Chat-to-Responses adapter always
makes that an error.  The Claude and Chat Completions adapters do not look: the client's stream ends
in an error only if the read itself failed, or if the last frame that was answered at all happened
to be no JSON (`Noticed`).
-/

namespace ProviderCore.Protocol

/-! ## Cut off -/

/-- The types of the events that say how a response ended. -/
def terminalTypes : List String :=
  [ "response.completed", "response.incomplete", "response.failed", "response.canceled",
    "response.cancelled", "error" ]

section

variable (parse : Bytes → Option Json)

/-- The event of a frame. -/
def frameEvent (frame : Bytes) : Option Json := if frame = doneMark then none else parse frame

/-- A frame that is neither an event nor the end mark. -/
def Broken (frame : Bytes) : Prop := frame ≠ doneMark ∧ parse frame = none

/-- No event of the upstream says how the response ended. -/
def CutOff (upstream : List StreamItem) : Prop :=
  ∀ frame ∈ (received {} upstream).1, ∀ event, frameEvent parse frame = some event →
    eventType event ∉ terminalTypes

end

/-- The last that the client reads is an error, or an event that is one. -/
def EndsInError {ε : Type} (isError : ε → Bool) (items : List (ClientItem ε)) : Prop :=
  ∃ item, items.getLast? = some item ∧ ∀ event, item = .ok event → isError event = true

section

variable {σ ε : Type} (parse : Bytes → Option Json) (convert : Json → Emit σ ε Unit)

/-- A broken frame that is followed by nothing that is answered. -/
def LastBroken (converter : σ) (frames : List Bytes) : Prop :=
  ∃ before frame after, frames = before ++ frame :: after ∧ Broken parse frame ∧
    (Emit.each (convertData parse convert) after).events
      ((Emit.each (convertData parse convert) before).state converter) = []

/-- The read fails, or the last frame that is answered is broken. -/
def Noticed (converter : σ) (upstream : List StreamItem) : Prop :=
  (received {} upstream).2.isSome = true ∨
    LastBroken parse convert converter (received {} upstream).1

variable {parse convert} {isError : ε → Bool}

theorem endsInError_append_error (items : List (ClientItem ε)) (e : ProviderError) :
    EndsInError isError (items ++ [.error e]) :=
  ⟨.error e, List.getLast?_concat, fun _ h => by cases h⟩

theorem not_endsInError_nil : ¬EndsInError isError [] := fun ⟨_, hlast, _⟩ => by cases hlast

theorem endsInError_append {items more : List (ClientItem ε)} (hmore : more ≠ []) :
    EndsInError isError (items ++ more) ↔ EndsInError isError more := by
  unfold EndsInError
  rw [List.getLast?_append_of_ne_nil _ hmore]

/-- A converter that emits errors for terminal events only. -/
def QuietUnlessTerminal (convert : Json → Emit σ ε Unit) (isError : ε → Bool) : Prop :=
  ∀ event, eventType event ∉ terminalTypes →
    Emit.Emits (fun e => isError e = false) (convert event)

theorem not_endsInError_of_quiet {items : List ε} (h : ∀ e ∈ items, isError e = false) :
    ¬EndsInError isError (items.map .ok : List (ClientItem ε)) := by
  rintro ⟨_, hlast, herror⟩
  obtain ⟨e, he, rfl⟩ := List.mem_map.mp (List.mem_of_getLast? hlast)
  exact Bool.false_ne_true ((h e he).symm.trans (herror e rfl))

theorem not_endsInError_singleton {e : ε} (h : isError e = false) :
    ¬EndsInError isError [(.ok e : ClientItem ε)] := by
  have hone : ∀ e' ∈ [e], isError e' = false := List.forall_mem_singleton.mpr h
  exact not_endsInError_of_quiet hone

variable {frame : Bytes}

/-- What a frame is answered with: an error if it is broken, else no error. -/
theorem convertData_broken (h : Broken parse frame) (s : σ) :
    (convertData parse convert frame).state s = s ∧
      (convertData parse convert frame).events s = [.error invalidEventError] := by
  simp [convertData, h.1, h.2]

theorem convertData_quiet (hquiet : QuietUnlessTerminal convert isError)
    (hbroken : ¬Broken parse frame)
    (hcut : ∀ event, frameEvent parse frame = some event → eventType event ∉ terminalTypes)
    (s : σ) : ∃ events : List ε, (convertData parse convert frame).events s = events.map .ok ∧
      ∀ e ∈ events, isError e = false := by
  unfold convertData
  by_cases hdone : frame = doneMark
  · exact ⟨[], by simp [hdone]⟩
  · rcases hparse : parse frame with _ | event
    · exact absurd ⟨hdone, hparse⟩ hbroken
    · refine ⟨(convert event).events s, by simp [hdone], (hquiet event (hcut event ?_)).events_of s⟩
      rw [frameEvent, if_neg hdone, hparse]

variable {frames : List Bytes}

theorem lastBroken_append {last : Bytes} (hlast : ¬Broken parse last) (s : σ) :
    LastBroken parse convert s (frames ++ [last]) ↔
      LastBroken parse convert s frames ∧
        (convertData parse convert last).events
          ((Emit.each (convertData parse convert) frames).state s) = [] := by
  -- the frames after a broken one find the converter as the frames before it left it
  have hstate : ∀ before frame after, Broken parse frame →
      (Emit.each (convertData parse convert) (before ++ frame :: after)).state s =
        (Emit.each (convertData parse convert) after).state
          ((Emit.each (convertData parse convert) before).state s) := by
    intro before frame after hbroken
    rw [Emit.state_each_append, Emit.state_each_cons, (convertData_broken hbroken _).1]
  constructor
  · rintro ⟨before, frame, after, hframes, hbroken, hsilent⟩
    rcases List.eq_nil_or_concat after with rfl | ⟨after, last', rfl⟩
    · obtain ⟨-, hone⟩ := List.append_inj' hframes rfl
      cases hone
      exact absurd hbroken hlast
    · rw [List.concat_eq_append, ← List.cons_append, ← List.append_assoc] at hframes
      obtain ⟨rfl, hone⟩ := List.append_inj' hframes rfl
      cases hone
      rw [List.concat_eq_append, Emit.events_each_append, List.append_eq_nil_iff] at hsilent
      refine ⟨⟨before, frame, after, rfl, hbroken, hsilent.1⟩, ?_⟩
      rw [hstate before frame after hbroken]
      simpa using hsilent.2
  · rintro ⟨⟨before, frame, after, rfl, hbroken, hsilent⟩, hone⟩
    refine ⟨before, frame, after ++ [last], by simp, hbroken, ?_⟩
    rw [hstate before frame after hbroken] at hone
    simp [Emit.events_each_append, hsilent, hone]

/-- The frames alone end in an error if the last answered one is broken. -/
theorem endsInError_each_iff (hquiet : QuietUnlessTerminal convert isError)
    (hcut : ∀ frame ∈ frames, ∀ event, frameEvent parse frame = some event →
      eventType event ∉ terminalTypes) (s : σ) :
    EndsInError isError ((Emit.each (convertData parse convert) frames).events s) ↔
      LastBroken parse convert s frames := by
  induction frames using List.reverseRecOn with
  | nil => simp [not_endsInError_nil, LastBroken]
  | append_singleton frames last ih =>
    have hevents : (Emit.each (convertData parse convert) (frames ++ [last])).events s =
        (Emit.each (convertData parse convert) frames).events s ++
          (convertData parse convert last).events
            ((Emit.each (convertData parse convert) frames).state s) := by
      simp [Emit.events_each_append]
    rw [hevents]
    by_cases hlast : Broken parse last
    · rw [(convertData_broken hlast _).2]
      exact iff_of_true (endsInError_append_error _ _)
        ⟨frames, last, [], rfl, hlast, rfl⟩
    · obtain ⟨events, hanswer, hnone⟩ := convertData_quiet hquiet hlast
        (hcut last (by simp)) ((Emit.each (convertData parse convert) frames).state s)
      rw [lastBroken_append hlast, hanswer]
      rcases events with _ | ⟨e, events⟩
      · simpa using ih fun frame hframe => hcut frame (by simp [hframe])
      · rw [endsInError_append (by simp)]
        exact iff_of_false (not_endsInError_of_quiet hnone) (by simp)

/-- The client's stream ends in an error exactly if the cut is noticed. -/
theorem endsInError_converted_iff (hquiet : QuietUnlessTerminal convert isError)
    {upstream : List StreamItem} (hcut : CutOff parse upstream) (s : σ) :
    EndsInError isError (converted parse convert s {} upstream) ↔
      Noticed parse convert s upstream := by
  unfold converted Noticed
  rcases hfailure : (received {} upstream).2 with _ | e
  · simpa using endsInError_each_iff hquiet hcut s
  · exact iff_of_true (endsInError_append_error _ e) (.inl rfl)

end

/-! ## Claude -/

namespace Claude

def Event.isError : Event → Bool
  | .error _ _ => true
  | _ => false

abbrev Calm {α : Type} (f : Convert α) : Prop := Emit.Emits (fun e => e.isError = false) f

open Emit.Emits

theorem calm_emitSignature (index : ℕ) : Calm (emitSignature index) :=
  bind of_get fun _ => withSome fun _ => bind (of_modify _) fun _ => of_emit rfl

theorem calm_closeBlock : Calm closeBlock := by
  refine bind of_get fun s => withSome fun block => ?_
  refine bind (of_modify _) fun _ => bind (when (calm_emitSignature block.index)) fun _ => ?_
  exact bind (of_emit rfl) fun _ => of_modify _

theorem calm_startThinking : Calm startThinking :=
  bind of_get fun _ => when <| bind calm_closeBlock fun _ => bind of_get fun _ =>
    bind (of_emit rfl) fun _ => of_modify _

theorem calm_startText : Calm startText :=
  bind of_get fun _ => when <| bind calm_closeBlock fun _ => bind of_get fun _ =>
    bind (of_emit rfl) fun _ => of_modify _

theorem calm_startTool (callId name : String) (signature : Option String) :
    Calm (startTool callId name signature) :=
  bind calm_closeBlock fun _ => bind of_get fun _ => bind of_get fun _ =>
    bind (of_emit rfl) fun _ => of_modify _

theorem calm_emitToolArguments (arguments : String) : Calm (emitToolArguments arguments) := by
  refine bind of_get fun s => ?_
  split
  · exact bind (of_emit rfl) fun _ => of_modify _
  · exact of_pure ()

theorem calm_emitWebSearch (render : Json → String) (item : Json) :
    Calm (emitWebSearch render item) := by
  refine bind calm_closeBlock fun _ => ?_
  refine bind of_get fun _ => ?_
  refine bind (of_emit rfl) fun _ => ?_
  refine bind (when (of_emit rfl)) fun _ => ?_
  refine bind (of_emit rfl) fun _ => ?_
  refine bind (of_modify _) fun _ => ?_
  refine bind (of_emit rfl) fun _ => ?_
  refine bind (of_emit rfl) fun _ => ?_
  exact of_modify _

theorem calm_outputItemAdded (event : Json) : Calm (outputItemAdded event) := by
  unfold outputItemAdded
  dsimp only
  split
  · exact of_modify _
  · exact bind calm_closeBlock fun _ => ite (of_modify _) (calm_startTool _ _ _)
  · exact of_pure ()

theorem calm_reasoningDone (item : Json) : Calm (reasoningDone item) :=
  bind (withSome fun _ => of_modify _) fun _ => bind of_get fun _ =>
    bind (when calm_startThinking) fun _ => bind of_get fun _ => when calm_closeBlock

theorem calm_messageDone (item : Json) : Calm (messageDone item) :=
  when <| bind calm_startText fun _ => bind of_get fun _ => bind (of_emit rfl) fun _ =>
    bind (of_modify _) fun _ => calm_closeBlock

theorem calm_startPendingTool (item : Json) : Calm (startPendingTool item) :=
  bind of_get fun _ => bind (of_modify _) fun _ => bind (calm_startTool _ _ _) fun _ =>
    withSome calm_emitToolArguments

theorem calm_functionCallDone (item : Json) : Calm (functionCallDone item) :=
  bind of_get fun _ => bind (when (calm_startPendingTool item)) fun _ => bind of_get fun _ =>
    bind (when (withSome calm_emitToolArguments)) fun _ => calm_closeBlock

theorem calm_outputItemDone (render : Json → String) (event : Json) :
    Calm (outputItemDone render event) := by
  unfold outputItemDone
  dsimp only
  split
  · exact calm_reasoningDone _
  · exact bind of_get fun _ => when (calm_messageDone _)
  · exact calm_functionCallDone _
  · exact calm_emitWebSearch render _
  · exact of_pure ()

theorem calm_functionArguments (event : Json) (isDelta : Bool) :
    Calm (functionArguments event isDelta) :=
  bind of_get fun _ => ite (when (calm_emitToolArguments _)) <|
    withSome fun _ => when (of_modify _)

theorem convert_quiet (render : Json → String) :
    QuietUnlessTerminal (convert render) Event.isError := by
  intro event hevent
  unfold convert
  split
  case h_1 | h_13 | h_14 | h_15 | h_16 | h_17 => simp_all [terminalTypes]
  · exact bind of_get fun _ => of_emit rfl
  · exact calm_outputItemAdded event
  · exact calm_startThinking
  · exact bind calm_startThinking fun _ => bind of_get fun _ => of_emit rfl
  · exact bind calm_startThinking fun _ => bind of_get fun _ => of_emit rfl
  · split
    · exact calm_startText
    · exact calm_startThinking
    · exact of_pure ()
  · exact bind calm_startText fun _ => bind (of_modify _) fun _ => bind of_get fun _ => of_emit rfl
  · exact when calm_closeBlock
  · exact calm_functionArguments event true
  · exact calm_functionArguments event false
  · exact calm_outputItemDone render event
  · exact of_pure ()

end Claude

/-! ## Chat Completions -/

namespace OpenAiChat

def Event.isError : Event → Bool
  | .error _ _ => true
  | _ => false

abbrev Calm {α : Type} (f : Convert α) : Prop := Emit.Emits (fun e => e.isError = false) f

open Emit.Emits

theorem calm_emitChunk (delta : List (String × Json)) (finishReason : Option String) :
    Calm (emitChunk delta finishReason) :=
  bind of_get fun _ => of_emit rfl

theorem calm_emitRole : Calm emitRole :=
  bind of_get fun _ => when <| bind (calm_emitChunk _ _) fun _ => of_modify _

theorem calm_toolIndex (key : String) : Calm (toolIndex key) := by
  refine bind of_get fun s => ?_
  split
  · exact of_pure _
  · exact bind (of_set _) fun _ => of_pure _

theorem calm_toolIndexForItem (item : Json) : Calm (toolIndexForItem item) :=
  bind of_get fun _ => bind (of_set _) fun _ => of_pure _

theorem calm_emitToolStart (item : Json) : Calm (emitToolStart item) :=
  bind calm_emitRole fun _ => bind (calm_toolIndexForItem item) fun _ =>
    bind (when (of_modify _)) fun _ => bind (of_modify _) fun _ => calm_emitChunk _ _

theorem calm_emitArguments (index : ℕ) (arguments : String) :
    Calm (emitArguments index arguments) :=
  bind (of_modify _) fun _ => calm_emitChunk _ _

theorem calm_emitToolArguments (event : Json) (delta : Bool) :
    Calm (emitToolArguments event delta) :=
  bind (calm_toolIndex _) fun _ => bind of_get fun _ => when <|
    bind (of_modify _) fun _ => calm_emitArguments _ _

theorem calm_messageDone (item : Json) : Calm (messageDone item) :=
  when <| bind calm_emitRole fun _ => bind (of_modify _) fun _ => calm_emitChunk _ _

theorem calm_functionCallDone (item : Json) : Calm (functionCallDone item) :=
  bind (calm_toolIndexForItem item) fun _ => bind of_get fun _ =>
    bind (when (calm_emitToolStart item)) fun _ => bind of_get fun _ =>
      withSome fun _ => when (calm_emitArguments _ _)

theorem calm_outputItemDone (event : Json) : Calm (outputItemDone event) := by
  unfold outputItemDone
  dsimp only
  split
  · exact bind of_get fun _ => when (calm_messageDone _)
  · exact calm_functionCallDone _
  · exact of_pure ()

theorem calm_reasoningDelta (event : Json) : Calm (reasoningDelta event) :=
  bind calm_emitRole fun _ => when <| bind (of_modify _) fun _ => calm_emitChunk _ _

theorem calm_textDelta (event : Json) : Calm (textDelta event) :=
  bind calm_emitRole fun _ => when <| bind (of_modify _) fun _ => calm_emitChunk _ _

theorem convert_quiet : QuietUnlessTerminal convert Event.isError := by
  intro event hevent
  unfold convert
  split
  case h_9 | h_10 | h_11 | h_12 | h_13 | h_14 => simp_all [terminalTypes]
  · exact bind (of_modify _) fun _ => calm_emitRole
  · exact calm_reasoningDelta event
  · exact calm_reasoningDelta event
  · exact calm_textDelta event
  · exact when (calm_emitToolStart _)
  · exact calm_emitToolArguments event true
  · exact calm_emitToolArguments event false
  · exact calm_outputItemDone event
  · exact of_pure ()

end OpenAiChat

/-! ## Chat Completions to Responses -/

namespace OpenAiResponses

def isFailure (numbered : NumberedEvent) : Bool :=
  match numbered.event with
  | .failed _ | .error _ _ _ => true
  | _ => false

/-- A choice that says why the response ended. -/
def choiceFinishes (choice : Json) : Bool :=
  isFirstChoice choice && (choice.text? "finish_reason").isSome

/-- No chunk of the upstream says why the response ended. -/
def Unfinished (parse : Bytes → Option Json) (upstream : List StreamItem) : Prop :=
  ∀ frame ∈ (received {} upstream).1, ∀ event, frameEvent parse frame = some event →
    ∀ choice ∈ (chunkChoices event).getD [], choiceFinishes choice = false

/-- How the response stands. -/
def standing (s : ChatEventConverter) : Bool × Option String := (s.terminal, s.finishReason)

open Emit.Keeps

variable (parse : Bytes → Option Json)

theorem keeps_emitEvent (event : ResponsesEvent) : Emit.Keeps standing (emitEvent event) :=
  bind of_get fun _ => bind (of_modify fun _ => rfl) fun _ => of_emit _

theorem keeps_takeOutputIndex : Emit.Keeps standing takeOutputIndex :=
  bind of_get fun _ => bind (of_modify fun _ => rfl) fun _ => of_pure _

theorem keeps_emitCreated : Emit.Keeps standing emitCreated :=
  bind of_get fun _ => when <| bind (of_modify fun _ => rfl) fun _ => bind of_get fun _ =>
    keeps_emitEvent _

theorem keeps_putTool (index : ℕ) (tool : ToolOutput) : Emit.Keeps standing (putTool index tool) :=
  of_modify fun _ => rfl

theorem keeps_toolAt (index : ℕ) (callId : Option String) (name : String) :
    Emit.Keeps standing (toolAt index callId name) := by
  refine bind of_get fun s => ?_
  split
  · exact of_pure _
  · exact bind keeps_takeOutputIndex fun _ => bind of_get fun _ => of_pure _

theorem keeps_extendTool (index : ℕ) (tool : ToolOutput) (arguments : String) :
    Emit.Keeps standing (extendTool parse index tool arguments) :=
  ite
    (bind (keeps_putTool _ _) fun _ => bind (keeps_emitEvent _) fun _ => when (keeps_emitEvent _))
    (bind (keeps_putTool _ _) fun _ => when (keeps_emitEvent _))

theorem keeps_emitToolDelta (toolCall : Json) :
    Emit.Keeps standing (emitToolDelta parse toolCall) := by
  refine bind of_get fun s => ite (of_modify fun _ => rfl) ?_
  refine bind (keeps_toolAt _ _ _) fun tool => ?_
  split
  · exact bind (keeps_putTool _ _) fun _ => of_modify fun _ => rfl
  · exact keeps_extendTool parse _ _ _

/-- A choice that does not say why the response ended leaves that open. -/
theorem keeps_convertChoice {choice : Json} (h : choiceFinishes choice = false) :
    Emit.Keeps standing (convertChoice parse choice) := by
  have hnone : ∀ reason ∈ choice.text? "finish_reason", isFirstChoice choice = false := by
    intro reason hreason
    rw [choiceFinishes, hreason] at h
    simpa using h
  have hpiece : ∀ part piece, Emit.Keeps standing (emitPiece part piece) := fun part =>
    keeps_emitPiece (fun _ _ => rfl) (fun _ _ => rfl) fun _ _ => by
      cases part <;> rfl
  unfold convertChoice
  cases hfirst : isFirstChoice choice with
  | false => exact of_pure ()
  | true =>
    refine bind keeps_emitCreated fun _ => bind (withSome fun delta _ => ?_) fun _ =>
      withSome fun reason hreason => absurd (hnone reason hreason) (by simp [hfirst])
    exact bind (withSome fun piece _ => hpiece _ piece) fun _ =>
      bind (withSome fun piece _ => hpiece _ piece) fun _ =>
        withSome fun calls _ => each fun call _ => keeps_emitToolDelta parse call

variable {event : Json} {α : Type}

theorem keeps_captureField {field : String} {read : Json → Option α}
    {invalid changed : String} {same : ChatEventConverter → α → Bool}
    {store : ChatEventConverter → α → ChatEventConverter}
    (hstore : ∀ s a, standing (store s a) = standing s) :
    Emit.Keeps standing (captureField event field read invalid changed same store) := by
  unfold captureField
  split
  · exact of_pure _
  · split
    · exact of_pure _
    · exact bind of_get fun _ => ite (of_pure _) <|
        bind (of_modify fun s => hstore s _) fun _ => of_pure _

theorem keeps_captureEnvelope (event : Json) : Emit.Keeps standing (captureEnvelope event) := by
  refine bind (keeps_captureField fun _ _ => rfl) fun failure => ?_
  split
  · exact of_pure _
  · refine bind (keeps_captureField fun _ _ => rfl) fun failure => ?_
    split
    · exact of_pure _
    · exact keeps_captureField fun _ _ => rfl

/-! ### The last word -/

/-- The response is over and the last word was a failure. -/
def FailedLast (f : Convert Unit) (s : ChatEventConverter) : Prop :=
  (f.state s).terminal = true ∧ ∃ before last, f.events s = before ++ [last] ∧ isFailure last = true

variable {s : ChatEventConverter}

theorem failedLast_fail (h : s.terminal = false) (message : String) : FailedLast (fail message) s :=
  ⟨by simp [fail, h], [], _, by simp [fail, emitEvent, h]; rfl, rfl⟩

variable {g : α → Convert Unit} {f : Convert α}

theorem FailedLast.after
    (h : FailedLast (g (f.result s)) (f.state s)) : FailedLast (f >>= g) s := by
  obtain ⟨hterminal, before, last, hevents, hfailure⟩ := h
  exact ⟨hterminal, f.events s ++ before, last, by simp [hevents], hfailure⟩

/-- The response is still open, or it failed and that was the last word. -/
def OpenOrFailed (f : Convert Unit) (s : ChatEventConverter) : Prop :=
  standing (f.state s) = (false, none) ∨ FailedLast f s

theorem OpenOrFailed.after
    (h : OpenOrFailed (g (f.result s)) (f.state s)) : OpenOrFailed (f >>= g) s :=
  h.imp id FailedLast.after

section

variable (hs : standing s = (false, none))

include hs

/-- A failure that is pending is the last word. -/
theorem failPending_unfinished : OpenOrFailed failPending s := by
  rcases hfailure : s.failure with _ | message
  · left
    simpa [failPending, hfailure] using hs
  · right
    have hopen : ({ s with failure := none } : ChatEventConverter).terminal = false :=
      congrArg Prod.fst hs
    simpa [failPending, FailedLast, hfailure] using failedLast_fail hopen message

variable (hchoices : ∀ choice ∈ (chunkChoices event).getD [], choiceFinishes choice = false)

include hchoices

theorem convertChunk_unfinished : OpenOrFailed (convertChunk parse event) s := by
  have husage : ∀ usage : Option Json, Emit.Keeps standing (Emit.withSome usage fun usage =>
      (modify ({ · with usage := some (responsesUsage usage) }) : Convert Unit)) :=
    fun usage => withSome fun _ _ => of_modify fun _ => rfl
  have hopen :=
    ((husage ((event.member? "usage").filter (·.toObj.isSome))).view_state s).trans hs
  refine OpenOrFailed.after ?_
  rcases hevent : chunkChoices event with _ | choices
  · exact .inl hopen
  · rw [hevent] at hchoices
    have hkeeps : Emit.Keeps standing (Emit.each (convertChoice parse) choices) :=
      each fun choice hchoice => keeps_convertChoice parse (hchoices choice hchoice)
    exact OpenOrFailed.after (failPending_unfinished ((hkeeps.view_state _).trans hopen))

/-- A chunk that does not say why the response ended leaves it open or fails it. -/
theorem convert_unfinished : OpenOrFailed (convert parse event) s := by
  unfold convert
  rcases chunkError event with _ | error
  · have henvelope := ((keeps_captureEnvelope event).view_state s).trans hs
    refine OpenOrFailed.after ?_
    rcases (captureEnvelope event).result s with _ | message
    · exact convertChunk_unfinished parse henvelope hchoices
    · have hcreated := (keeps_emitCreated.view_state _).trans henvelope
      exact OpenOrFailed.after (.inr (failedLast_fail (congrArg Prod.fst hcreated) message))
  · refine OpenOrFailed.after (.inr ?_)
    exact ⟨rfl, [], _, by simp [emitEvent]; rfl, rfl⟩

end

variable {r : Reading} (hr : standing r.converter = (false, none))

include hr

/-- An upstream that ends while the response is open is an error. -/
theorem finishStream_unfinished : (finishStream parse).events r = [.error endedEarlyError] := by
  have hterminal : r.converter.terminal = false := congrArg Prod.fst hr
  have hreason : r.converter.finishReason = none := congrArg Prod.snd hr
  simp [finishStream, hterminal, hreason]

variable (hreading : r.upstreamDone = false)

include hreading

/-- A frame that does not say why the response ended leaves it open or is answered with an error
at the last. -/
theorem convertFrame_unfinished {frame : Bytes}
    (hframe : ∀ event, frameEvent parse frame = some event →
      ∀ choice ∈ (chunkChoices event).getD [], choiceFinishes choice = false) :
    (standing ((convertFrame parse frame).state r).converter = (false, none) ∧
        ((convertFrame parse frame).state r).upstreamDone = false) ∨
      ((convertFrame parse frame).state r).converter.terminal = true ∧
        EndsInError isFailure ((convertFrame parse frame).events r) := by
  have hopen : r.converter.terminal = false := congrArg Prod.fst hr
  have hconverting : ∀ {f : Convert Unit},
      (convertFrame parse frame).SameAt (converting f) r → FailedLast f r.converter →
      ((convertFrame parse frame).state r).converter.terminal = true ∧
        EndsInError isFailure ((convertFrame parse frame).events r) := by
    rintro _ ⟨hstate, hevents⟩ ⟨hterminal, _, last, hlast, hfailure⟩
    rw [hstate, hevents, events_converting, hlast]
    refine ⟨hterminal, .ok last, by simp, ?_⟩
    rintro _ ⟨⟩
    exact hfailure
  obtain ⟨-, hreason, -⟩ | ⟨-, -, hsame⟩ | ⟨hdone, event, hparse, hsame⟩ | ⟨-, -, hsame⟩ :=
    convertFrame_cases parse hopen frame
  · have hnone : r.converter.finishReason = none := congrArg Prod.snd hr
    simp [hnone] at hreason
  · exact .inr (hconverting hsame (failedLast_fail hopen _))
  · have hevent : frameEvent parse frame = some event := by rw [frameEvent, if_neg hdone, hparse]
    rcases convert_unfinished parse hr (hframe event hevent) with hstanding | hlast
    · rw [hsame.1]
      exact .inl ⟨hstanding, hreading⟩
    · exact .inr (hconverting hsame hlast)
  · rw [hsame.1, hsame.2]
    exact .inr ⟨rfl, endsInError_append_error [] _⟩

/-- After frames that do not say why the response ended. -/
theorem frames_unfinished {frames : List Bytes}
    (hframes : ∀ frame ∈ frames, ∀ event, frameEvent parse frame = some event →
      ∀ choice ∈ (chunkChoices event).getD [], choiceFinishes choice = false) :
    (standing (readingAfter parse r frames).converter = (false, none) ∧
        (readingAfter parse r frames).upstreamDone = false) ∨
      (readingAfter parse r frames).converter.terminal = true ∧
        EndsInError isFailure ((Emit.each (convertFrame parse) frames).events r) := by
  induction frames generalizing r with
  | nil => exact .inl ⟨hr, hreading⟩
  | cons frame frames ih =>
    rw [List.forall_mem_cons] at hframes
    rcases convertFrame_unfinished parse hr hreading hframes.1 with ⟨hr', hreading'⟩ | ⟨ht, hend⟩
    · refine (ih hr' hreading' hframes.2).imp id fun ⟨hterminal, hlast⟩ => ⟨hterminal, ?_⟩
      have hne : (Emit.each (convertFrame parse) frames).events
          ((convertFrame parse frame).state r) ≠ [] := by
        intro hnil
        rw [hnil] at hlast
        exact not_endsInError_nil hlast
      rw [Emit.events_each_cons, endsInError_append hne]
      exact hlast
    · obtain ⟨hstate, hevents⟩ := each_of_terminal parse ht frames
      right
      rw [readingAfter, Emit.state_each_cons, Emit.events_each_cons, hstate, hevents,
        List.append_nil]
      exact ⟨ht, hend⟩

omit hr hreading in
/-- A Chat Completions upstream that is cut off always ends in an error. -/
theorem endsInError_told {upstream : List StreamItem} (h : Unfinished parse upstream)
    (model : String) (targets : ToolTargets) :
    EndsInError isFailure (told parse { model, targets } upstream) := by
  have hstart : standing (Reading.mk { model, targets } false).converter = (false, none) := rfl
  unfold told closing
  rcases frames_unfinished parse hstart rfl h with ⟨hopen, hreading⟩ | ⟨hterminal, hend⟩
  · rw [hreading, if_neg Bool.false_ne_true]
    rcases (received {} upstream).2 with _ | e
    · exact (finishStream_unfinished parse hopen).symm ▸ endsInError_append_error _ _
    · exact endsInError_append_error _ e
  · split
    · rw [List.append_nil]
      exact hend
    · rcases (received {} upstream).2 with _ | e
      · simpa [finishStream, hterminal] using hend
      · exact endsInError_append_error _ e

end OpenAiResponses

/-! ## The three adapters -/

/-- An upstream that is cut off: the Claude and the Chat Completions client see an error at the end
exactly if the cut is noticed, the Responses client always. -/
theorem cut_off_told_iff (parse : Bytes → Option Json) (render : Json → String) :
    (∀ (model : String) (toolNames : List (String × String)) (upstream : List StreamItem),
      CutOff parse upstream → ∃ items : List (ClientItem Claude.Event),
        (∀ items', Unfold.Reads (StreamAdapter.nextOutput parse (Claude.convert render))
          (.start { model, toolNames } upstream) items' ↔ items' = items) ∧
        (EndsInError Claude.Event.isError items ↔
          Noticed parse (Claude.convert render) { model, toolNames } upstream)) ∧
    (∀ (model : String) (includeUsage : Bool) (upstream : List StreamItem),
      CutOff parse upstream → ∃ items : List (ClientItem OpenAiChat.Event),
        (∀ items', Unfold.Reads (StreamAdapter.nextOutput parse OpenAiChat.convert)
          (.start { model, includeUsage } upstream) items' ↔ items' = items) ∧
        (EndsInError OpenAiChat.Event.isError items ↔
          Noticed parse OpenAiChat.convert { model, includeUsage } upstream)) ∧
    ∀ (model : String) (targets : OpenAiResponses.ToolTargets) (upstream : List StreamItem),
      OpenAiResponses.Unfinished parse upstream → ∃ items : List OpenAiResponses.Item,
        (∀ items', Unfold.Reads (OpenAiResponses.ChatStreamAdapter.nextOutput parse)
          (.start { model, targets } upstream) items' ↔ items' = items) ∧
        EndsInError OpenAiResponses.isFailure items :=
  ⟨fun _ _ _ hcut => ⟨_, fun _ => StreamAdapter.reads_iff,
      endsInError_converted_iff (Claude.convert_quiet render) hcut _⟩,
    fun _ _ _ hcut => ⟨_, fun _ => StreamAdapter.reads_iff,
      endsInError_converted_iff OpenAiChat.convert_quiet hcut _⟩,
    fun model targets _ hunfinished => ⟨_,
      fun _ => OpenAiResponses.ChatStreamAdapter.reads_iff parse,
      OpenAiResponses.endsInError_told parse hunfinished model targets⟩⟩

def createdText : String := "\x7b\"type\":\"response.created\"\x7d"

def createdOnly : List StreamItem := [.ok (Text.ascii ("data: " ++ createdText ++ "\n\n"))]

def parseCreated (data : Bytes) : Option Json :=
  if data = Text.ascii createdText then some (.obj [("type", .str "response.created")]) else none

theorem received_createdOnly : received {} createdOnly = ([Text.ascii createdText], none) := rfl

theorem cutOff_createdOnly : CutOff parseCreated createdOnly := by
  intro frame hframe event hevent
  rw [received_createdOnly, List.mem_singleton] at hframe
  subst hframe
  obtain rfl : Json.obj [("type", .str "response.created")] = event := Option.some.inj hevent
  decide

theorem cut_off_told_failure : ∃ items,
    Unfold.Reads (StreamAdapter.nextOutput parseCreated (Claude.convert fun _ => ""))
      (.start { model := "model", toolNames := [] } (createdOnly ++ [.error frameTooLargeError]))
      items ∧ EndsInError Claude.Event.isError items := by
  have hcut : CutOff parseCreated (createdOnly ++ [.error frameTooLargeError]) := by
    intro frame hframe event hevent
    exact cutOff_createdOnly frame hframe event hevent
  obtain ⟨items, hreads, htold⟩ :=
    (cut_off_told_iff parseCreated fun _ => "").1 "model" [] _ hcut
  exact ⟨items, (hreads items).mpr rfl, htold.mpr (.inl rfl)⟩

/-- The upstream ends after its first event and both clients see a stream that ends well. -/
theorem cut_off_unnoticed :
    CutOff parseCreated createdOnly ∧
    (∃ items, Unfold.Reads (StreamAdapter.nextOutput parseCreated (Claude.convert fun _ => ""))
        (.start { model := "model", toolNames := [] } createdOnly) items ∧
      items = [.ok (.messageStart "" "model")] ∧ ¬EndsInError Claude.Event.isError items) ∧
    ∃ items, Unfold.Reads (StreamAdapter.nextOutput parseCreated OpenAiChat.convert)
        (.start { model := "model", includeUsage := false } createdOnly) items ∧
      items.length = 1 ∧ ¬EndsInError OpenAiChat.Event.isError items := by
  refine ⟨cutOff_createdOnly, ⟨_, StreamAdapter.reads_iff.mpr rfl, rfl, ?_⟩,
    ⟨_, StreamAdapter.reads_iff.mpr rfl, rfl, ?_⟩⟩
  · exact not_endsInError_singleton rfl
  · exact not_endsInError_singleton rfl

end ProviderCore.Protocol
