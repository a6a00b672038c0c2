import ProviderCore.Protocol.OpenAiResponses.Underway

/-!
# The grammar of the converted stream

Completing the response closes the open items one by one into the converter's output (`Closing`).
-/

namespace ProviderCore.Protocol.OpenAiResponses

open List
open Emit (Triple Invariant)

/-! ## Endings -/

/-- The items of a stream that came to its end. -/
structure Accounted (events : List ResponsesEvent) (response : Json) : Prop where
  contiguous : (added events).Perm (range (added events).length)
  done_once : ((doneItems events).map (·.1)).Perm (added events)
  texts : ∀ done ∈ doneItems events, ∀ type ∈ textTypes, done.2.text? "type" = some type →
    itemText done.2 = some (deltas done.1 events) ∧
      doneTexts done.1 events = [deltas done.1 events]
  output : ∃ entries : List (ℕ × Json), entries.Perm (doneItems events) ∧
    entries.Pairwise (fun done done' => done.1 < done'.1) ∧
      response.member? "output" = some (.arr (entries.map (·.2)))

/-- A stream that was created and has ended. -/
structure Concluded (log : List NumberedEvent) : Prop where
  numbered : Numbered log
  begun : BegunOnce (bare log)
  indexes : (added (bare log)).Nodup
  terminalLast : TerminalLast (bare log)
  accounted : ∀ event ∈ bare log, ∀ response ∈ event.completion, Accounted (bare log) response
  ended : ∃ before last, bare log = before ++ [last] ∧ last.isTerminal = true

abbrev Ended (log : List NumberedEvent) (s : ChatEventConverter) : Prop :=
  s.terminal = true ∧ Concluded log

section

variable {log : List NumberedEvent} {s : ChatEventConverter}

variable {event : ResponsesEvent}

theorem Told.concluded {opened : List Slot} {closed : List (Slot × Json)}
    (h : Told log s opened closed) (hlast : event.Last)
    (haccounted : ∀ response ∈ event.completion, Accounted (bare log ++ [event]) response) :
    Concluded (log ++ [⟨s.sequence, event⟩]) where
  numbered := h.spoken.numbered_append event
  begun := h.spoken.begun_append hlast.created
  indexes := by simpa using (h.ledger.neutral hlast.neutral).nodup
  terminalLast := by simpa using terminalLast_append h.spoken.quiet event
  accounted event' hmem response hresponse := by
    rw [bare_append, bare_singleton, mem_append, mem_singleton] at hmem
    obtain hmem | rfl := hmem
    · rw [completion_of_quiet (h.spoken.quiet event' hmem)] at hresponse
      cases hresponse
    · simpa using haccounted response hresponse
  ended := ⟨bare log, event, by simp, hlast.terminal⟩

theorem concluded_event (hlast : event.Last) (hcompletion : event.completion = none) :
    Triple Ongoing
      (do
        emitEvent event
        modify ({ · with terminal := true }) : Convert PUnit)
      fun _ => Ended := by
  refine ⟨fun log s h => ⟨rfl, ?_⟩⟩
  simpa using h.told.concluded hlast fun _ h => by
    rw [hcompletion] at h
    cases h

theorem concluded_fail (message : String) :
    Triple Ongoing (fail message) fun _ => Ended := by
  refine ⟨fun log s h => ?_⟩
  have hlast : (ResponsesEvent.failed (failedResponse s message)).Last := {}
  simpa [fail, h.told.unended] using (concluded_event hlast rfl).run log s h

end

/-! ## Completing -/

/-- All calls are added; the items that are not open any more are in the output. -/
def Closing (opened : List Slot) (log : List NumberedEvent) (s : ChatEventConverter) : Prop :=
  ∃ closed, Told log s opened closed ∧ (added (bare log)).Perm (range s.nextOutputIndex) ∧
    (closed.map fun c => (c.1.index, c.2)).Perm s.output.entries ∧
      ∀ c ∈ closed, Settled c.1 c.2

section

variable {slot : Slot} {opened : List Slot}

/-- An event that neither adds nor ends an item. -/
theorem closing_emit {event : ResponsesEvent} {opened' : List Slot}
    (hcreated : event.isCreated = false) (hterminal : event.isTerminal = false)
    (hadded : event.addedIndex = none)
    (hledger : ∀ log closed, Ledger log opened closed → Ledger (log ++ [event]) opened' closed) :
    Triple (Closing opened) (emitEvent event) fun _ => Closing opened' := by
  refine ⟨fun log s ⟨closed, htold, htaken, hrest⟩ => ?_⟩
  exact ⟨closed, htold.emit hcreated hterminal (hledger _ _ htold.ledger),
    by simpa [hadded] using htaken, hrest⟩

theorem closing_textDone (channel : Channel) (itemId text : String) :
    Triple (Closing (slot :: opened)) (emitEvent (.textDone channel itemId slot.index text))
      fun _ => Closing ({ slot with told := slot.told ++ [text] } :: opened) :=
  closing_emit rfl rfl rfl fun _ _ h => h.tell channel itemId text

/-- An item is done and goes to the output. -/
theorem closing_itemDone {item : Json} (hsettled : Settled slot item) :
    Triple (Closing (slot :: opened))
      (do
        emitEvent (.itemDone slot.index item)
        modify fun s => { s with output := s.output.insert slot.index item } : Convert PUnit)
      fun _ => Closing opened := by
  refine ⟨fun log s ⟨closed, htold, htaken, houtput, hclosed⟩ => ?_⟩
  have hnew : slot.index ∉ s.output.entries.map (·.1) := by
    intro hmem
    rw [← (houtput.map _).mem_iff, map_map] at hmem
    obtain ⟨c, hc, hindex⟩ := mem_map.mp hmem
    refine htold.ledger.ne_index c.1 ?_ hindex.symm
    exact mem_append_right _ (mem_map_of_mem hc)
  refine ⟨closed ++ [(slot, item)], ?_, by simpa [ResponsesEvent.addedIndex] using htaken, ?_, ?_⟩
  · exact (htold.emit rfl rfl (htold.ledger.close item)).congr rfl rfl rfl
  · rw [map_append]
    refine (perm_append_singleton _ _).trans (.trans (houtput.cons _) ?_)
    exact (OrderedMap.insert_perm_of_new hnew item).symm
  · exact forall_mem_append.mpr ⟨hclosed, forall_mem_singleton.mpr hsettled⟩

theorem itemText_partItem (part : Part) (itemId status text : String) :
    itemText (partItem part itemId status [partValue part text]) = some text := by
  have hjoin : String.join [text] = text := by simp
  cases part with
  | content | reasoningSummary => exact congrArg some hjoin

theorem closing_finishPart (part : Part) (opened : List Slot) :
    Triple (fun log s => Closing ((textOf s part).toList.map TextOutput.slot ++ opened) log s)
      (finishPart part) fun _ => Closing opened := by
  refine Triple.after_get fun a => ?_
  rcases htext : textOf a part with _ | output
  · refine .of_pure fun log s ⟨h, heq⟩ => ?_
    subst heq
    rwa [htext] at h
  · have hsettled : Settled { output.slot with told := [output.text] }
        (partItem part output.itemId "completed" [partValue part output.text]) :=
      fun _ _ _ => ⟨itemText_partItem part _ _ _, rfl⟩
    have hstart : Triple
        (fun log s => Closing ((textOf s part).toList.map TextOutput.slot ++ opened) log s ∧ a = s)
        (modify fun s => setText s none part : Convert PUnit)
        fun _ => Closing (output.slot :: opened) := by
      refine .of_modify fun log s ⟨h, heq⟩ => ?_
      subst heq
      rw [htext] at h
      obtain ⟨closed, htold, hrest⟩ := h
      cases part <;> exact ⟨closed, htold.congr rfl rfl rfl, hrest⟩
    refine hstart.bind fun _ => ?_
    refine (closing_textDone (partChannel part) output.itemId output.text).bind fun _ => ?_
    refine (closing_emit rfl rfl rfl fun _ _ h => h.neutral {}).bind fun _ => ?_
    exact closing_itemDone hsettled

variable (parse : Bytes → Option Json)

theorem isFunction_of_isCustom {target : ToolTarget} (h : target.isCustom = true) :
    target.isFunction = false := by
  cases target with
  | nested _ _ custom => cases custom with
    | true => rfl
    | false => cases h
  | _ => first | rfl | cases h

/-- The item of a call has the text that the call ends with, if it has one. -/
theorem settled_toolItem (tool : ToolOutput) :
    Settled
      { index := tool.outputIndex
        streamed := if tool.target.isCustom then (toolText parse tool).2 else tool.slot.streamed
        told := [(toolText parse tool).2] }
      (toolItem parse tool "completed" true) := by
  intro type htype hitem
  obtain ⟨_, _, _, _, _, target, _⟩ := tool
  cases target with
  | function | custom => exact ⟨rfl, rfl⟩
  | nested _ _ custom =>
    cases custom with
    | true | false => exact ⟨rfl, rfl⟩
  | localShell | applyPatch | toolSearch =>
    -- these calls are items without a text
    obtain rfl := Option.some.inj hitem
    simp [textTypes] at htype

theorem closing_finishTool (tool : ToolOutput) :
    Triple (Closing (tool.slot :: opened)) (finishTool parse tool) fun _ => Closing opened := by
  have hsettled := settled_toolItem parse tool
  unfold finishTool
  rcases hcustom : tool.target.isCustom with _ | _
  · rw [hcustom] at hsettled
    refine .seq .skip fun _ => ?_
    refine (closing_textDone _ tool.itemId _).bind fun _ => ?_
    exact closing_itemDone hsettled
  · have hstreamed : tool.slot.streamed = "" := by
      simp [ToolOutput.slot, isFunction_of_isCustom hcustom]
    rw [hcustom, if_pos rfl] at hsettled
    refine (closing_emit rfl rfl rfl fun _ _ h => h.piece _ _ _).bind fun _ => ?_
    refine (closing_textDone _ tool.itemId _).bind fun _ => ?_
    rw [hstreamed, String.empty_append]
    exact closing_itemDone hsettled

theorem closing_finishEach (tools : List ToolOutput) :
    Triple (Closing (tools.map ToolOutput.slot)) (Emit.each (finishTool parse) tools)
      fun _ => Closing [] := by
  induction tools with
  | nil => exact .skip
  | cons tool _ ih => exact (closing_finishTool parse tool).bind fun _ => ih

theorem closing_finishTools :
    Triple (fun log s => Closing (s.tools.values.map ToolOutput.slot) log s) (finishTools parse)
      fun _ => Closing [] := by
  refine Triple.after_get fun a =>
    .bind (Q := fun _ => Closing (a.tools.values.map ToolOutput.slot))
      (.of_modify fun log s ⟨h, heq⟩ => ?_) fun _ => closing_finishEach parse a.tools.values
  subst heq
  obtain ⟨closed, htold, hrest⟩ := h
  exact ⟨closed, htold.congr rfl rfl rfl, hrest⟩

variable {s : ChatEventConverter} {log : List NumberedEvent}

theorem accounted_of_closing {response : Json} {event : ResponsesEvent} (h : Closing [] log s)
    (hneutral : event.Neutral)
    (hresponse : response.member? "output" = some (.arr s.output.values)) :
    Accounted (bare log ++ [event]) response := by
  obtain ⟨_, htold, htaken, houtput, hsettled⟩ := h
  have hledger := htold.ledger.neutral hneutral
  have hindexes : (added (bare log ++ [event])).Perm (range s.nextOutputIndex) := by
    simpa [hneutral.added] using htaken
  refine ⟨?_, ?_, ?_, s.output.entries, ?_, s.output.sorted, hresponse⟩
  · rw [hindexes.length_eq, length_range]
    exact hindexes
  · have hdone := hledger.indexes.symm
    rw [nil_append, map_map] at hdone
    rw [hledger.done, map_map]
    exact hdone
  · intro done hdone type htype hitem
    rw [hledger.done] at hdone
    obtain ⟨c, hc, rfl⟩ := mem_map.mp hdone
    obtain ⟨hstreamed, htold⟩ := hledger.texts c.1 (mem_map_of_mem hc)
    rw [hstreamed, htold]
    exact hsettled c hc type htype hitem
  · rw [hledger.done]
    exact houtput.symm

theorem concluded_completion (reason : Option String) :
    Triple (Closing [])
      (do
        emitEvent (completion (← get) reason)
        modify ({ · with terminal := true }) : Convert PUnit)
      fun _ => Ended := by
  refine ⟨fun log s h => ⟨rfl, ?_⟩⟩
  have hlast : (completion s reason).Last := by cases reason <;> exact {}
  obtain ⟨_, htold, -⟩ := id h
  simpa using htold.concluded hlast fun response hresponse =>
    accounted_of_closing h hlast.neutral <| by
      cases reason with
      | none | some =>
        obtain rfl := Option.some.inj hresponse
        rfl

/-- Ending one text leaves the other items alone. -/
theorem keeps_finishPart {τ : Type} {view : ChatEventConverter → τ} {part : Part}
    (hsequence : ∀ s n, view { s with sequence := n } = view s)
    (houtput : ∀ s output, view { s with output } = view s)
    (htext : ∀ s output, view (setText s output part) = view s) :
    Emit.Keeps view (finishPart part) := by
  have hemit : ∀ event, Emit.Keeps view (emitEvent event) := fun event => ⟨fun s => hsequence s _⟩
  refine .bind .of_get fun s => .withSome fun output _ => ?_
  refine .bind (.of_modify fun s => htext s _) fun _ => .bind (hemit _) fun _ => ?_
  refine .bind (hemit _) fun _ => .bind (hemit _) fun _ => ?_
  exact .of_modify fun s => houtput s _

/-- A response whose calls are all added can be completed. -/
theorem closing_of_ongoing (h : Ongoing log s)
    (hstarted : s.tools.values.any (!·.started) = false) :
    Closing (s.reasoning.toList.map TextOutput.slot ++ (s.text.toList.map TextOutput.slot ++
      s.tools.values.map ToolOutput.slot)) log s := by
  have hall : ∀ tool ∈ s.tools.values, tool.started = true := by simpa using hstarted
  have hslots : openSlots s s.tools.values = s.reasoning.toList.map TextOutput.slot ++
      (s.text.toList.map TextOutput.slot ++ s.tools.values.map ToolOutput.slot) := by
    rw [openSlots, textSlots, toolSlots, filter_eq_self.mpr hall, map_append, append_assoc]
  have hwaiting : waiting s.tools.values = [] := by
    rw [waiting, filter_eq_nil_iff.mpr fun tool hmem => by simp [hall tool hmem]]
    rfl
  have htaken := h.taken
  rw [hwaiting, append_nil] at htaken
  refine ⟨[], hslots ▸ h.told, ?_, ?_, fun _ hc => by cases hc⟩
  · simpa using h.told.ledger.indexes.trans (by simpa using htaken)
  · rw [h.output]
    exact .refl _

theorem concluded_finish (reason : Option String) :
    Triple (fun log s => Ongoing log s ∧ s.tools.values.any (!·.started) = false)
      (do
        finishReasoning
        finishText
        finishTools parse
        emitEvent (completion (← get) reason)
        modify ({ · with terminal := true }) : Convert PUnit)
      fun _ => Ended := by
  refine ⟨fun log s ⟨h, hstarted⟩ => ?_⟩
  have hkeepsRest : Emit.Keeps (fun s => (s.text, s.tools)) finishReasoning :=
    keeps_finishPart (fun _ _ => rfl) (fun _ _ => rfl) fun _ _ => rfl
  have hkeepsTools : Emit.Keeps (fun s => s.tools) finishText :=
    keeps_finishPart (fun _ _ => rfl) (fun _ _ => rfl) fun _ _ => rfl
  have hreasoning := (closing_finishPart .reasoningSummary (s.text.toList.map TextOutput.slot ++
    s.tools.values.map ToolOutput.slot)).frame hkeepsRest (s.text, s.tools)
  have htext := (closing_finishPart .content (s.tools.values.map ToolOutput.slot)).frame
    hkeepsTools s.tools
  have hall := hreasoning.bind fun _ => (htext.pre
    (fun log s' ⟨hclosing, hview⟩ => by
      obtain ⟨hsame, htools⟩ := Prod.mk.inj hview
      exact ⟨by simpa [textOf, hsame] using hclosing, htools⟩)).bind fun _ =>
    ((closing_finishTools parse).pre (fun log s' ⟨hclosing, htools⟩ => by
      rwa [htools])).bind fun _ => concluded_completion reason
  exact hall.run log s ⟨closing_of_ongoing h hstarted, rfl⟩

theorem unended_of_going (h : Going log s) : s.terminal = false :=
  h.elim (·.terminal) (·.told.unended)

theorem concluded_complete : Triple Going (complete parse) fun _ => Ended := by
  refine Triple.after_get fun a => ?_
  rcases hterminal : a.terminal with _ | _
  case true =>
    refine ⟨fun log s ⟨h, heq⟩ => ?_⟩
    subst heq
    cases hterminal.symm.trans (unended_of_going h)
  case false =>
    refine ongoing_emitCreated.left.bind fun _ => Triple.after_get fun a => ?_
    split
    case isTrue => exact (concluded_fail _).left
    case isFalse hstarted =>
      split
      · exact (concluded_fail _).left
      · refine (concluded_finish parse _).pre fun log s ⟨h, heq⟩ => ⟨h, ?_⟩
        subst heq
        simpa using hstarted

/-- What a chunk leads to. -/
def ChunkDone (event : Json) (log : List NumberedEvent) (s : ChatEventConverter) : Prop :=
  (Untouched log s ∧ ∀ choice ∈ (chunkChoices event).getD [], isFirstChoice choice = false) ∨
    Ongoing log s ∨ s.terminal = true ∧ Concluded log

/-- No call can fail before the first choice. -/
theorem failPending_run {event : Json} :
    Triple (fun log s => (Untouched log s ∧
          ∀ choice ∈ (chunkChoices event).getD [], isFirstChoice choice = false) ∨ Ongoing log s)
      failPending fun _ => ChunkDone event := by
  refine Triple.after_get fun a => ?_
  rcases hfailure : a.failure with _ | message
  · exact .of_pure fun log s ⟨h, _⟩ => h.imp_right .inl
  · refine .bind (.of_modify fun log s ⟨h, heq⟩ => ?_) fun _ =>
      (concluded_fail message).post fun _ _ _ h => .inr (.inr h)
    subst heq
    rcases h with ⟨h, -⟩ | h
    · cases hfailure.symm.trans h.failure
    · exact h.congr_rest _ _ _ _ _ _

theorem convertChunk_run (event : Json) :
    Triple Going (convertChunk parse event) fun _ => ChunkDone event := by
  refine .seq (.withSome fun usage _ => .of_modify fun log s h =>
    h.imp (·.congr_rest _ _ _ _ _) (·.congr_rest _ _ _ _ _ _)) fun _ => ?_
  rcases hchoices : chunkChoices event with _ | choices
  · refine .of_pure fun log s h => h.imp (fun h => ⟨h, ?_⟩) .inl
    rw [hchoices]
    exact fun _ hmem => by cases hmem
  · refine (going_convertChoices parse choices).bind fun _ => failPending_run.pre
      (fun log s h => ?_)
    rwa [hchoices]

theorem convert_run (event : Json) :
    Triple Going (convert parse event) fun _ => ChunkDone event := by
  unfold convert
  split
  · exact ongoing_emitCreated.bind fun _ => (concluded_event {} rfl).post
      fun _ _ _ h => .inr (.inr h)
  · refine (going_captureEnvelope event).bind fun failed => ?_
    cases failed with
    | some message =>
      exact ongoing_emitCreated.bind fun _ => (concluded_fail message).post
        fun _ _ _ h => .inr (.inr h)
    | none => exact convertChunk_run parse event

end

/-! ## Frames -/

section

variable (parse : Bytes → Option Json)

/-- A frame that has nothing for the first choice. -/
def NoFirstChoice (frame : Bytes) : Prop :=
  ∀ event, parse frame = some event →
    ∀ choice ∈ (chunkChoices event).getD [], isFirstChoice choice = false

/-- The frames are over before the first choice: at their end, at the end mark, or at a frame that
is no JSON. -/
def OverBeforeChoice (frames : List Bytes) : Prop :=
  ∃ before after, frames = before ++ after ∧ (∀ frame ∈ before, NoFirstChoice parse frame) ∧
    (after = [] ∨ ∃ frame rest, after = frame :: rest ∧ (frame = doneMark ∨ parse frame = none))

/-- The grammar of the events that the frames are converted to. -/
structure Grammar (frames : List Bytes) (log : List NumberedEvent) : Prop where
  numbered : Numbered log
  created : BegunOnce (bare log) ∨
    (bare log = [] ∨ ∃ response, bare log = [.failed response]) ∧ OverBeforeChoice parse frames
  indexes : (added (bare log)).Nodup
  terminalLast : TerminalLast (bare log)
  accounted : ∀ event ∈ bare log, ∀ response ∈ event.completion, Accounted (bare log) response

/-- The stream ends with a terminal event or an error. -/
def Ends (log : List NumberedEvent) (failure : Option ProviderError) : Prop :=
  failure.isSome = true ∨ ∃ before last, bare log = before ++ [last] ∧ last.isTerminal = true

/-- How the adapter stands after some frames: it is going on, or it has ended and nothing that
follows matters. -/
def Stands (seen : List Bytes) (items : List Item) (r : Reading) : Prop :=
  (∃ log, items = log.map .ok ∧ r.upstreamDone = false ∧
    ((Untouched log r.converter ∧ ∀ frame ∈ seen, NoFirstChoice parse frame) ∨
      Ongoing log r.converter)) ∨
  r.converter.terminal = true ∧ ∃ log failure,
    items = log.map .ok ++ (failure : Option ProviderError).toList.map .error ∧
      (∀ rest, Grammar parse (seen ++ rest) log) ∧ Ends log failure ∧
        (r.upstreamDone = false → failure = none)

variable {parse} {log : List NumberedEvent} {s : ChatEventConverter} {frames : List Bytes}

theorem Concluded.grammar (h : Concluded log) : Grammar parse frames log :=
  ⟨h.numbered, .inl h.begun, h.indexes, h.terminalLast, h.accounted⟩

theorem Ongoing.grammar (h : Ongoing log s) : Grammar parse frames log where
  numbered := h.told.spoken.numbered
  created := .inl h.told.spoken.begun
  indexes := h.told.ledger.nodup
  terminalLast before event after heq hterminal := by
    cases (h.told.spoken.quiet event (by simp [heq])).symm.trans hterminal
  accounted event hmem response hresponse := by
    rw [completion_of_quiet (h.told.spoken.quiet event hmem)] at hresponse
    cases hresponse

theorem OverBeforeChoice.grammar_nil (h : OverBeforeChoice parse frames) :
    Grammar parse frames [] where
  numbered := rfl
  created := .inr ⟨.inl rfl, h⟩
  indexes := .nil
  terminalLast before event after heq := by simp [bare] at heq
  accounted _ hmem := by cases hmem

theorem OverBeforeChoice.grammar_failed (h : OverBeforeChoice parse frames) (response : Json) :
    Grammar parse frames [⟨0, .failed response⟩] where
  numbered := rfl
  created := .inr ⟨.inr ⟨response, rfl⟩, h⟩
  indexes := .nil
  terminalLast := by
    have hquiet : ∀ event ∈ ([] : List ResponsesEvent), event.isTerminal = false :=
      fun _ hmem => by cases hmem
    exact terminalLast_append hquiet _
  accounted event hmem response' hresponse := by
    rw [mem_singleton.mp hmem] at hresponse
    cases hresponse

variable {seen rest : List Bytes} {frame : Bytes}

theorem overBeforeChoice_of_stop (h : ∀ frame ∈ seen, NoFirstChoice parse frame)
    (hstop : frame = doneMark ∨ parse frame = none) :
    OverBeforeChoice parse (seen ++ [frame] ++ rest) :=
  ⟨seen, frame :: rest, by simp, h, .inr ⟨frame, rest, rfl, hstop⟩⟩

variable {r : Reading}

/-- The events of a concluded conversion end the stream. -/
theorem Concluded.stands (h : Concluded log) (hterminal : r.converter.terminal = true) :
    Stands parse seen (log.map .ok) r :=
  .inr ⟨hterminal, log, none, by simp, fun _ => h.grammar, .inr h.ended, fun _ => rfl⟩

section

variable (h : (Untouched log r.converter ∧ ∀ frame ∈ seen, NoFirstChoice parse frame) ∨
  Ongoing log r.converter)

include h

theorem stands_fail (message : String) :
    Stands parse (seen ++ [doneMark])
      (log.map .ok ++ (converting (fail message)).events r)
      ((converting (fail message)).state r) := by
  rw [events_converting, ← map_append, state_converting]
  rcases h with ⟨h, hseen⟩ | h
  · obtain rfl := h.log
    refine .inr ⟨by simp [fail, h.terminal],
      [⟨0, .failed (failedResponse r.converter message)⟩], none, ?_, fun rest => ?_,
        .inr ⟨[], _, rfl, rfl⟩, fun _ => rfl⟩
    · simp [fail, h.terminal, h.sequence]
    · exact (overBeforeChoice_of_stop hseen (.inl rfl)).grammar_failed _
  · obtain ⟨hterminal, hconcluded⟩ := (concluded_fail message).run log r.converter h
    exact hconcluded.stands hterminal

theorem stands_convert {event : Json}
    (hreading : r.upstreamDone = false) (hparse : parse frame = some event) :
    Stands parse (seen ++ [frame])
      (log.map .ok ++ (converting (convert parse event)).events r)
      ((converting (convert parse event)).state r) := by
  rw [events_converting, ← map_append, state_converting]
  have hrun := (convert_run parse event).run log r.converter (h.imp_left (·.1))
  rcases hrun with ⟨huntouched, hchoices⟩ | hongoing | ⟨hterminal, hconcluded⟩
  · refine .inl ⟨_, rfl, hreading, .inl ⟨huntouched, fun frame' hmem => ?_⟩⟩
    rw [mem_append, mem_singleton] at hmem
    obtain hmem | rfl := hmem
    · rcases h with ⟨-, hseen⟩ | h
      · exact hseen frame' hmem
      · obtain ⟨_, _, hlog, -⟩ := h.told.spoken.begun
        rw [(append_eq_nil_iff.mp huntouched.log).1] at hlog
        cases hlog
    · intro event' hevent'
      obtain rfl := Option.some.inj (hparse.symm.trans hevent')
      exact hchoices
  · exact .inl ⟨_, rfl, hreading, .inr hongoing⟩
  · exact hconcluded.stands hterminal

theorem stands_giveUp (hparse : parse frame = none) :
    Stands parse (seen ++ [frame]) (log.map .ok ++ giveUp.events r) (giveUp.state r) := by
  refine .inr ⟨rfl, log, some invalidChunkError, rfl, fun rest => ?_, .inl rfl,
    fun hup => by cases hup⟩
  rcases h with ⟨h, hseen⟩ | h
  · obtain rfl := h.log
    exact (overBeforeChoice_of_stop hseen (.inr hparse)).grammar_nil
  · exact h.grammar

end

variable {items : List Item}

theorem stands_convertFrame (h : Stands parse seen items r) (frame : Bytes) :
    Stands parse (seen ++ [frame]) (items ++ (convertFrame parse frame).events r)
      ((convertFrame parse frame).state r) := by
  rcases h with ⟨log, rfl, hreading, h⟩ | ⟨hterminal, log, failure, rfl, hgrammar, hends, hdone⟩
  · have hgoing : Going log r.converter := h.imp_left (·.1)
    obtain ⟨-, -, heq⟩ | ⟨rfl, -, heq⟩ | ⟨-, event, hparse, heq⟩ | ⟨-, hparse, heq⟩ :=
      convertFrame_cases parse (unended_of_going hgoing) frame
    all_goals rw [heq.1, heq.2]
    · obtain ⟨hterminal, hconcluded⟩ := (concluded_complete parse).run log r.converter hgoing
      rw [events_converting, ← map_append]
      exact hconcluded.stands hterminal
    · exact stands_fail h _
    · exact stands_convert h hreading hparse
    · exact stands_giveUp h hparse
  · obtain ⟨hstate, hevents⟩ := convertFrame_of_terminal parse hterminal frame
    rw [hstate, hevents, append_nil]
    exact .inr ⟨hterminal, log, failure, rfl, fun rest => by simpa using hgrammar ([frame] ++ rest),
      hends, hdone⟩

theorem stands_each (h : Stands parse seen items r) (frames : List Bytes) :
    Stands parse (seen ++ frames) (items ++ (Emit.each (convertFrame parse) frames).events r)
      (readingAfter parse r frames) := by
  induction frames generalizing seen items r with
  | nil => simpa [readingAfter] using h
  | cons frame _ ih => simpa [readingAfter] using ih (stands_convertFrame h frame)

/-- What comes after the frames ends the stream. -/
theorem Stands.closing (h : Stands parse frames items r) (failure : Option ProviderError) :
    ∃ log failure', items ++ closing parse r failure =
        log.map .ok ++ (failure' : Option ProviderError).toList.map .error ∧
      Grammar parse frames log ∧ Ends log failure' := by
  rcases h with ⟨log, rfl, hreading, h⟩ | ⟨hterminal, log, failure', rfl, hgrammar, hends, hdone⟩
  · have hgoing : Going log r.converter := h.imp_left (·.1)
    have hgrammar : Grammar parse frames log := by
      rcases h with ⟨h, hseen⟩ | h
      · obtain rfl := h.log
        exact OverBeforeChoice.grammar_nil ⟨_, [], by simp, hseen, .inl rfl⟩
      · exact h.grammar
    have hopen := unended_of_going hgoing
    rcases failure with _ | e
    · rcases hreason : r.converter.finishReason with _ | reason
      · refine ⟨log, some endedEarlyError, ?_, hgrammar, .inl rfl⟩
        simp [closing, hreading, finishStream, hopen, hreason]
      · obtain ⟨-, hconcluded⟩ := (concluded_complete parse).run log r.converter hgoing
        refine ⟨_, none, ?_, hconcluded.grammar, .inr hconcluded.ended⟩
        simp [closing, hreading, finishStream, hopen, hreason]
    · refine ⟨log, some e, ?_, hgrammar, .inl rfl⟩
      simp [closing, hreading]
  · have hgrammar : Grammar parse frames log := by simpa using hgrammar []
    rcases hup : r.upstreamDone with _ | _
    · obtain rfl := hdone hup
      rcases failure with _ | e
      · refine ⟨log, none, ?_, hgrammar, hends⟩
        simp [closing, finishStream, hterminal]
      · refine ⟨log, some e, ?_, hgrammar, .inl rfl⟩
        simp [closing, hup]
    · refine ⟨log, failure', ?_, hgrammar, hends⟩
      simp [closing, hup]

end

/-- The stream that the adapter makes of any upstream ends, and it keeps to the Responses
protocol. -/
theorem chat_stream_grammar (parse : Bytes → Option Json) (model : String) (targets : ToolTargets)
    (upstream : List StreamItem) :
    ∃ log failure, Unfold.Reads (ChatStreamAdapter.nextOutput parse)
        (.start { model, targets } upstream)
        (log.map .ok ++ (failure : Option ProviderError).toList.map .error) ∧
      Grammar parse (received {} upstream).1 log ∧ Ends log failure := by
  have hstart : Stands parse [] [] { converter := { model, targets } } :=
    .inl ⟨[], rfl, rfl, .inl ⟨⟨rfl, rfl, rfl, rfl, rfl, rfl, rfl, rfl, rfl, rfl⟩,
      fun _ hmem => by cases hmem⟩⟩
  obtain ⟨log, failure, hitems, hgrammar, hends⟩ :=
    (stands_each hstart (received {} upstream).1).closing (received {} upstream).2
  refine ⟨log, failure, ?_, hgrammar, hends⟩
  rw [ChatStreamAdapter.reads_iff, ← hitems]
  rfl

/-- An upstream that ends at once: no response is created, and none is failed. -/
theorem chat_stream_uncreated :
    Unfold.Reads (ChatStreamAdapter.nextOutput fun _ => none)
      (.start { model := "m", targets := [] } []) [.error endedEarlyError] := by
  rw [ChatStreamAdapter.reads_iff]
  rfl

end ProviderCore.Protocol.OpenAiResponses
