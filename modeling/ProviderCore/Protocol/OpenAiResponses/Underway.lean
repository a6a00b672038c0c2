import ProviderCore.Protocol.OpenAiResponses.Stream
import ProviderCore.Protocol.ResponsesLedger

/-!
# A response under way

While the response is under way (`Underway`) the open items of the stream are those that the
converter collects: the two texts and the calls that were added.  Every output index that was taken
belongs to one of them or to a call that still waits for its id or its name.
-/

namespace ProviderCore.Protocol.OpenAiResponses

open List
open Emit (Triple Invariant)

/-! ## Open items -/

def TextOutput.slot (output : TextOutput) : Slot :=
  { index := output.index, streamed := output.text }

/-- Only the arguments of a function are streamed. -/
def ToolOutput.slot (tool : ToolOutput) : Slot :=
  { index := tool.outputIndex, streamed := if tool.target.isFunction then tool.arguments else "" }

def textSlots (s : ChatEventConverter) : List Slot :=
  (s.reasoning.toList ++ s.text.toList).map TextOutput.slot

def toolSlots (tools : List ToolOutput) : List Slot :=
  (tools.filter (·.started)).map ToolOutput.slot

def waiting (tools : List ToolOutput) : List ℕ := (tools.filter (!·.started)).map (·.outputIndex)

def openSlots (s : ChatEventConverter) (tools : List ToolOutput) : List Slot :=
  textSlots s ++ toolSlots tools

/-- A call goes where its name says, and was not added without one. -/
structure ToolOutput.Sound (targets : ToolTargets) (tool : ToolOutput) : Prop where
  target_eq : tool.target = (targets.lookup tool.name).getD .function
  named : tool.started = true → tool.name.isEmpty = false

/-- The log and the accounts of what was said in it. -/
structure Told (log : List NumberedEvent) (s : ChatEventConverter) (opened : List Slot)
    (closed : List (Slot × Json)) : Prop where
  created : s.created = true
  unended : s.terminal = false
  spoken : Spoken log s.sequence
  ledger : Ledger (bare log) opened closed

/-- A response under way.  The calls are a parameter, since one may be held in hand. -/
structure Underway (tools : List ToolOutput) (log : List NumberedEvent) (s : ChatEventConverter) :
    Prop where
  told : Told log s (openSlots s tools) []
  taken : ((openSlots s tools).map (·.index) ++ waiting tools).Perm
    (range s.nextOutputIndex)
  sound : ∀ tool ∈ tools, tool.Sound s.targets
  output : s.output = .empty

/-- Under way, with every call in its place. -/
def Ongoing (log : List NumberedEvent) (s : ChatEventConverter) : Prop :=
  Underway s.tools.values log s

/-! ## Emitting -/

section

variable (event : ResponsesEvent) (s : ChatEventConverter)

@[simp] theorem state_emitEvent :
    (emitEvent event).state s = { s with sequence := s.sequence + 1 } := rfl

@[simp] theorem events_emitEvent : (emitEvent event).events s = [⟨s.sequence, event⟩] := rfl

end

namespace Told

variable {log : List NumberedEvent} {s s' : ChatEventConverter} {slot : Slot}
  {opened opened' : List Slot} {closed : List (Slot × Json)}

section

variable (h : Told log s opened closed)

include h

theorem perm (hperm : opened.Perm opened') :
    Told log s opened' closed := ⟨h.created, h.unended, h.spoken, h.ledger.perm hperm⟩

/-- Only the numbering of the events matters. -/
theorem congr (hcreated : s'.created = s.created)
    (hterminal : s'.terminal = s.terminal) (hsequence : s'.sequence = s.sequence) :
    Told log s' opened closed :=
  ⟨hcreated.trans h.created, hterminal.trans h.unended, hsequence ▸ h.spoken, h.ledger⟩

/-- One more event, whatever it does to the accounts. -/
theorem emit {closed' : List (Slot × Json)} {event : ResponsesEvent}
    (hcreated : event.isCreated = false) (hterminal : event.isTerminal = false)
    (hledger : Ledger (bare log ++ [event]) opened' closed') :
    Told (log ++ [⟨s.sequence, event⟩]) { s with sequence := s.sequence + 1 } opened' closed' :=
  ⟨h.created, h.unended, h.spoken.emit hcreated hterminal, by simpa using hledger⟩

theorem add {index : ℕ} (hnew : index ∉ added (bare log)) (item : Json) :
    Told (log ++ [⟨s.sequence, .itemAdded index item⟩]) { s with sequence := s.sequence + 1 }
      ({ index } :: opened) closed :=
  h.emit rfl rfl (h.ledger.add hnew item)

end

theorem piece (h : Told log s (slot :: opened) closed) (channel : Channel)
    (itemId piece : String) :
    Told (log ++ [⟨s.sequence, .delta channel itemId slot.index piece⟩])
      { s with sequence := s.sequence + 1 }
      ({ slot with streamed := slot.streamed ++ piece } :: opened) closed :=
  h.emit rfl rfl (h.ledger.piece channel itemId piece)

end Told

namespace Underway

variable {tools tools' : List ToolOutput} {tool tool' : ToolOutput} {log : List NumberedEvent}
  {s s' : ChatEventConverter}

/-- The order of the calls does not matter. -/
theorem perm (h : Underway tools log s) (hperm : tools.Perm tools') : Underway tools' log s := by
  have hslots : (openSlots s tools).Perm (openSlots s tools') :=
    ((hperm.filter _).map _).append_left _
  refine ⟨h.told.perm hslots, .trans ?_ h.taken, fun tool hmem => h.sound tool ?_, h.output⟩
  · exact ((hslots.map _).append ((hperm.filter _).map _)).symm
  · exact hperm.mem_iff.mpr hmem

/-- The next output index was never used. -/
theorem fresh (h : Underway tools log s) : s.nextOutputIndex ∉ added (bare log) := by
  intro hmem
  have hslot : s.nextOutputIndex ∈ (openSlots s tools).map (·.index) := by
    simpa using h.told.ledger.indexes.mem_iff.mp hmem
  have hrange := h.taken.mem_iff.mp (mem_append_left _ hslot)
  exact absurd (mem_range.mp hrange) (lt_irrefl _)

/-- Fields that no account looks at. -/
theorem congr (h : Underway tools log s) (hcreated : s'.created = s.created)
    (hterminal : s'.terminal = s.terminal) (hsequence : s'.sequence = s.sequence)
    (htext : textSlots s' = textSlots s) (hindex : s'.nextOutputIndex = s.nextOutputIndex)
    (htargets : s'.targets = s.targets) (houtput : s'.output = s.output) :
    Underway tools log s' := by
  have hslots : openSlots s' tools = openSlots s tools := congrArg (· ++ _) htext
  refine ⟨?_, ?_, fun tool hmem => htargets ▸ h.sound tool hmem, houtput.trans h.output⟩
  · rw [hslots]
    exact h.told.congr hcreated hterminal hsequence
  · rw [hslots, hindex]
    exact h.taken

end Underway

/-! ## Texts -/

section

variable (s : ChatEventConverter) (part : Part) (output : Option TextOutput)

@[simp] theorem setText_textOf : setText s (textOf s part) part = s := by cases part <;> rfl

/-- The text of a part among the open items. -/
theorem openSlots_setText (tools : List ToolOutput) :
    (openSlots (setText s output part) tools).Perm
      (output.toList.map TextOutput.slot ++ openSlots (setText s none part) tools) := by
  rw [openSlots, openSlots, ← append_assoc]
  refine List.Perm.append_right _ ?_
  cases part with
  | content => simpa [textSlots, setText] using perm_append_comm
  | reasoningSummary => simp [textSlots, setText]

end

section

variable {tools : List ToolOutput} {log : List NumberedEvent} {s : ChatEventConverter}
  {part : Part}

/-- A new item takes the next output index. -/
theorem range_succ_perm {indexes : List ℕ} {n : ℕ} (h : indexes.Perm (range n)) :
    (n :: indexes).Perm (range (n + 1)) := by
  rw [range_succ]
  exact (h.cons n).trans (perm_append_singleton n _).symm

/-- The text that `startPart` begins. -/
def startedText (s : ChatEventConverter) (part : Part) : TextOutput :=
  { index := s.nextOutputIndex, itemId := partIdStart part ++ idSuffix s, text := "" }

theorem events_startPart : (startPart part).events s = [⟨s.sequence, .itemAdded s.nextOutputIndex
        (partItem part (startedText s part).itemId "in_progress" [])⟩,
      ⟨s.sequence + 1, .partAdded part (startedText s part).itemId s.nextOutputIndex
        (partValue part "")⟩] := by
  cases part <;> rfl

theorem underway_startPart (part : Part) :
    Triple (fun log s => Underway tools log s ∧ textOf s part = none) (startPart part)
      fun output log s => Underway tools log s ∧ textOf s part = some output := by
  refine ⟨fun log s ⟨h, hnone⟩ => ?_⟩
  have hslots : (openSlots ((startPart part).state s) tools).Perm
      ({ index := s.nextOutputIndex } :: openSlots s tools) := by
    have hperm := openSlots_setText s part (some (startedText s part)) tools
    have hopen : openSlots (setText s none part) tools = openSlots s tools := by
      rw [← hnone, setText_textOf]
    rw [hopen] at hperm
    cases part <;> exact hperm
  refine ⟨⟨?_, ?_, ?_, ?_⟩, ?_⟩
  · have hadded := h.told.add h.fresh (partItem part (startedText s part).itemId "in_progress" [])
    have hneutral : (ResponsesEvent.partAdded part (startedText s part).itemId s.nextOutputIndex
      (partValue part "")).Neutral := {}
    rw [events_startPart, append_cons]
    have htold := (hadded.emit rfl rfl (hadded.ledger.neutral hneutral)).perm hslots.symm
    cases part <;> exact htold.congr rfl rfl rfl
  · have htaken := ((hslots.map _).append_right _).trans (range_succ_perm h.taken)
    cases part <;> exact htaken
  · cases part <;> exact h.sound
  · cases part <;> exact h.output
  · cases part <;> rfl

theorem underway_currentPart (part : Part) :
    Triple (Underway tools) (currentPart part)
      fun output log s => Underway tools log s ∧ textOf s part = some output := by
  refine Triple.after_get fun a => ?_
  rcases htext : textOf a part with _ | output
  · exact (underway_startPart part).pre fun log s ⟨h, heq⟩ => ⟨h, heq ▸ htext⟩
  · exact Triple.of_pure fun log s ⟨h, heq⟩ => ⟨h, heq ▸ htext⟩

theorem underway_emitPiece (part : Part) (delta : String) :
    Invariant (Underway tools) (emitPiece part delta) := by
  refine (underway_currentPart part).bind fun output => ⟨fun log s ⟨h, htext⟩ => ?_⟩
  let longer : TextOutput := { output with text := output.text ++ delta }
  have hbefore := openSlots_setText s part (textOf s part) tools
  have hafter := openSlots_setText s part (some longer) tools
  rw [setText_textOf, htext] at hbefore
  refine ⟨?_, ?_, ?_, ?_⟩
  · have hpiece := (h.told.perm hbefore).piece (partChannel part) output.itemId delta
    replace hpiece := hpiece.perm hafter.symm
    cases part <;> exact hpiece.congr rfl rfl rfl
  · have hslots : ((openSlots (setText s (some longer) part) tools).map (·.index)).Perm
        ((openSlots s tools).map (·.index)) := by
      refine (hafter.map _).trans ?_
      exact (hbefore.map Slot.index).symm
    have htaken := (hslots.append_right (waiting tools)).trans h.taken
    cases part <;> exact htaken
  · cases part <;> exact h.sound
  · cases part <;> exact h.output

end

/-! ## Calls -/

def otherTools (s : ChatEventConverter) (index : ℕ) : List ToolOutput :=
  (OrderedMap.others index s.tools.entries).map (·.2)

section

variable {tool tool' : ToolOutput} {tools : List ToolOutput} {log : List NumberedEvent}
  {s : ChatEventConverter} {targets : ToolTargets}

/-- A call changes, but nothing in it that the stream has told. -/
structure ToolOutput.Follows (tool tool' : ToolOutput) : Prop where
  outputIndex : tool'.outputIndex = tool.outputIndex
  started : tool'.started = tool.started
  slot : tool.started = true → tool'.slot = tool.slot

theorem ToolOutput.identify_follows (h : tool.Sound targets) (callId : Option String)
    (name : String) :
    tool.Follows (tool.identify targets callId name).1 ∧
      (tool.identify targets callId name).1.Sound targets := by
  unfold ToolOutput.identify
  dsimp only
  split_ifs with hcall hname hother
  · exact ⟨⟨rfl, rfl, fun _ => rfl⟩, h⟩
  · exact ⟨⟨rfl, rfl, fun _ => rfl⟩, h.target_eq, h.named⟩
  · exact ⟨⟨rfl, rfl, fun _ => rfl⟩, h.target_eq, h.named⟩
  · refine ⟨⟨rfl, rfl, fun hstarted => ?_⟩, rfl, fun _ => by simpa using hname⟩
    -- a call that was added has its name, so this is the same name and the same target
    have hsame : tool.name = name := by simpa [h.named hstarted] using hother
    rw [ToolOutput.slot, ToolOutput.slot, h.target_eq, hsame]

theorem openSlots_cons_started (hstarted : tool.started = true) :
    (openSlots s (tool :: tools)).Perm (tool.slot :: openSlots s tools) := by
  rw [openSlots, toolSlots, filter_cons_of_pos hstarted]
  exact perm_middle

theorem openSlots_cons_waiting (hstarted : tool.started = false) :
    openSlots s (tool :: tools) = openSlots s tools := by
  rw [openSlots, toolSlots, filter_cons_of_neg (by simp [hstarted])]
  rfl

theorem waiting_cons_started (hstarted : tool.started = true) :
    waiting (tool :: tools) = waiting tools := by
  rw [waiting, filter_cons_of_neg (by simp [hstarted])]
  rfl

theorem waiting_cons_waiting (hstarted : tool.started = false) :
    waiting (tool :: tools) = tool.outputIndex :: waiting tools := by
  rw [waiting, filter_cons_of_pos (by simp [hstarted])]
  rfl

/-- The output index of a call, wherever it is counted. -/
theorem indexes_cons (s : ChatEventConverter) (tool : ToolOutput) (tools : List ToolOutput) :
    ((openSlots s (tool :: tools)).map (·.index) ++ waiting (tool :: tools)).Perm
      (tool.outputIndex :: ((openSlots s tools).map (·.index) ++ waiting tools)) := by
  rcases hstarted : tool.started with _ | _
  · rw [openSlots_cons_waiting hstarted, waiting_cons_waiting hstarted]
    exact perm_middle
  · rw [waiting_cons_started hstarted]
    exact ((openSlots_cons_started hstarted).map _).append_right _

namespace Underway

/-- The call in hand changes without a word. -/
theorem follow (h : Underway (tool :: tools) log s) (hfollows : tool.Follows tool')
    (hsound : tool'.Sound s.targets) : Underway (tool' :: tools) log s := by
  have hopen : openSlots s (tool' :: tools) = openSlots s (tool :: tools) := by
    rcases hstarted : tool.started with _ | _
    · rw [openSlots_cons_waiting hstarted, openSlots_cons_waiting (hfollows.started.trans hstarted)]
    · simp [openSlots, toolSlots, hfollows.started, hstarted, hfollows.slot hstarted]
  refine ⟨hopen ▸ h.told, ?_, ?_, h.output⟩
  · refine (indexes_cons s tool' tools).trans (.trans ?_ h.taken)
    rw [hfollows.outputIndex]
    exact (indexes_cons s tool tools).symm
  · exact forall_mem_cons.mpr ⟨hsound, (forall_mem_cons.mp h.sound).2⟩

theorem store {index : ℕ} (h : Underway (tool :: tools) log s)
    (hothers : tools = otherTools s index) :
    Underway (s.tools.insert index tool).values log
      { s with tools := s.tools.insert index tool } := by
  subst hothers
  have hvalues := (s.tools.insert_perm index tool).map (·.2)
  exact (h.perm hvalues.symm).congr rfl rfl rfl rfl rfl rfl rfl

/-- A new call takes the next output index and waits. -/
theorem take (h : Underway tools log s) (hstarted : tool.started = false)
    (hindex : tool.outputIndex = s.nextOutputIndex) (hsound : tool.Sound s.targets) :
    Underway (tool :: tools) log { s with nextOutputIndex := s.nextOutputIndex + 1 } := by
  refine ⟨?_, ?_, ?_, h.output⟩
  · rw [openSlots_cons_waiting hstarted]
    exact h.told.congr rfl rfl rfl
  · refine (indexes_cons _ tool tools).trans ?_
    rw [hindex]
    exact range_succ_perm h.taken
  · exact forall_mem_cons.mpr ⟨hsound, h.sound⟩

/-- The call in hand is among the items of the stream. -/
theorem of_started (hstarted : tool.started = true)
    (htold : Told log s (tool.slot :: openSlots s tools) [])
    (htaken : (tool.outputIndex :: ((openSlots s tools).map (·.index) ++ waiting tools)).Perm
      (range s.nextOutputIndex))
    (hsound : ∀ other ∈ tool :: tools, other.Sound s.targets) (houtput : s.output = .empty) :
    Underway (tool :: tools) log s :=
  ⟨htold.perm (openSlots_cons_started hstarted).symm, (indexes_cons s tool tools).trans htaken,
    hsound, houtput⟩

end Underway

theorem underway_toolAt (index : ℕ) (callId : Option String) (name : String) :
    Triple (fun log s => Underway s.tools.values log s ∧ s.targets = targets)
      (toolAt index callId name)
      fun tool log s => Underway (tool :: otherTools s index) log s ∧ s.targets = targets := by
  refine Triple.after_get fun a => ?_
  rcases htool : a.tools.get? index with _ | tool
  · refine ⟨fun log s ⟨⟨h, htargets⟩, heq⟩ => ?_⟩
    subst heq
    have hothers : otherTools a index = a.tools.values :=
      congrArg _ (OrderedMap.others_of_get?_none htool)
    simp only [Emit.result_bind, Emit.state_bind, Emit.events_bind, takeOutputIndex,
      Emit.result_pure, Emit.state_pure, Emit.events_pure, Emit.result_get, Emit.state_get,
      Emit.events_get, Emit.state_modify, Emit.events_modify, append_nil]
    rw [← hothers] at h
    exact ⟨h.take rfl rfl ⟨rfl, fun hstarted => by cases hstarted⟩, htargets⟩
  · refine Triple.of_pure fun log s ⟨⟨h, htargets⟩, heq⟩ => ⟨h.perm ?_, htargets⟩
    exact (OrderedMap.entries_perm_of_get? (heq ▸ htool)).map _

variable (parse : Bytes → Option Json)

section

variable (h : Underway (tool :: tools) log s)

include h

/-- The index of a call that waits is in no event. -/
theorem Underway.outputIndex_fresh
    (hstarted : tool.started = false) : tool.outputIndex ∉ added (bare log) := by
  intro hmem
  have hslot := h.told.ledger.indexes.mem_iff.mp hmem
  rw [openSlots_cons_waiting hstarted, map_nil, append_nil] at hslot
  have hnodup := ((indexes_cons s tool tools).symm.trans h.taken).nodup_iff.mpr nodup_range
  exact (nodup_cons.mp hnodup).1 (mem_append_left _ hslot)

/-- A call that has its id and its name is added, with the arguments it has so far. -/
theorem Underway.startTool (hstarted : tool.started = false)
    (hname : tool.name.isEmpty = false) (item : Json) :
    Underway ({ tool with started := true } :: tools)
      (log ++ ⟨s.sequence, .itemAdded tool.outputIndex item⟩ ::
        if tool.target.isFunction && !tool.arguments.isEmpty then
          [⟨s.sequence + 1,
            .delta .functionArguments tool.itemId tool.outputIndex tool.arguments⟩]
        else [])
      { s with sequence := s.sequence +
        if tool.target.isFunction && !tool.arguments.isEmpty then 1 + 1 else 1 } := by
  have hadded := h.told.add (h.outputIndex_fresh hstarted) item
  rw [openSlots_cons_waiting hstarted] at hadded
  refine of_started rfl ?_ ((indexes_cons s tool tools).symm.trans h.taken) ?_ h.output
  · rcases hpiece : tool.target.isFunction && !tool.arguments.isEmpty with _ | _
    · have hslot : ({ tool with started := true } : ToolOutput).slot =
          { index := tool.outputIndex } := by
        rcases hfunction : tool.target.isFunction with _ | _
        · simp [ToolOutput.slot, hfunction]
        · have harguments : tool.arguments = "" := by simpa [hfunction] using hpiece
          simp [ToolOutput.slot, harguments]
      rw [hslot]
      exact hadded
    · have hslot : ({ tool with started := true } : ToolOutput).slot =
          { index := tool.outputIndex, streamed := "" ++ tool.arguments } := by
        simp_all [ToolOutput.slot]
      have hdelta := hadded.piece .functionArguments tool.itemId tool.arguments
      rw [hslot, if_pos rfl, if_pos rfl, append_cons]
      exact hdelta
  · obtain ⟨hsound, hothers⟩ := forall_mem_cons.mp h.sound
    exact forall_mem_cons.mpr ⟨⟨hsound.target_eq, fun _ => hname⟩, hothers⟩

theorem Underway.moreArguments (hstarted : tool.started = true)
    (hfunction : tool.target.isFunction = true) (arguments : String) :
    Underway ({ tool with arguments := tool.arguments ++ arguments } :: tools)
      (log ++ [⟨s.sequence,
        .delta .functionArguments tool.itemId tool.outputIndex arguments⟩])
      { s with sequence := s.sequence + 1 } := by
  have hslot : ({ tool with arguments := tool.arguments ++ arguments } : ToolOutput).slot =
      { tool.slot with streamed := tool.slot.streamed ++ arguments } := by
    simp [ToolOutput.slot, hfunction]
  have hdelta := (h.told.perm (openSlots_cons_started hstarted)).piece .functionArguments
    tool.itemId arguments
  refine of_started hstarted (hslot ▸ hdelta) ((indexes_cons s tool tools).symm.trans h.taken) ?_
    h.output
  obtain ⟨hsound, hothers⟩ := forall_mem_cons.mp h.sound
  exact forall_mem_cons.mpr ⟨⟨hsound.target_eq, hsound.named⟩, hothers⟩

theorem Underway.quietArguments (arguments : String)
    (hquiet : (tool.started && tool.target.isFunction && !arguments.isEmpty) = false) :
    Underway ({ tool with arguments := tool.arguments ++ arguments } :: tools) log s := by
  have hsound := h.sound tool mem_cons_self
  refine h.follow ⟨rfl, rfl, fun hstarted => ?_⟩ ⟨hsound.target_eq, hsound.named⟩
  rcases hfunction : tool.target.isFunction with _ | _
  · simp [ToolOutput.slot, hfunction]
  · have harguments : arguments = "" := by simpa [hstarted, hfunction] using hquiet
    simp [harguments]

end

theorem underway_extendTool (index : ℕ) (tool : ToolOutput) (arguments : String) :
    Triple (fun log s => Underway (tool :: otherTools s index) log s)
      (extendTool parse index tool arguments) fun _ log s => Underway s.tools.values log s := by
  refine ⟨fun log s h => ?_⟩
  unfold extendTool
  dsimp only
  split
  case isTrue hnew =>
    simp only [Bool.and_eq_true, Bool.not_eq_true'] at hnew
    have hstarted := (h.quietArguments arguments (by simp [hnew.2])).startTool
      hnew.2 hnew.1.2 (toolItem parse
        { tool with arguments := tool.arguments ++ arguments } "in_progress" false)
    split_ifs at hstarted with hpiece
    · rw [hpiece]
      exact hstarted.store rfl
    · rw [Bool.not_eq_true] at hpiece
      rw [hpiece]
      exact hstarted.store rfl
  case isFalse hold =>
    rcases hpiece : tool.started && tool.target.isFunction && !arguments.isEmpty with _ | _
    · simpa [putTool] using (h.quietArguments arguments hpiece).store rfl
    · simp only [Bool.and_eq_true] at hpiece
      exact (h.moreArguments hpiece.1.1 hpiece.1.2 arguments).store rfl

theorem ongoing_emitToolDelta (toolCall : Json) :
    Invariant Ongoing (emitToolDelta parse toolCall) := by
  unfold emitToolDelta
  dsimp only
  refine Triple.after_get fun a => ?_
  split
  · exact Triple.of_modify fun log s ⟨h, _⟩ => h.congr rfl rfl rfl rfl rfl rfl rfl
  · refine Triple.bind ((underway_toolAt _ _ _).pre
      fun log s ⟨h, heq⟩ => ⟨h, congrArg _ heq.symm⟩) fun tool => ⟨fun log s ⟨h, htargets⟩ => ?_⟩
    obtain ⟨hfollows, hsound⟩ := ToolOutput.identify_follows
      (h.sound tool mem_cons_self) ((toolCall.text? "id").filter (!·.isEmpty))
      ((((toolCall.member? "function").getD .null).text? "name").getD "")
    have hidentified := h.follow hfollows hsound
    rw [htargets] at hidentified
    split
    · rename_i tool' message hidentify
      rw [hidentify] at hidentified
      have hfailed : Ongoing log
          { s with
            tools := s.tools.insert ((toolCall.count? "index").getD 0) tool'
            failure := some message } :=
        (hidentified.store rfl).congr rfl rfl rfl rfl rfl rfl rfl
      simpa [putTool] using hfailed
    · rename_i tool' hidentify
      rw [hidentify] at hidentified
      exact (underway_extendTool parse _ _ _).run log s hidentified

theorem ongoing_piece (part : Part) (delta : String) : Invariant Ongoing (emitPiece part delta) :=
  .of_keeps (fun _ => underway_emitPiece part delta)
    (keeps_emitPiece (fun _ _ => rfl) (fun _ _ => rfl) (fun _ _ => by cases part <;> rfl) delta)

theorem ongoing_convertDelta (delta : Json) : Invariant Ongoing (convertDelta parse delta) := by
  refine .seq (.withSome fun piece _ => ongoing_piece _ piece) fun _ => ?_
  refine .seq (.withSome fun piece _ => ongoing_piece _ piece) fun _ => ?_
  exact .withSome fun calls _ => .each (ongoing_emitToolDelta parse) calls

end

/-! ## Chunks -/

/-- A response of which nothing was said. -/
structure Untouched (log : List NumberedEvent) (s : ChatEventConverter) : Prop where
  log : log = []
  created : s.created = false
  terminal : s.terminal = false
  sequence : s.sequence = 0
  nextOutputIndex : s.nextOutputIndex = 0
  text : s.text = none
  reasoning : s.reasoning = none
  tools : s.tools = .empty
  output : s.output = .empty
  failure : s.failure = none

/-- Before the end. -/
abbrev Going (log : List NumberedEvent) (s : ChatEventConverter) : Prop :=
  Untouched log s ∨ Ongoing log s

section

variable {log : List NumberedEvent} {s : ChatEventConverter}

theorem Untouched.ongoing (h : Untouched log s) (response : Json) :
    Ongoing [⟨0, .created response⟩] { s with created := true, sequence := 1 } := by
  have hslots : openSlots s s.tools.values = [] := by
    simp [openSlots, textSlots, h.text, h.reasoning, h.tools, OrderedMap.values, OrderedMap.empty,
      toolSlots]
  have hledger : Ledger [.created response] [] [] := Ledger.empty.neutral {}
  refine ⟨⟨rfl, h.terminal, .first response, ?_⟩, ?_, ?_, h.output⟩
  · change Ledger [.created response] (openSlots s s.tools.values) []
    rwa [hslots]
  · change ((openSlots s s.tools.values).map (·.index) ++ waiting s.tools.values).Perm
      (range s.nextOutputIndex)
    rw [hslots, h.nextOutputIndex, h.tools]
    exact .refl _
  · intro tool hmem
    rw [h.tools] at hmem
    cases hmem

theorem ongoing_emitCreated : Triple Going emitCreated fun _ => Ongoing := by
  refine ⟨fun log s h => ?_⟩
  rcases h with h | h
  · obtain rfl := h.log
    have hsequence := h.sequence
    simpa [emitCreated, h.created, emitEvent, hsequence] using h.ongoing _
  · simpa [emitCreated, h.told.created] using h

variable (parse : Bytes → Option Json)

theorem Ongoing.congr_rest (h : Ongoing log s) (id model : String) (createdAt : ℕ)
    (usage : Option Json) (finishReason failure : Option String) :
    Ongoing log { s with id, model, createdAt, usage, finishReason, failure } :=
  Underway.congr h rfl rfl rfl rfl rfl rfl rfl

theorem Untouched.congr_rest (h : Untouched log s) (id model : String) (createdAt : ℕ)
    (usage : Option Json) (finishReason : Option String) :
    Untouched log { s with id, model, createdAt, usage, finishReason } :=
  ⟨h.log, h.created, h.terminal, h.sequence, h.nextOutputIndex, h.text, h.reasoning, h.tools,
    h.output, h.failure⟩

variable {choice : Json}

theorem ongoing_convertChoice (hfirst : isFirstChoice choice = true) :
    Triple Going (convertChoice parse choice) fun _ => Ongoing := by
  unfold convertChoice
  rw [hfirst]
  refine ongoing_emitCreated.bind fun _ => ?_
  refine .seq (.withSome fun delta _ => ongoing_convertDelta parse delta) fun _ => ?_
  exact .withSome fun reason _ => .of_modify fun log s h => h.congr_rest _ _ _ _ _ _

theorem convertChoice_of_other (hother : isFirstChoice choice = false) :
    convertChoice parse choice = pure () := by
  unfold convertChoice
  rw [hother]
  rfl

theorem ongoing_convertChoices (choices : List Json) :
    Invariant Ongoing (Emit.each (convertChoice parse) choices) := by
  refine .each (fun choice => ?_) choices
  rcases hfirst : isFirstChoice choice with _ | _
  · rw [convertChoice_of_other parse hfirst]
    exact .skip
  · exact (ongoing_convertChoice parse hfirst).pre fun _ _ h => .inr h

/-- Nothing is said of a response before its first choice. -/
theorem going_convertChoices (choices : List Json) :
    Triple Going (Emit.each (convertChoice parse) choices)
      fun _ log s => (Untouched log s ∧ ∀ choice ∈ choices, isFirstChoice choice = false) ∨
        Ongoing log s := by
  induction choices with
  | nil => exact .of_pure fun log s h => h.imp_left fun h => ⟨h, fun _ hmem => by cases hmem⟩
  | cons choice choices ih =>
    rcases hfirst : isFirstChoice choice with _ | _
    · refine ⟨fun log s h => ?_⟩
      simpa [convertChoice_of_other parse hfirst, hfirst] using ih.run log s h
    · exact (ongoing_convertChoice parse hfirst).bind fun _ =>
        (ongoing_convertChoices parse choices).post fun _ _ _ h => .inr h

/-- Reading a field of the envelope says nothing. -/
theorem captureField_run {α : Type} {P : List NumberedEvent → ChatEventConverter → Prop}
    {event : Json} {field : String} {read : Json → Option α} {invalid changed : String}
    {same : ChatEventConverter → α → Bool} {store : ChatEventConverter → α → ChatEventConverter}
    (hstore : ∀ log s a, P log s → P log (store s a)) :
    Invariant P (captureField event field read invalid changed same store) := by
  unfold captureField
  split
  · exact .skip
  · split
    · exact .skip
    · rename_i value hread
      refine .reading fun s => ?_
      split
      · exact .skip
      · exact .seq (.of_modify fun log s h => hstore log s value h) fun _ => .skip

theorem going_captureEnvelope (event : Json) :
    Invariant Going (captureEnvelope event) := by
  have hrest (log : List NumberedEvent) (s : ChatEventConverter) (id model : String)
      (createdAt : ℕ) (h : Going log s) : Going log { s with id, model, createdAt } :=
    h.imp (·.congr_rest id model createdAt s.usage s.finishReason)
      (·.congr_rest id model createdAt s.usage s.finishReason s.failure)
  refine .seq (captureField_run fun log s id h => hrest log s id s.model s.createdAt h)
    fun failed => ?_
  cases failed with
  | some => exact .skip
  | none =>
    refine .seq (captureField_run fun log s model h => hrest log s s.id model s.createdAt h)
      fun failed => ?_
    cases failed with
    | some => exact .skip
    | none => exact captureField_run fun log s createdAt h => hrest log s s.id s.model createdAt h

end

end ProviderCore.Protocol.OpenAiResponses
