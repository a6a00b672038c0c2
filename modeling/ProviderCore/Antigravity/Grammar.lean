import ProviderCore.Antigravity.Stream
import ProviderCore.Protocol.ResponsesLedger

/-!
# The grammar of the Antigravity stream

`Stage opened` is the account of a response under way: the open items are given, the others are done
and in the output.  Between parts (`Holds`) the open items are the message and the reasoning that
the state holds.  Each operation opens or closes what it says, so the items of a response are all
done when its last event comes.
-/

namespace ProviderCore.Antigravity

open Emit (Triple Invariant Keeps)
open Protocol List

/-! ## The account -/

/-- The stream begins with its creation and its progress, which are not repeated. -/
def Greeted (events : List ResponsesEvent) : Prop :=
  ∃ response response' rest, events = .created response :: .inProgress response' :: rest ∧
    ∀ event ∈ rest, event.isCreated = false ∧ event.isInProgress = false

/-- A done item ends with the text that was streamed.  A reasoning may have no text at all. -/
def Finished (slot : Slot) (item : Json) : Prop :=
  ∀ type ∈ ["message", "reasoning", "function_call"], item.text? "type" = some type →
    itemText item = some slot.streamed ∧
      (slot.told = [slot.streamed] ∨ type = "reasoning" ∧ slot.told = [] ∧ slot.streamed = "")

structure Account (opened : List Slot) (closed : List (Slot × Json)) (log : List NumberedEvent)
    (s : ResponseState) : Prop where
  started : s.started = true
  uncompleted : s.completed = false
  spoken : Spoken log s.sequence
  greeted : Greeted (bare log)
  ledger : Ledger (bare log) opened closed
  output : s.output = closed.map (·.2)
  finished : ∀ c ∈ closed, Finished c.1 c.2

/-- Under way with some open items. -/
def Stage (opened : List Slot) (log : List NumberedEvent) (s : ResponseState) : Prop :=
  (∃ closed, Account opened closed log s) ∧ added (bare log) = range s.nextOutputIndex

/-- An index is taken for an item that is about to be added. -/
def Taken (index : ℕ) (opened : List Slot) (log : List NumberedEvent) (s : ResponseState) : Prop :=
  (∃ closed, Account opened closed log s) ∧ added (bare log) = range index ∧
    s.nextOutputIndex = index + 1

def MessageState.slot (message : MessageState) : Slot :=
  { index := message.outputIndex, streamed := message.text }

def ReasoningState.slot (reasoning : ReasoningState) : Slot :=
  { index := reasoning.outputIndex, streamed := reasoning.text }

def openSlots (s : ResponseState) : List Slot :=
  s.message.toList.map MessageState.slot ++ s.reasoning.toList.map ReasoningState.slot

/-- Between two operations. -/
def Holds (log : List NumberedEvent) (s : ResponseState) : Prop := Stage (openSlots s) log s

/-! ## Single steps -/

/-- The fields that the account looks at. -/
def core (s : ResponseState) : Bool × Bool × ℕ × ℕ × List Json :=
  (s.started, s.completed, s.sequence, s.nextOutputIndex, s.output)

section

variable {opened opened' : List Slot} {closed closed' : List (Slot × Json)} {slot : Slot}
  {log : List NumberedEvent} {s s' : ResponseState} {event : ResponsesEvent}

theorem Greeted.append {events : List ResponsesEvent} (h : Greeted events)
    (hcreated : event.isCreated = false) (hprogress : event.isInProgress = false) :
    Greeted (events ++ [event]) := by
  obtain ⟨response, response', rest, rfl, hrest⟩ := h
  exact ⟨response, response', rest ++ [event], rfl,
    forall_mem_append.mpr ⟨hrest, forall_mem_singleton.mpr ⟨hcreated, hprogress⟩⟩⟩

theorem Account.congr (h : Account opened closed log s) (hcore : core s' = core s) :
    Account opened closed log s' := by
  simp only [core, Prod.mk.injEq] at hcore
  obtain ⟨hstarted, hcompleted, hsequence, -, houtput⟩ := hcore
  exact ⟨hstarted.trans h.started, hcompleted.trans h.uncompleted, hsequence ▸ h.spoken, h.greeted,
    h.ledger, houtput.trans h.output, h.finished⟩

theorem Stage.congr (h : Stage opened log s) (hcore : core s' = core s) : Stage opened log s' := by
  obtain ⟨⟨closed, haccount⟩, hindexes⟩ := h
  refine ⟨⟨closed, haccount.congr hcore⟩, ?_⟩
  simp only [core, Prod.mk.injEq] at hcore
  rw [hindexes, hcore.2.2.2.1]

theorem Account.perm (h : Account opened closed log s) (hperm : opened.Perm opened') :
    Account opened' closed log s :=
  ⟨h.started, h.uncompleted, h.spoken, h.greeted, h.ledger.perm hperm, h.output, h.finished⟩

theorem Stage.perm (h : Stage opened log s) (hperm : opened.Perm opened') :
    Stage opened' log s := by
  obtain ⟨⟨closed, haccount⟩, hindexes⟩ := h
  exact ⟨⟨closed, haccount.perm hperm⟩, hindexes⟩

/-- One more event, whatever it does to the items. -/
theorem Account.emit (h : Account opened closed log s) (hcreated : event.isCreated = false)
    (hprogress : event.isInProgress = false) (hterminal : event.isTerminal = false)
    (hledger : Ledger (bare log ++ [event]) opened' closed) :
    Account opened' closed (log ++ [⟨s.sequence, event⟩])
      { s with sequence := s.sequence + 1 } where
  started := h.started
  uncompleted := h.uncompleted
  spoken := h.spoken.emit hcreated hterminal
  greeted := by simpa using h.greeted.append hcreated hprogress
  ledger := by simpa using hledger
  output := h.output
  finished := h.finished

/-- An event that adds no item. -/
theorem stage_emit (hcreated : event.isCreated = false) (hprogress : event.isInProgress = false)
    (hterminal : event.isTerminal = false) (hadded : event.addedIndex = none)
    (hledger : ∀ log closed, Ledger log opened closed → Ledger (log ++ [event]) opened' closed) :
    Triple (Stage opened) (emitEvent event) fun _ => Stage opened' := by
  refine ⟨fun log s ⟨⟨closed, haccount⟩, hindexes⟩ => ?_⟩
  refine ⟨⟨closed, haccount.emit hcreated hprogress hterminal (hledger _ _ haccount.ledger)⟩, ?_⟩
  have hsame : added (bare log ++ [event]) = added (bare log) := by simp [hadded]
  rw [bare_append]
  exact hsame.trans hindexes

theorem stage_delta (channel : Channel) (itemId piece : String) :
    Triple (Stage (slot :: opened)) (emitEvent (.delta channel itemId slot.index piece))
      fun _ => Stage ({ slot with streamed := slot.streamed ++ piece } :: opened) :=
  stage_emit rfl rfl rfl rfl fun _ _ h => h.piece channel itemId piece

theorem stage_textDone (channel : Channel) (itemId text : String) :
    Triple (Stage (slot :: opened)) (emitEvent (.textDone channel itemId slot.index text))
      fun _ => Stage ({ slot with told := slot.told ++ [text] } :: opened) :=
  stage_emit rfl rfl rfl rfl fun _ _ h => h.tell channel itemId text

theorem stage_neutral (hneutral : event.Neutral) (hcreated : event.isCreated = false)
    (hprogress : event.isInProgress = false) (hterminal : event.isTerminal = false) :
    Invariant (Stage opened) (emitEvent event) :=
  stage_emit hcreated hprogress hterminal hneutral.added fun _ _ h => h.neutral hneutral

theorem stage_takeOutputIndex :
    Triple (Stage opened) takeOutputIndex fun index => Taken index opened := by
  refine ⟨fun log s ⟨⟨closed, haccount⟩, hindexes⟩ => ?_⟩
  have haccount' : Account opened closed log { s with nextOutputIndex := s.nextOutputIndex + 1 } :=
    ⟨haccount.started, haccount.uncompleted, haccount.spoken, haccount.greeted, haccount.ledger,
      haccount.output, haccount.finished⟩
  simpa [takeOutputIndex] using ⟨⟨closed, haccount'⟩, hindexes, rfl⟩

/-- The item of a taken index is added. -/
theorem stage_itemAdded (index : ℕ) (item : Json) :
    Triple (Taken index opened) (emitEvent (.itemAdded index item))
      fun _ => Stage ({ index } :: opened) := by
  refine ⟨fun log s ⟨⟨closed, haccount⟩, hindexes, hnext⟩ => ?_⟩
  have hnew : index ∉ added (bare log) := by simp [hindexes]
  refine ⟨⟨closed, haccount.emit rfl rfl rfl (haccount.ledger.add hnew item)⟩, ?_⟩
  have hadded : added (bare (log ++ [⟨s.sequence, .itemAdded index item⟩])) =
      range (index + 1) := by
    simp [ResponsesEvent.addedIndex, hindexes, range_succ]
  rw [← hnext] at hadded
  exact hadded

/-- An item is done and goes to the output. -/
theorem stage_doneItem {item : Json} (hfinished : Finished slot item) :
    Triple (Stage (slot :: opened)) (doneItem slot.index item) fun _ => Stage opened := by
  refine ⟨fun log s ⟨⟨closed, haccount⟩, hindexes⟩ => ⟨⟨closed ++ [(slot, item)], ?_⟩, ?_⟩⟩
  · refine ⟨haccount.started, haccount.uncompleted, haccount.spoken.emit rfl rfl, ?_, ?_, ?_, ?_⟩
    · rw [bare_append]
      exact haccount.greeted.append rfl rfl
    · rw [bare_append]
      exact haccount.ledger.close item
    · simp [doneItem, emitEvent, haccount.output]
    · exact forall_mem_append.mpr ⟨haccount.finished, forall_mem_singleton.mpr hfinished⟩
  · have hsame : added (bare (log ++ [⟨s.sequence, .itemDone slot.index item⟩])) =
        added (bare log) := by simp [ResponsesEvent.addedIndex]
    exact hsame.trans hindexes

end

/-! ## Messages and reasonings -/

/-- What is open, as the state has it. -/
def held (s : ResponseState) : Option MessageState × Option ReasoningState :=
  (s.message, s.reasoning)

section

variable (event : ResponsesEvent) (index : ℕ) (item : Json)

theorem keeps_emitEvent : Keeps held (emitEvent event) := ⟨fun _ => rfl⟩

theorem keeps_takeOutputIndex : Keeps held takeOutputIndex := ⟨fun _ => rfl⟩

theorem keeps_doneItem : Keeps held (doneItem index item) := ⟨fun _ => rfl⟩

end

section

variable {opened : List Slot} {slot : Slot} {log : List NumberedEvent} {s : ResponseState}

theorem Stage.holds {message : Option MessageState} {reasoning : Option ReasoningState}
    (h : Stage opened log s) (hheld : held s = (message, reasoning))
    (hopened : opened = message.toList.map MessageState.slot ++
      reasoning.toList.map ReasoningState.slot) : Holds log s := by
  obtain ⟨rfl, rfl⟩ := Prod.mk.inj hheld
  subst hopened
  exact h

theorem Holds.congr {s' : ResponseState} (h : Holds log s) (hcore : core s' = core s)
    (hheld : held s' = held s) : Holds log s' := by
  obtain ⟨hmessage, hreasoning⟩ := Prod.mk.inj hheld
  have hopen : openSlots s' = openSlots s := by rw [openSlots, openSlots, hmessage, hreasoning]
  rw [Holds, hopen]
  exact Stage.congr h hcore

theorem finished_message (message : MessageState) :
    Finished { message.slot with told := [message.text] }
      (messageItem message.id "completed" [outputText message.text message.annotations]) := by
  intro type _ _
  have hjoin : String.join [message.text] = message.text := by simp
  exact ⟨congrArg some hjoin, .inl rfl⟩

theorem finished_reasoning (reasoning : ReasoningState) :
    Finished { reasoning.slot with told := [reasoning.text] }
      (reasoningItem reasoning.id "completed" reasoning.signature
        [summaryText reasoning.text]) := by
  intro type _ _
  have hjoin : String.join [reasoning.text] = reasoning.text := by simp
  exact ⟨congrArg some hjoin, .inl rfl⟩

theorem holds_closeMessage :
    Triple Holds closeMessage fun _ log s => Holds log s ∧ s.message = none := by
  refine Triple.after_get fun a => ?_
  rcases hmessage : a.message with _ | message
  · exact .of_pure fun log s ⟨h, heq⟩ => ⟨h, heq ▸ hmessage⟩
  · have hstart : Triple (fun log s => Holds log s ∧ a = s)
        (modify ({ · with message := none }) : Convert PUnit)
        fun _ log s => Stage (message.slot :: a.reasoning.toList.map ReasoningState.slot) log s ∧
          held s = (none, a.reasoning) := by
      refine .of_modify fun log s ⟨h, heq⟩ => ⟨?_, heq ▸ rfl⟩
      subst heq
      rw [Holds, openSlots, hmessage] at h
      exact h.congr rfl
    refine hstart.bind fun _ => ?_
    refine ((stage_textDone .outputText message.id message.text).frame (keeps_emitEvent _) _).bind
      fun _ => ?_
    refine ((stage_neutral {} rfl rfl rfl).frame (keeps_emitEvent _) _).bind fun _ => ?_
    exact ((stage_doneItem (finished_message message)).frame (keeps_doneItem _ _) _).post
      fun _ log s h => ⟨h.1.holds h.2 rfl, congrArg Prod.fst h.2⟩

theorem holds_closeReasoning :
    Triple Holds closeReasoning fun _ log s => Holds log s ∧ s.reasoning = none := by
  refine Triple.after_get fun a => ?_
  rcases hreasoning : a.reasoning with _ | reasoning
  · exact .of_pure fun log s ⟨h, heq⟩ => ⟨h, heq ▸ hreasoning⟩
  · have hstart : Triple (fun log s => Holds log s ∧ a = s)
        (modify ({ · with reasoning := none }) : Convert PUnit)
        fun _ log s => Stage (reasoning.slot :: a.message.toList.map MessageState.slot) log s ∧
          held s = (a.message, none) := by
      refine .of_modify fun log s ⟨h, heq⟩ => ⟨?_, heq ▸ rfl⟩
      subst heq
      rw [Holds, openSlots, hreasoning] at h
      exact (h.perm (perm_append_singleton _ _)).congr rfl
    refine hstart.bind fun _ => ?_
    refine ((stage_textDone .reasoningSummary reasoning.id reasoning.text).frame
      (keeps_emitEvent _) _).bind fun _ => ?_
    refine ((stage_neutral {} rfl rfl rfl).frame (keeps_emitEvent _) _).bind fun _ => ?_
    refine ((stage_doneItem (finished_reasoning reasoning)).frame (keeps_doneItem _ _) _).bind
      fun _ => ?_
    refine .of_modify fun log s ⟨h, hheld⟩ => ?_
    exact ⟨(h.holds hheld (by simp)).congr rfl rfl, congrArg Prod.snd hheld⟩

theorem holds_openMessage :
    Triple Holds openMessage fun _ log s => Holds log s ∧ s.message.isSome = true := by
  refine Triple.after_get fun a => ?_
  rcases hmessage : a.message with _ | message
  · have hstage : ∀ log s, Holds log s ∧ a = s →
        Stage (a.reasoning.toList.map ReasoningState.slot) log s ∧
          held s = (none, a.reasoning) := by
      rintro _ _ ⟨h, rfl⟩
      refine ⟨?_, by rw [held, hmessage]⟩
      rw [Holds, openSlots, hmessage] at h
      exact h
    refine Triple.bind ((stage_takeOutputIndex.frame keeps_takeOutputIndex _).pre hstage)
      fun index => .reading fun a' => ?_
    refine ((stage_itemAdded index _).frame (keeps_emitEvent _) _).bind fun _ => ?_
    refine ((stage_neutral {} rfl rfl rfl).frame (keeps_emitEvent _) _).bind fun _ => ?_
    refine .of_modify fun log s ⟨h, hheld⟩ => ⟨?_, rfl⟩
    exact Stage.holds (h.congr rfl) (congrArg (Prod.mk _) (congrArg Prod.snd hheld)) rfl
  · exact .of_pure fun log s ⟨h, heq⟩ => ⟨h, by simp [← heq, hmessage]⟩

theorem holds_openReasoning (codec : Codec) (signature : String) :
    Triple Holds (openReasoning codec signature)
      fun _ log s => Holds log s ∧ s.reasoning.isSome = true := by
  refine Triple.after_get fun a => ?_
  rcases hreasoning : a.reasoning with _ | reasoning
  · have hstage : ∀ log s, Holds log s ∧ a = s →
        Stage (a.message.toList.map MessageState.slot) log s ∧ held s = (a.message, none) := by
      rintro _ _ ⟨h, rfl⟩
      refine ⟨?_, by rw [held, hreasoning]⟩
      rw [Holds, openSlots, hreasoning] at h
      simpa using h
    refine .reading fun a' => ?_
    refine Triple.bind ((stage_takeOutputIndex.frame keeps_takeOutputIndex _).pre hstage)
      fun index => .reading fun a' => ?_
    refine ((stage_itemAdded index _).frame (keeps_emitEvent _) _).bind fun _ => ?_
    refine ((stage_neutral {} rfl rfl rfl).frame (keeps_emitEvent _) _).bind fun _ => ?_
    refine .of_modify fun log s ⟨h, hheld⟩ => ⟨?_, rfl⟩
    have hmessage := congrArg Prod.fst hheld
    refine Stage.holds ((h.perm (perm_append_singleton _ _).symm).congr rfl)
      (congrArg (Prod.mk · _) hmessage) ?_
    rfl
  · exact .of_pure fun log s ⟨h, heq⟩ => ⟨h, by simp [← heq, hreasoning]⟩

theorem holds_messageDelta (text : String) :
    Triple (fun log s => Holds log s ∧ s.message.isSome = true) (messageDelta text)
      fun _ => Holds := by
  refine ⟨fun log s ⟨h, hsome⟩ => ?_⟩
  obtain ⟨message, hmessage⟩ := Option.isSome_iff_exists.mp hsome
  rw [Holds, openSlots, hmessage] at h
  have hdelta := (stage_delta .outputText message.id text).run log s h
  have hevents : (messageDelta text).events s =
      (emitEvent (.delta .outputText message.id message.slot.index text)).events s := by
    simp [messageDelta, emitEvent, hmessage, MessageState.slot]
  have hheld : held ((messageDelta text).state s) =
      (some { message with text := message.text ++ text }, s.reasoning) := by
    simp [held, messageDelta, emitEvent, hmessage]
  rw [hevents]
  refine Stage.holds ?_ hheld rfl
  exact hdelta.congr rfl

theorem holds_reasoningDelta (text : String) :
    Triple (fun log s => Holds log s ∧ s.reasoning.isSome = true) (reasoningDelta text)
      fun _ => Holds := by
  refine ⟨fun log s ⟨h, hsome⟩ => ?_⟩
  obtain ⟨reasoning, hreasoning⟩ := Option.isSome_iff_exists.mp hsome
  rw [Holds, openSlots, hreasoning] at h
  have hdelta := (stage_delta .reasoningSummary reasoning.id text).run log s
    (h.perm (perm_append_singleton _ _))
  have hevents : (reasoningDelta text).events s =
      (emitEvent (.delta .reasoningSummary reasoning.id reasoning.slot.index text)).events s := by
    simp [reasoningDelta, emitEvent, hreasoning, ReasoningState.slot]
  have hheld : held ((reasoningDelta text).state s) =
      (s.message, some { reasoning with text := reasoning.text ++ text }) := by
    simp [held, reasoningDelta, emitEvent, hreasoning]
  rw [hevents]
  refine Stage.holds ?_ hheld rfl
  exact (hdelta.perm (perm_append_singleton _ _).symm).congr rfl

variable {f : Convert Unit}

/-- What keeps the open items, whatever they are. -/
theorem holds_of_stage (hstage : ∀ opened, Invariant (Stage opened) f) (hkeeps : Keeps held f) :
    Invariant Holds f :=
  .of_keeps hstage ⟨fun s => by
    obtain ⟨hmessage, hreasoning⟩ := Prod.mk.inj (hkeeps.view_state s)
    rw [openSlots, openSlots, hmessage, hreasoning]⟩

variable (codec : Codec)

theorem holds_emitReasoningCarrier (signature direction target : String) :
    Triple Holds (emitReasoningCarrier codec signature direction target) fun _ => Holds := by
  refine holds_of_stage (fun opened => ?_) ⟨fun _ => rfl⟩
  refine stage_takeOutputIndex.bind fun index => .reading fun a => ?_
  refine (stage_itemAdded index _).bind fun _ => ?_
  refine stage_doneItem fun type _ htype => ?_
  obtain rfl := Option.some.inj htype
  exact ⟨rfl, .inr ⟨rfl, rfl, rfl⟩⟩

/-- Nothing is open any more. -/
theorem holds_closeAll {Q : Unit → List NumberedEvent → ResponseState → Prop}
    (hf : Triple Holds f Q) : Triple Holds (do closeReasoning; closeMessage; f) Q := by
  refine holds_closeReasoning.fst.bind fun _ => ?_
  exact holds_closeMessage.fst.bind fun _ => hf

theorem holds_processInlineData (data : Json) :
    Triple Holds (processInlineData data) fun _ => Holds := by
  refine holds_closeAll (holds_of_stage (fun opened => ?_) ?_)
  · refine stage_takeOutputIndex.bind fun index => .reading fun a => ?_
    refine (stage_itemAdded index _).bind fun _ => ?_
    refine .seq (.whenever (stage_neutral {} rfl rfl rfl)) fun _ => ?_
    refine stage_doneItem fun type hmem htype => ?_
    obtain rfl := Option.some.inj htype
    simp at hmem
  · refine keeps_takeOutputIndex.bind fun index => .bind .of_get fun s => ?_
    refine (keeps_emitEvent _).bind fun _ => .bind (.when (keeps_emitEvent _)) fun _ => ?_
    exact keeps_doneItem _ _

theorem holds_seeSignature (signature : String) :
    Triple Holds (seeSignature signature) fun _ => Holds := by
  refine .reading fun a => ?_
  split
  · exact .skip
  · exact .seq (.of_modify fun _ s h => h.congr rfl rfl) fun _ => .skip

theorem holds_processThought (part : Json) (text : String) :
    Triple Holds (processThought codec part text) fun _ => Holds := by
  refine holds_closeMessage.fst.bind fun _ => ?_
  refine .seq (.whenever (.seq (holds_seeSignature _) fun _ => .skip)) fun _ => ?_
  refine .reading fun a => .seq (.whenever holds_closeReasoning.fst) fun _ => ?_
  exact (holds_openReasoning codec _).bind fun _ =>
    .when (holds_reasoningDelta text) fun _ _ h => h.1

theorem holds_processText (part : Json) (text : String) :
    Triple Holds (processText codec part text) fun _ => Holds := by
  refine .seq (.withSome fun signature _ => .seq (holds_seeSignature signature) fun isNew => ?_)
    fun _ => ?_
  · refine .whenever (holds_closeMessage.fst.bind fun _ => ?_)
    exact holds_emitReasoningCarrier codec signature _ _
  · refine holds_closeReasoning.fst.bind fun _ => ?_
    refine .seq (.of_modify fun _ s h => h.congr rfl rfl) fun _ => ?_
    exact holds_openMessage.bind fun _ => .when (holds_messageDelta text) fun _ _ h => h.1

theorem holds_callSignature (part : Json) : Triple Holds (callSignature part) fun _ => Holds := by
  unfold callSignature
  split
  · exact .skip
  · exact .reading fun a => .seq (.of_modify fun _ s h => h.congr rfl rfl) fun _ => .skip

theorem finished_call (call : Call) (index : ℕ) (text : String) :
    Finished { index, streamed := if call.identity.custom then "" else text, told := [text] }
      (call.item "completed" text) := by
  obtain ⟨⟨_, _, custom⟩, _, _, _⟩ := call
  intro type hmem htype
  cases custom with
  | true =>
    obtain rfl := Option.some.inj htype
    simp [Call.type] at hmem
  | false => exact ⟨rfl, .inl rfl⟩

/-- A call is added, told and done. -/
theorem stage_emitCall (opened : List Slot) (call : Call) (index : ℕ) (text : String) :
    Triple (Taken index opened) (emitCall call index text) fun _ => Stage opened := by
  have hfinished := finished_call call index text
  refine (stage_itemAdded index _).bind fun _ => ?_
  cases hcustom : call.identity.custom with
  | true =>
    rw [hcustom] at hfinished
    refine .seq .skip fun _ => ?_
    exact (stage_textDone _ _ text).bind fun _ => stage_doneItem hfinished
  | false =>
    rw [hcustom] at hfinished
    refine (stage_delta _ _ text).bind fun _ => (stage_textDone _ _ text).bind fun _ => ?_
    exact stage_doneItem hfinished

theorem keeps_emitCall (call : Call) (index : ℕ) (text : String) :
    Keeps held (emitCall call index text) := by
  refine (keeps_emitEvent _).bind fun _ => .bind (.when (keeps_emitEvent _)) fun _ => ?_
  exact (keeps_emitEvent _).bind fun _ => keeps_doneItem _ _

theorem holds_carryCallSignature (fromPreviousReasoning : Bool) (signature : String) :
    Triple Holds (carryCallSignature codec fromPreviousReasoning signature) fun _ => Holds := by
  refine .seq ?_ fun isNew => .reading fun s => ?_
  · unfold carryCallSignature.rememberUnless
    split
    · exact .skip
    · exact holds_seeSignature signature
  · exact .whenever (holds_emitReasoningCarrier codec _ _ _)

theorem holds_processFunctionCall (part functionCall : Json) :
    Triple Holds (processFunctionCall codec part functionCall) fun _ => Holds := by
  refine holds_closeAll (.reading fun a => .seq (holds_callSignature part) fun signature => ?_)
  refine .seq (.withSome fun signature _ => holds_carryCallSignature codec _ signature) fun _ => ?_
  refine holds_of_stage (fun opened => ?_) ?_
  · exact stage_takeOutputIndex.bind fun index => .reading fun s => stage_emitCall opened _ index _
  · exact keeps_takeOutputIndex.bind fun index => .bind .of_get fun s => keeps_emitCall _ index _

theorem holds_processPart (part : Json) : Triple Holds (processPart codec part) fun _ => Holds := by
  refine .seq (.withSome fun text _ => ?_) fun _ => ?_
  · split
    · exact holds_processThought codec part text
    · exact holds_processText codec part text
  · refine .seq (.withSome fun call _ => holds_processFunctionCall codec part call) fun _ => ?_
    exact .withSome fun data _ => holds_processInlineData data

end

/-! ## Beginning and end -/

/-- A response of which nothing was said. -/
structure Untouched (log : List NumberedEvent) (s : ResponseState) : Prop where
  log : log = []
  core : core s = (false, false, 0, 0, [])
  held : held s = (none, none)

structure Grammar (log : List NumberedEvent) : Prop where
  numbered : Numbered log
  greeted : Greeted (bare log)
  indexes : added (bare log) = range (added (bare log)).length
  done_once : ((doneItems (bare log)).map (·.1)).Perm (added (bare log))
  texts : ∀ done ∈ doneItems (bare log),
    Finished ⟨done.1, deltas done.1 (bare log), doneTexts done.1 (bare log)⟩ done.2
  terminal : ∃ before last, bare log = before ++ [last] ∧ last.isTerminal = true ∧
    ∀ event ∈ before, event.isTerminal = false
  listed : ∀ event ∈ bare log, ∀ response ∈ event.completion,
    response.member? "output" = some (.arr ((doneItems (bare log)).map (·.2)))

def Ended (log : List NumberedEvent) (s : ResponseState) : Prop :=
  s.completed = true ∧ Grammar log

section

variable {log : List NumberedEvent} {s : ResponseState}

/-- The event that ends a response with this output. -/
structure EndsWith (event : ResponsesEvent) (output : List Json) : Prop extends event.Last where
  progress : event.isInProgress = false := by rfl
  listed : ∀ response ∈ event.completion, response.member? "output" = some (.arr output)

theorem Stage.grammar (h : Stage [] log s) {event : ResponsesEvent}
    (hlast : EndsWith event s.output) : Grammar (log ++ [⟨s.sequence, event⟩]) := by
  obtain ⟨⟨_, h⟩, hindexes⟩ := h
  have hledger := h.ledger.neutral hlast.neutral
  have hdone : (doneItems (bare log ++ [event])).map (·.2) = s.output := by
    rw [hledger.done, h.output, map_map]
    rfl
  have hadded : added (bare log ++ [event]) = range s.nextOutputIndex := by
    simpa [hlast.neutral.added] using hindexes
  constructor
  case numbered => exact h.spoken.numbered_append event
  all_goals rw [bare_append, bare_singleton]
  case greeted => exact h.greeted.append hlast.created hlast.progress
  case indexes => rw [hadded, length_range]
  case done_once =>
    have hperm := hledger.indexes.symm
    rw [nil_append, map_map] at hperm
    rw [hledger.done, map_map]
    exact hperm
  case texts =>
    intro done hmem
    rw [hledger.done] at hmem
    obtain ⟨c, hc, rfl⟩ := mem_map.mp hmem
    obtain ⟨hstreamed, htold⟩ := hledger.texts c.1 (mem_map_of_mem hc)
    rw [hstreamed, htold]
    exact h.finished c hc
  case terminal => exact ⟨bare log, event, rfl, hlast.terminal, h.spoken.quiet⟩
  case listed =>
    intro event' hmem response hresponse
    rw [hdone]
    obtain hmem | hmem := mem_append.mp hmem
    · rw [completion_of_quiet (h.spoken.quiet event' hmem)] at hresponse
      cases hresponse
    · rw [mem_singleton.mp hmem] at hresponse
      exact hlast.listed response hresponse

variable {last : ResponseState → ResponsesEvent}

/-- An end of the response, after what is open has been closed. -/
theorem ended_of_last (hlast : ∀ s, EndsWith (last s) s.output) :
    Triple Holds
      (do
        closeReasoning
        closeMessage
        emitEvent (last (← get))
        modify ({ · with completed := true }) : Convert PUnit)
      fun _ => Ended := by
  have hkeeps : Keeps (·.reasoning) closeMessage := by
    refine .bind .of_get fun s => .withSome fun message _ => ?_
    refine .bind (.of_modify fun _ => rfl) fun _ => ?_
    exact .bind ⟨fun _ => rfl⟩ fun _ => .bind ⟨fun _ => rfl⟩ fun _ => ⟨fun _ => rfl⟩
  refine holds_closeReasoning.bind fun _ => (holds_closeMessage.frame hkeeps none).bind fun _ => ?_
  refine ⟨fun log s ⟨⟨h, hmessage⟩, hreasoning⟩ => ⟨rfl, ?_⟩⟩
  rw [Holds, openSlots, hmessage, hreasoning] at h
  simpa [emitEvent] using h.grammar (hlast s)

theorem Untouched.holds (h : Untouched log s) (response response' : Json) :
    Holds [⟨0, .created response⟩, ⟨1, .inProgress response'⟩]
      { s with started := true, sequence := 2 } := by
  obtain ⟨hmessage, hreasoning⟩ := Prod.mk.inj h.held
  have hcore := h.core
  simp only [Antigravity.core, Prod.mk.injEq] at hcore
  obtain ⟨-, hcompleted, -, hindex, houtput⟩ := hcore
  have hprogress : (ResponsesEvent.inProgress response').Neutral := {}
  have hledger : Ledger [.created response, .inProgress response'] [] [] :=
    (Ledger.empty.neutral {}).neutral hprogress
  refine ⟨⟨[], rfl, hcompleted, (Spoken.first response).emit rfl rfl, ?_, ?_, houtput, ?_⟩, ?_⟩
  · exact ⟨response, response', [], rfl, fun _ hmem => by cases hmem⟩
  · have hopen : openSlots s = [] := by simp [openSlots, hmessage, hreasoning]
    change Ledger [.created response, .inProgress response'] (openSlots s) []
    rwa [hopen]
  · intro c hc
    cases hc
  · rw [hindex]
    rfl

/-- Before the end. -/
abbrev Going (log : List NumberedEvent) (s : ResponseState) : Prop :=
  Untouched log s ∨ Holds log s

theorem holds_start : Triple Going start fun _ => Holds := by
  refine ⟨fun log s h => ?_⟩
  rcases h with h | h
  · obtain rfl := h.log
    have hcore := h.core
    simp only [Antigravity.core, Prod.mk.injEq] at hcore
    obtain ⟨hstarted, -, hsequence, -⟩ := hcore
    simpa [start, hstarted, emitEvent, hsequence] using h.holds _ _
  · obtain ⟨⟨_, haccount⟩, -⟩ := id h
    simpa [start, haccount.started] using h

/-- Anything that can be true between two payloads. -/
def Live (log : List NumberedEvent) (s : ResponseState) : Prop :=
  (Untouched log s ∨ Holds log s) ∨ Ended log s

theorem uncompleted_of_going (h : Going log s) : s.completed = false := by
  rcases h with h | h
  · have hcore := h.core
    simp only [Antigravity.core, Prod.mk.injEq] at hcore
    exact hcore.2.1
  · obtain ⟨⟨_, haccount⟩, -⟩ := h
    exact haccount.uncompleted

theorem ended_finish (hlast : ∀ s, EndsWith (last s) s.output) :
    Triple Live
      (do
        Emit.when (!(← get).completed) do
          start
          closeReasoning
          closeMessage
          emitEvent (last (← get))
          modify ({ · with completed := true }) : Convert Unit)
      fun _ => Ended := by
  refine Triple.after_get fun a => ?_
  cases hcompleted : a.completed with
  | true =>
    refine .of_pure fun log s ⟨h, heq⟩ => h.resolve_left fun hgoing => ?_
    subst heq
    cases hcompleted.symm.trans (uncompleted_of_going hgoing)
  | false =>
    refine Triple.bind (holds_start.pre fun log s ⟨h, heq⟩ => h.resolve_right fun hended => ?_)
      fun _ => ended_of_last hlast
    subst heq
    cases hcompleted.symm.trans hended.1

theorem ended_complete (finishReason : String) :
    Triple Live (complete finishReason) fun _ => Ended := by
  rcases hreason : incompleteReason finishReason with _ | reason
  all_goals
    unfold complete
    rw [hreason]
    refine ended_finish fun s => { listed := fun response h => ?_ }
    obtain rfl := Option.some.inj h
    rfl

theorem ended_failResponse (message : String) : Triple Live (failResponse message) fun _ => Ended :=
  ended_finish fun _ => { listed := fun _ h => by cases h }

variable (codec : Codec)

theorem live_processCandidate (candidate : Json) :
    Triple Holds (processCandidate codec candidate) fun _ => Live := by
  refine .seq (.withSome fun chunks _ => .of_modify fun _ s h => h.congr rfl rfl) fun _ => ?_
  refine .seq (.withSome fun parts _ => .each (holds_processPart codec) parts) fun _ => ?_
  rcases endReason candidate with _ | reason
  · exact .of_pure fun _ _ h => .inl (.inr h)
  · exact (ended_complete reason).conseq (fun _ _ h => .inl (.inr h)) fun _ _ _ h => .inr h

/-- Fields that no event before the next one shows. -/
theorem going_congr {s' : ResponseState} (h : Going log s) (hcore : core s' = core s)
    (hheld : held s' = held s) : Going log s' :=
  h.imp (fun h => ⟨h.log, hcore.trans h.core, hheld.trans h.held⟩) fun h => h.congr hcore hheld

theorem live_processPayload (payload : Json) :
    Triple Live (processPayload codec payload) fun _ => Live := by
  refine Triple.after_get fun a => ?_
  cases hcompleted : a.completed with
  | true => exact .of_pure fun _ _ h => h.1
  | false =>
    rcases payloadError payload with _ | error
    · have hgoing : ∀ log s, Live log s ∧ a = s → Going log s := by
        rintro _ _ ⟨h, rfl⟩
        refine h.resolve_right fun hended => ?_
        cases hcompleted.symm.trans hended.1
      have hset {β : Type} {o : Option β} {f : β → ResponseState → ResponseState}
          (hf : ∀ b s, core (f b s) = core s ∧ held (f b s) = held s) :
          Invariant Going (Emit.withSome o fun b => modify (f b) : Convert Unit) :=
        .withSome fun b _ => .of_modify fun _ s h => going_congr h (hf b s).1 (hf b s).2
      refine Triple.pre (P := Going) (.reading fun a => ?_) hgoing
      refine .seq (.whenever (hset fun _ _ => ⟨rfl, rfl⟩)) fun _ => ?_
      refine .seq (hset fun _ _ => ⟨rfl, rfl⟩) fun _ => ?_
      refine .seq (hset fun _ _ => ⟨rfl, rfl⟩) fun _ => ?_
      refine holds_start.bind fun _ => .bind (Q := fun _ => Live) ?_ fun _ => .skip
      rcases ((payloadResponse payload).member? "candidates").bind Json.toArr |>.bind
        List.head? with _ | candidate
      · exact .of_pure fun _ _ h => .inl (.inr h)
      · exact live_processCandidate codec candidate
    · exact .of_pure fun _ _ h => h.1

end

/-! ## The stream -/

/-- Nothing is read after an error, and an error ends the response. -/
def Running (log : List NumberedEvent) (r : Reading) : Prop :=
  Live log r.state ∧ (r.state.completed = false → r.terminalError = none ∧ r.eof = false)

section

variable {log : List NumberedEvent} {r : Reading}

theorem Running.ended (h : Running log r) (hcompleted : r.state.completed = true) :
    Grammar log := by
  refine (h.1.resolve_left fun hgoing => ?_).2
  cases hcompleted.symm.trans (uncompleted_of_going hgoing)

theorem running_fail (error : ProviderError) :
    Triple Running (fail error) fun _ log r => Running log r ∧ r.state.completed = true := by
  refine ⟨fun log r h => ?_⟩
  have hended := (ended_failResponse error.message).run log r.state h.1
  refine ⟨⟨.inr (by simpa [fail] using hended), fun hopen => ?_⟩, ?_⟩
  · cases hopen.symm.trans hended.1
  · exact hended.1

variable (codec : Codec)

theorem running_processFrame (frame : Bytes) :
    Triple Running (processFrame codec frame) fun _ => Running := by
  unfold processFrame
  split
  · exact .skip
  · split
    · exact .skip
    · rename_i value hparse
      refine ⟨fun log r h =>
        ⟨(live_processPayload codec value).run log r.state h.1, fun hopen => ?_⟩⟩
      refine h.2 (Bool.eq_false_iff.mpr fun hcompleted => ?_)
      have hstill : ((processPayload codec value).state r.state).completed = true := by
        simp [processPayload, hcompleted]
      cases hstill.symm.trans hopen

theorem running_processFrames (frames : List Bytes) :
    Triple Running (processFrames codec frames) fun _ => Running := by
  induction frames with
  | nil => exact .skip
  | cons frame _ ih =>
    refine (running_processFrame codec frame).bind fun failed => ?_
    cases failed with
    | none => exact ih
    | some error => exact (running_fail error).fst

theorem running_receive (decoder : SseDecoder) (arrival : Arrival) :
    Triple Running (receive codec decoder arrival).2 fun _ => Running := by
  have hfail (error : ProviderError) := (running_fail error).fst
  cases arrival with
  | chunk bytes =>
    rcases hpush : decoder.push bytes with ⟨decoder', _ | frames⟩
    · simpa [receive, hpush] using hfail oversizedError
    · simpa [receive, hpush] using running_processFrames codec frames
  | error error => exact hfail error
  | timeout => exact hfail idleError

theorem grammar_finishStream (last : Option Bytes) :
    Triple Running (finishStream codec last) fun _ log _ => Grammar log := by
  refine (running_processFrames codec last.toList).bind fun _ => Triple.after_get fun r => ?_
  cases hcompleted : r.state.completed with
  | true =>
    refine .seq (.of_pure fun log r' h => h) fun _ => .of_modify fun log r' h => ?_
    exact h.1.ended (h.2 ▸ hcompleted)
  | false =>
    rcases herror : r.terminalError with _ | error
    · exact Triple.bind ((running_fail endedError).left)
        fun _ => .of_modify fun log r' h => h.1.ended h.2
    · refine ⟨fun log r' ⟨h, heq⟩ => ?_⟩
      subst heq
      cases herror.symm.trans (h.2 hcompleted).1

theorem answered_grammar (h : Running log r) (hreading : r.eof = false) (decoder : SseDecoder)
    (upstream : List Arrival) :
    ∃ log' failure, log.map .ok ++ answered codec r decoder upstream =
        log'.map .ok ++ (failure : Option ProviderError).toList.map .error ∧ Grammar log' := by
  induction upstream generalizing log r decoder with
  | nil =>
    refine ⟨log ++ (finishStream codec decoder.finish).events r,
      ((finishStream codec decoder.finish).state r).terminalError, ?_,
      (grammar_finishStream codec _).run log r h⟩
    simp [answered, Reading.lastItems]
  | cons arrival _ ih =>
    have hrun := (running_receive codec decoder arrival).run log r h
    rcases heof : ((receive codec decoder arrival).2.state r).eof with _ | _
    · obtain ⟨log', failure, hitems, hgrammar⟩ := ih hrun heof (receive codec decoder arrival).1
      refine ⟨log', failure, ?_, hgrammar⟩
      rw [← hitems]
      simp [answered, heof]
    · have hcompleted : ((receive codec decoder arrival).2.state r).state.completed = true := by
        refine Bool.eq_true_of_not_eq_false fun hopen => ?_
        cases heof.symm.trans (hrun.2 hopen).2
      refine ⟨_, ((receive codec decoder arrival).2.state r).terminalError, ?_,
        hrun.ended hcompleted⟩
      simp [answered, heof, Reading.lastItems]

end

/-- The stream that is made of whatever arrives ends, and it keeps to the Responses protocol. -/
theorem antigravity_stream_grammar (codec : Codec) (model responseId : String)
    (toolIdentities : List (String × ToolIdentity)) (upstream : List Arrival) :
    ∃ log failure, Unfold.Reads (ResponseStream.nextOutput codec)
        (.translate model responseId toolIdentities upstream)
        (log.map .ok ++ (failure : Option ProviderError).toList.map .error) ∧ Grammar log := by
  have hstart : Running []
      (ResponseStream.translate model responseId toolIdentities upstream).reading :=
    ⟨.inl (.inl ⟨rfl, rfl, rfl⟩), fun _ => ⟨rfl, rfl⟩⟩
  obtain ⟨log, failure, hitems, hgrammar⟩ := answered_grammar codec hstart rfl {} upstream
  refine ⟨log, failure, ?_, hgrammar⟩
  rw [ResponseStream.reads_iff, ← hitems]
  rfl

end ProviderCore.Antigravity
