import ProviderCore.Grok.Stream

/-!
# The end of a Grok response

Of all that the restorer does to an event, two things matter for how the client sees the response
end: an event that ends the response is handed on as one, and nothing else becomes one.  So the
restorer knows at any time whether the client was told an end (`Account`), and an ending makes up a
failure exactly when it was not.
-/

namespace ProviderCore.Grok.Restore

open List
open Json (Edit Members)
open Json.Edit (Leaves)
open Protocol (Arrival NoBreak WellEnded dataOf joinData sseDataPayload sseEventName unlines)

/-! ## The type of an event -/

def typeOf (payload : Members) : String := (payload.text? "type").getD ""

/-- The event ends the response. -/
def ends (payload : Members) : Bool := isTerminalResponseEvent (typeOf payload)

theorem ends_congr {payload payload' : Members}
    (h : payload'.get? "type" = payload.get? "type") : ends payload' = ends payload := by
  rw [ends, ends, typeOf, typeOf, Members.text?, Members.text?, h]

@[simp] theorem typeOf_insert (payload : Members) (type : String) :
    typeOf (payload.insert "type" (.str type)) = type := by
  simp [typeOf, Members.text?]

theorem leaves_normalizeSummaryIndex : Leaves "type" normalizeSummaryIndex := by
  intro payload
  unfold normalizeSummaryIndex
  rw [Members.get?_remove_of_ne (by decide)]
  split
  · exact Members.get?_insert_of_ne (by decide) _
  · rfl

theorem ends_renameReasoning {type : String} (h : isTerminalResponseEvent type = false)
    (payload : Members) : ends (renameReasoning type payload) = false := by
  rw [renameReasoning, ends_congr (leaves_normalizeSummaryIndex _), ends, typeOf_insert, h]

theorem ends_renameReasoningPart {type : String} (h : isTerminalResponseEvent type = false)
    (payload : Members) : ends (renameReasoningPart type payload) = false := by
  rw [renameReasoningPart, ends_congr (leaves_normalizeSummaryIndex _),
    ends_congr (Members.get?_update_of_ne (by decide) _), ends, typeOf_insert, h]

theorem leaves_editOutput (f : Edit Json) : Leaves "type" fun payload => (editOutput f payload).1 :=
  Edit.leaves_member (by decide) _

/-- Reasoning under another name is no end, and was none before. -/
theorem ends_normalizeReasoningType (payload : Members) :
    ends (normalizeReasoningType payload).1 = ends payload := by
  have hother {type : String} (htype : payload.text? "type" = some type)
      (h : isTerminalResponseEvent type = false) : ends payload = false := by
    rw [ends, typeOf, htype, Option.getD_some, h]
  unfold normalizeReasoningType
  split
  case h_1 htype =>
    rw [hother htype (by decide)]
    exact ends_renameReasoning (by decide) _
  case h_2 htype | h_3 htype =>
    split
    · rw [hother htype (by decide)]
      exact ends_renameReasoningPart (by decide) _
    · rfl
  case h_4 => rfl

theorem ends_normalizeReasoningPayload (payload : Members) :
    ends (normalizeReasoningPayload payload).1 = ends payload := by
  have hleaves := Edit.leaves_andThen
    (Edit.leaves_member (show "type" ≠ "item" by decide) normalizeReasoningItem)
    (leaves_editOutput normalizeReasoningItem)
  exact (ends_congr (hleaves _)).trans (ends_normalizeReasoningType payload)

theorem leaves_restoreNamespaceEvent (mappings : GrokToolMappings) :
    Leaves "type" fun payload => (restoreNamespaceEvent mappings payload).1 := by
  refine Edit.leaves_andThen (Edit.leaves_member (by decide) _) ?_
  intro payload
  dsimp only
  unfold restoreArgumentsName
  split
  · split
    · exact Members.get?_insert_of_ne (by decide) _
    · rfl
  · rfl

theorem leaves_restoreClientToolItem (codec : JsonCodec) (call : ClientToolCall) (input : String) :
    Leaves "type" fun payload => (restoreClientToolItem codec call input payload).1 :=
  Edit.leaves_member (by decide) _

/-! ## Item ids -/

section

variable (itemUuid : String → String) (ids : ItemIds) (payload : Members)

theorem normalizeField_type {field : String} (hne : "type" ≠ field) :
    (ids.normalizeField itemUuid field payload).1.1.get? "type" = payload.get? "type" := by
  unfold ItemIds.normalizeField
  split
  · rfl
  · dsimp only
    split
    · rfl
    · exact Members.get?_insert_of_ne hne _

theorem normalizeEventItem_type :
    (ids.normalizeEventItem itemUuid payload).1.1.get? "type" = payload.get? "type" := by
  unfold ItemIds.normalizeEventItem
  split
  · dsimp only
    exact Members.get?_update_of_ne (by decide) _
  · rfl

theorem normalizeOutput_type :
    (ids.normalizeOutput itemUuid payload).1.1.get? "type" = payload.get? "type" := by
  unfold ItemIds.normalizeOutput
  split
  · dsimp only
    exact Members.get?_update_of_ne (by decide) _
  · rfl

theorem normalizeItemIds_type :
    (ids.normalizeItemIds itemUuid payload).1.1.get? "type" = payload.get? "type" :=
  ((normalizeOutput_type itemUuid _ _).trans (normalizeEventItem_type itemUuid _ _)).trans
    (normalizeField_type itemUuid ids payload (by decide))

end

/-! ## The restorer -/

namespace GrokToolStreamRestorer

section

variable (r : GrokToolStreamRestorer) (payload : Members) (sequence : Option ℤ) (changed : Bool)

theorem resequence_type :
    (r.resequence payload sequence changed).1.get? "type" = payload.get? "type" := by
  unfold resequence
  split
  · rfl
  · split
    · exact Members.get?_insert_of_ne (by decide) _
    · rfl

theorem generatedEvent_type : (r.generatedEvent payload).1.get? "type" = payload.get? "type" := by
  unfold generatedEvent
  split
  · rfl
  · exact Members.get?_insert_of_ne (by decide) _

end

/-- What the client was told of the response: whether it ended, and its id. -/
def Account (r r' : GrokToolStreamRestorer) : Prop :=
  r'.terminalSeen = r.terminalSeen ∧ r'.responseId = r.responseId ∧ r'.mappings = r.mappings

section

variable (r : GrokToolStreamRestorer) (payload : Members) (sequence : Option ℤ) (changed : Bool)

theorem resequence_account : r.Account (r.resequence payload sequence changed).2 := by
  unfold resequence
  split <;> exact ⟨rfl, rfl, rfl⟩

theorem generatedEvent_account : r.Account (r.generatedEvent payload).2 := by
  unfold generatedEvent
  split <;> exact ⟨rfl, rfl, rfl⟩

theorem recordCompletedItem_account : r.Account (r.recordCompletedItem payload) := by
  unfold recordCompletedItem
  split <;> exact ⟨rfl, rfl, rfl⟩

theorem recordClientToolItem_account {index : ℕ} {call : ClientToolCall}
    {r' : GrokToolStreamRestorer}
    (h : r.recordClientToolItem payload = some (index, call, r')) :
    r.Account r' ∧ r'.nextSequence = r.nextSequence := by
  unfold recordClientToolItem at h
  simp only [Option.bind_eq_bind, Option.bind_eq_some_iff] at h
  obtain ⟨_, -, -, -, _, -, _, -, h⟩ := h
  split at h <;> cases h <;> exact ⟨⟨rfl, rfl, rfl⟩, rfl⟩

end

theorem Account.trans {r r' r'' : GrokToolStreamRestorer} (h : r.Account r') (h' : r'.Account r'') :
    r.Account r'' :=
  ⟨h'.1.trans h.1, h'.2.1.trans h.2.1, h'.2.2.trans h.2.2⟩

/-- Events were handed on, and none of them ends the response. -/
structure Passes (r : GrokToolStreamRestorer) (result : List Members × GrokToolStreamRestorer) :
    Prop where
  account : r.Account result.2
  quiet : ∀ payload ∈ result.1, ends payload = false

section

variable {env : StreamEnv} {r r' : GrokToolStreamRestorer} {payload : Members}
  {sequence : Option ℤ} {changed : Bool}

theorem ends_inputDone (r : GrokToolStreamRestorer) (call : ClientToolCall) (input : String) :
    ends (inNamespace call (r.generatedEvent (inputDone call input)).1) = false := by
  have hevent : ends (r.generatedEvent (inputDone call input)).1 = false :=
    ends_congr (r.generatedEvent_type _)
  unfold inNamespace
  split
  · exact (ends_congr (Members.get?_insert_of_ne (by decide) _)).trans hevent
  · exact hevent

theorem passes_customInput (haccount : r.Account r')
    (call : ClientToolCall) (input : String) : r.Passes (r'.customInput call input) := by
  unfold customInput
  split
  · exact ⟨haccount.trans (r'.generatedEvent_account _),
      forall_mem_singleton.mpr (ends_inputDone r' call input)⟩
  · exact ⟨(haccount.trans (r'.generatedEvent_account _)).trans (generatedEvent_account _ _),
      forall_mem_cons.mpr ⟨ends_congr (r'.generatedEvent_type _),
        forall_mem_singleton.mpr (ends_inputDone _ call input)⟩⟩

variable (hends : ends payload = false)

include hends

/-- An event that is numbered and handed on alone. -/
theorem passes_resequence (haccount : r.Account r') :
    r.Passes ([(r'.resequence payload sequence changed).1],
      (r'.resequence payload sequence changed).2) where
  account := haccount.trans (r'.resequence_account payload sequence changed)
  quiet := forall_mem_singleton.mpr
    ((ends_congr (r'.resequence_type payload sequence changed)).trans hends)

theorem passes_passEvent : r.Passes (r.passEvent payload sequence changed) :=
  passes_resequence ((ends_congr (leaves_restoreNamespaceEvent r.mappings payload)).trans hends)
    ⟨rfl, rfl, rfl⟩

theorem passes_outputItemAdded : r.Passes (r.outputItemAdded env payload sequence changed) := by
  unfold outputItemAdded
  split
  · rename_i index call r' hrecord
    exact passes_resequence
      ((ends_congr (leaves_restoreClientToolItem env.codec call "" payload)).trans hends)
      (r.recordClientToolItem_account payload hrecord).1
  · exact passes_passEvent hends

theorem passes_argumentsDelta : r.Passes (r.argumentsDelta payload sequence changed) := by
  unfold argumentsDelta
  split
  · refine ⟨?_, fun _ hpayload => absurd hpayload not_mem_nil⟩
    split <;> exact ⟨rfl, rfl, rfl⟩
  · exact passes_passEvent hends

theorem passes_argumentsDone : r.Passes (r.argumentsDone env payload sequence changed) := by
  unfold argumentsDone
  split
  · exact passes_passEvent hends
  · dsimp only
    split
    · exact ⟨⟨rfl, rfl, rfl⟩, fun _ hpayload => absurd hpayload not_mem_nil⟩
    · refine passes_customInput ?_ _ _
      exact ⟨rfl, rfl, rfl⟩

theorem passes_outputItemDone : r.Passes (r.outputItemDone env payload sequence changed) := by
  unfold outputItemDone
  rcases hrecord : r.recordClientToolItem payload with _ | ⟨index, call, r'⟩
  · exact passes_resequence
      ((ends_congr (leaves_restoreNamespaceEvent r.mappings payload)).trans hends)
      (r.recordCompletedItem_account _)
  · obtain ⟨hrecorded, -⟩ := r.recordClientToolItem_account payload hrecord
    have haccount : r.Account { r' with clientToolCalls := r'.clientToolCalls.eraseIdx index } :=
      ⟨hrecorded.1, hrecorded.2⟩
    exact passes_resequence
      ((ends_congr (leaves_restoreClientToolItem env.codec call _ payload)).trans hends)
      (haccount.trans (recordCompletedItem_account _ _))

theorem passes_restoreEvent (type : String) :
    r.Passes (r.restoreEvent env type payload sequence changed) := by
  unfold restoreEvent
  split
  · exact passes_outputItemAdded hends
  · exact passes_argumentsDelta hends
  · exact passes_argumentsDone hends
  · exact passes_outputItemDone hends
  · exact passes_passEvent hends

omit hends in
theorem leaves_normalizeReasoningPartDone (payload : Members) :
    ends (normalizeReasoningPartDone payload) = false := by
  rw [normalizeReasoningPartDone, ends_congr (leaves_normalizeSummaryIndex _),
    ends_congr (Members.get?_remove_of_ne (by decide)),
    ends_congr (Members.get?_insert_of_ne (by decide) _), ends, typeOf_insert]
  rfl

omit hends in
theorem passes_reasoningTextDone : r.Passes (r.reasoningTextDone payload sequence) where
  account := (r.resequence_account _ _ _).trans (generatedEvent_account _ _)
  quiet := forall_mem_cons.mpr
    ⟨(ends_congr (r.resequence_type _ _ _)).trans (ends_renameReasoning (by decide) payload),
      forall_mem_singleton.mpr ((ends_congr (generatedEvent_type _ _)).trans
        (leaves_normalizeReasoningPartDone payload))⟩

omit hends in
/-- An event that ends the response is handed on as one. -/
theorem terminalEvent_spec (env : StreamEnv) (r : GrokToolStreamRestorer) (payload : Members)
    (sequence : Option ℤ) (changed : Bool) :
    let result := r.terminalEvent env payload sequence changed
    (∃ payload', result.1 = [payload'] ∧ payload'.get? "type" = payload.get? "type") ∧
      result.2.terminalSeen = true ∧ result.2.responseId = r.responseId := by
  have hpatch : Leaves "type" fun payload => (patchTerminalOutput r payload).1 :=
    Edit.leaves_member (by decide) _
  refine ⟨⟨_, rfl, ?_⟩, ?_, ?_⟩
  · exact (resequence_type _ _ _ _).trans ((leaves_editOutput _ _).trans (hpatch payload))
  · exact (resequence_account { r with terminalSeen := true } _ _ _).1
  · exact (resequence_account { r with terminalSeen := true } _ _ _).2.1

end

/-- What the events of a frame tell about the response. -/
structure Tells (r : GrokToolStreamRestorer) (id : Option String)
    (result : List Members × GrokToolStreamRestorer) : Prop where
  responseId : result.2.responseId = id.or r.responseId
  terminalSeen : result.2.terminalSeen = (r.terminalSeen || result.1.any ends)

variable {id : Option String}

theorem Passes.tells {r r' : GrokToolStreamRestorer}
    {result : List Members × GrokToolStreamRestorer} (h : r'.Passes result)
    (hseen : r'.terminalSeen = r.terminalSeen) (hid : r'.responseId = id.or r.responseId) :
    r.Tells id result where
  responseId := h.account.2.1.trans hid
  terminalSeen := by
    have hquiet : result.1.any ends = false := any_eq_false.mpr fun payload hpayload => by
      rw [h.quiet payload hpayload]
      exact Bool.false_ne_true
    rw [h.account.1, hseen, hquiet, Bool.or_false]

theorem terminalEvent_tells {env : StreamEnv} {r r' : GrokToolStreamRestorer}
    {payload : Members} {sequence : Option ℤ} {changed : Bool}
    (hid : r'.responseId = id.or r.responseId) (hends : ends payload = true) :
    r.Tells id (r'.terminalEvent env payload sequence changed) := by
  obtain ⟨⟨_, hevent, hsame⟩, hseen, hkept⟩ := terminalEvent_spec env r' payload sequence changed
  refine ⟨hkept.trans hid, ?_⟩
  rw [hseen, hevent, any_cons, ends_congr hsame, hends, Bool.true_or, Bool.or_true]

theorem restorePayload_tells (env : StreamEnv) (r : GrokToolStreamRestorer) (payload : Members) :
    r.Tells (responseIdOf payload) (r.restorePayload env payload) := by
  have htype : typeOf (renameCompleted ((payload.text? "type").getD "") payload).2 =
    (renameCompleted ((payload.text? "type").getD "") payload).1 := by
    -- a completed response with another status ends too
    unfold renameCompleted
    split
    · rw [typeOf, Members.text?, Members.get?_update_of_ne (by decide)]
      simp
    · rfl
  unfold restorePayload
  generalize renameCompleted ((payload.text? "type").getD "") payload = renamed at htype ⊢
  obtain ⟨type, payload'⟩ := renamed
  dsimp only at htype ⊢
  have hends (ids : ItemIds) : ends (normalizeReasoningPayload
      (ids.normalizeItemIds env.itemUuid payload').1.1).1 = isTerminalResponseEvent type := by
    rw [ends_normalizeReasoningPayload, ends_congr (normalizeItemIds_type _ _ _), ends, htype]
  split
  · exact passes_reasoningTextDone.tells rfl rfl
  · split
    · rename_i hterminal
      exact terminalEvent_tells rfl ((hends _).trans hterminal)
    · rename_i hother
      exact (passes_restoreEvent ((hends _).trans (by simpa using hother)) type).tells rfl rfl

end GrokToolStreamRestorer

/-! ## What the client reads in a frame -/

section

variable {type data : Bytes} {lines : List (Bytes × Bytes)}

theorem wellEnded_rewriteLines (htype : NoBreak type) (hdata : NoBreak data)
    (h : WellEnded lines) (wroteData : Bool) :
    WellEnded (rewriteLines type data wroteData lines) := by
  induction lines generalizing wroteData with
  | nil => trivial
  | cons line lines ih =>
    obtain ⟨_, ending⟩ := line
    obtain ⟨hcontent, hending, hrest⟩ := h
    have hlast (wroteData : Bool) : ending ∈ [[10], [13], [13, 10]] ∨
        ending = [] ∧ rewriteLines type data wroteData lines = [] :=
      hending.imp_right fun ⟨hnone, hnil⟩ => ⟨hnone, by rw [hnil]; rfl⟩
    unfold rewriteLines
    split
    · split
      · exact ih hrest true
      · exact ⟨NoBreak.append (by decide) hdata, hlast true, ih hrest true⟩
    · split
      · exact ⟨NoBreak.append (by decide) htype, hlast wroteData, ih hrest wroteData⟩
      · exact ⟨hcontent, hlast wroteData, ih hrest wroteData⟩

theorem not_data_event (type : Bytes) : ¬Text.ascii "data:" <+: Text.ascii "event: " ++ type := by
  rintro ⟨_, hrest⟩
  exact absurd (List.cons.inj hrest).1 (by decide)

/-- The new data stands in one line. -/
theorem foldl_rewriteLines (type data : Bytes) {wroteData : Bool} {before : Bytes}
    (hdata : wroteData = true ∨ before = [] ∧ ∃ line ∈ lines, Text.ascii "data:" <+: line.1) :
    ((rewriteLines type data wroteData lines).map (·.1)).foldl joinData before =
      if wroteData then before else data := by
  induction lines generalizing wroteData before with
  | nil =>
    rcases hdata with rfl | ⟨-, line, hline, -⟩
    · rfl
    · exact absurd hline not_mem_nil
  | cons line lines ih =>
    obtain ⟨content, ending⟩ := line
    have hrest (hother : ¬Text.ascii "data:" <+: content) : wroteData = true ∨
        before = [] ∧ ∃ line ∈ lines, Text.ascii "data:" <+: line.1 := by
      refine hdata.imp_right fun ⟨hbefore, line, hline, hstart⟩ => ⟨hbefore, line, ?_, hstart⟩
      refine (mem_cons.mp hline).resolve_left fun heq => hother ?_
      rwa [heq] at hstart
    unfold rewriteLines
    split
    · split
      · rw [ih (.inl rfl), if_pos rfl]
      · rename_i hwrote
        obtain ⟨rfl, -⟩ := hdata.resolve_left hwrote
        rw [map_cons, foldl_cons, joinData, Protocol.fieldValue_data_append,
          ih (.inl rfl), if_pos rfl]
        rfl
    · rename_i hother
      split
      · rw [map_cons, foldl_cons, Protocol.joinData_of_not (not_data_event type),
          ih (hrest hother)]
      · rw [map_cons, foldl_cons, Protocol.joinData_of_not hother, ih (hrest hother)]

variable {codec : JsonCodec}

theorem sseDataPayload_of_dataOf (hcodec : codec.OneLine) {payload : Json} (h : WellEnded lines)
    (hdata : dataOf lines = codec.renderBytes payload) :
    sseDataPayload (unlines lines) = some (codec.renderBytes payload) := by
  rw [Protocol.sseDataPayload_unlines h, hdata]
  simp [hcodec.nonempty payload]

/-- A rewritten frame has the new payload as its data. -/
theorem sseDataPayload_rewriteSseFrame (hcodec : codec.OneLine) {frame : Bytes}
    {payload : Json} (hframe : sseDataPayload frame ≠ none)
    (htype : NoBreak (Text.utf8 ((payload.text? "type").getD ""))) :
    sseDataPayload (rewriteSseFrame codec frame payload) = some (codec.renderBytes payload) := by
  have hline : ∃ line ∈ Protocol.sseLines frame, Text.ascii "data:" <+: line.1 := by
    refine Protocol.exists_data_line fun hempty => hframe ?_
    rw [sseDataPayload, hempty]
    rfl
  have hdata := foldl_rewriteLines (Text.utf8 ((payload.text? "type").getD ""))
    (codec.renderBytes payload) (show false = true ∨ _ from .inr ⟨rfl, hline⟩)
  exact sseDataPayload_of_dataOf hcodec (wellEnded_rewriteLines htype (hcodec.noBreak payload)
    (Protocol.wellEnded_sseLines frame) false) hdata

theorem sseDataPayload_failure (hcodec : codec.OneLine) (payload : Json) :
    sseDataPayload ((Output.failure payload).bytes codec) = some (codec.renderBytes payload) := by
  have hbytes : (Output.failure payload).bytes codec =
      unlines [(Text.ascii "event: response.failed", [10]),
        (Text.ascii "data: " ++ codec.renderBytes payload, [10]), ([], [10])] := by
    have hhead : Text.ascii "event: response.failed\ndata: " =
        Text.ascii "event: response.failed" ++ 10 :: Text.ascii "data: " := by decide
    have htail : Text.ascii "\n\n" = [10, 10] := by decide
    rw [Output.bytes, hhead, htail]
    simp [unlines]
  rw [hbytes]
  refine sseDataPayload_of_dataOf hcodec ⟨by decide, .inl (by decide),
    NoBreak.append (by decide) (hcodec.noBreak payload), .inl (by decide), Protocol.noBreak_nil,
    .inl (by decide), trivial⟩ ?_
  simp only [dataOf, map_cons, map_nil, foldl_cons, foldl_nil]
  rfl

end

/-! ## Frames in turn -/

def framePayload (codec : JsonCodec) (frame : Bytes) : Option Json :=
  (sseDataPayload frame).bind codec.parse

/-- The id that the restorer sees in a frame. -/
def frameResponseId (codec : JsonCodec) (frame : Bytes) : Option String :=
  if sseEventName frame == some "ping" then none
  else ((framePayload codec frame).bind Json.toObj).bind responseIdOf

def lastResponseId (codec : JsonCodec) (frames : List Bytes) : Option String :=
  (frames.filterMap (frameResponseId codec)).getLast?

/-- An end that comes from the upstream. -/
def Output.endsUpstream : Output → Bool
  | .rewritten _ (.obj payload) => ends payload
  | _ => false

/-- The client reads an event that ends the response. -/
def Output.TellsEnd (codec : JsonCodec) (output : Output) : Prop :=
  ∃ payload, ends payload = true ∧
    sseDataPayload (output.bytes codec) = some (codec.renderBytes (.obj payload))

/-- What frames of records become. -/
structure Restored (codec : JsonCodec) (r : GrokToolStreamRestorer) (id : Option String)
    (outputs : List Output) (r' : GrokToolStreamRestorer) : Prop where
  responseId : r'.responseId = id.or r.responseId
  terminalSeen : r'.terminalSeen = (r.terminalSeen || outputs.any Output.endsUpstream)
  genuine : ∀ payload, .failure payload ∉ outputs
  told : ∀ output ∈ outputs, output.endsUpstream = true → output.TellsEnd codec

section

variable {env : StreamEnv} {r : GrokToolStreamRestorer}

theorem noBreak_of_ends {payload : Members} (h : ends payload = true) :
    NoBreak (Text.utf8 (((Json.obj payload).text? "type").getD "")) := by
  have hmem : typeOf payload ∈ terminalTypes := contains_iff_mem.mp h
  have hall : ∀ type ∈ terminalTypes, NoBreak (Text.utf8 type) := by decide
  exact hall _ hmem

theorem restored_restoreFrame (hcodec : env.codec.OneLine) {frame : Bytes}
    (hobject : ∀ value ∈ framePayload env.codec frame, ∃ members, value = .obj members) :
    ∃ outputs r', r.restoreFrame env frame = some (outputs, r') ∧
      Restored env.codec r (frameResponseId env.codec frame) outputs r' := by
  unfold GrokToolStreamRestorer.restoreFrame frameResponseId
  split
  · exact ⟨_, _, rfl, by simp, by simp [Output.endsUpstream], by simp,
      by simp [Output.endsUpstream]⟩
  · rw [← framePayload]
    rcases hpayload : framePayload env.codec frame with _ | value
    · exact ⟨_, _, rfl, by simp, by simp [Output.endsUpstream], by simp,
        by simp [Output.endsUpstream]⟩
    · obtain ⟨payload, rfl⟩ := hobject value hpayload
      have htells := r.restorePayload_tells env payload
      refine ⟨(r.restorePayload env payload).1.map fun event => .rewritten frame (.obj event),
        (r.restorePayload env payload).2, ?_, htells.responseId, ?_, by simp, ?_⟩
      · simp [GrokToolStreamRestorer.restoreValue]
      · rw [htells.terminalSeen, any_map]
        rfl
      · have hdata : sseDataPayload frame ≠ none := fun hnone => by
          rw [framePayload, hnone] at hpayload
          cases hpayload
        intro output houtput hends
        obtain ⟨event, -, rfl⟩ := mem_map.mp houtput
        exact ⟨event, hends, sseDataPayload_rewriteSseFrame hcodec hdata (noBreak_of_ends hends)⟩

theorem lastResponseId_cons (codec : JsonCodec) (frame : Bytes) (frames : List Bytes) :
    lastResponseId codec (frame :: frames) =
      (lastResponseId codec frames).or (frameResponseId codec frame) := by
  unfold lastResponseId
  rw [filterMap_cons]
  rcases frameResponseId codec frame with _ | id
  · simp
  · rw [List.getLast?_cons]
    rcases (frames.filterMap (frameResponseId codec)).getLast? with _ | last <;> rfl

theorem Restored.append {codec : JsonCodec} {r r' r'' : GrokToolStreamRestorer}
    {id id' : Option String} {outputs outputs' : List Output} (h : Restored codec r id outputs r')
    (h' : Restored codec r' id' outputs' r'') :
    Restored codec r (id'.or id) (outputs ++ outputs') r'' where
  responseId := by rw [h'.responseId, h.responseId, Option.or_assoc]
  terminalSeen := by rw [h'.terminalSeen, h.terminalSeen, any_append, Bool.or_assoc]
  genuine payload hpayload :=
    (mem_append.mp hpayload).elim (h.genuine payload) (h'.genuine payload)
  told output houtput := (mem_append.mp houtput).elim (h.told output) (h'.told output)

/-- The frames of an upstream of records, in turn. -/
theorem restored_restoreFrames (hcodec : env.codec.OneLine) {frames : List Bytes}
    (hobjects : ∀ frame ∈ frames, ∀ value ∈ framePayload env.codec frame,
      ∃ members, value = .obj members) :
    ∃ outputs r', restoreFrames env r frames = (outputs.map .output, some r') ∧
      Restored env.codec r (lastResponseId env.codec frames) outputs r' := by
  induction frames generalizing r with
  | nil => exact ⟨[], r, rfl, rfl, by simp, by simp, by simp⟩
  | cons frame _ ih =>
    obtain ⟨first, r', hframe, hfirst⟩ :=
      restored_restoreFrame (r := r) hcodec (hobjects frame mem_cons_self)
    obtain ⟨rest, r'', hframes, hrest⟩ :=
      ih (r := r') fun frame' hframe' => hobjects frame' (mem_cons_of_mem _ hframe')
    refine ⟨first ++ rest, r'', ?_, ?_⟩
    · rw [restoreFrames, hframe]
      simp [hframes]
    · rw [lastResponseId_cons]
      exact hfirst.append hrest

end

/-! ## The whole stream -/

def Item.endsUpstream : Item → Bool
  | .output sent => sent.endsUpstream
  | _ => false

/-- A failure that was made up. -/
def Item.isFailure : Item → Bool
  | .output (.failure _) => true
  | _ => false

def Item.isEnd (item : Item) : Bool := item.isFailure || item.endsUpstream

/-- How the response ends for a client that reads to the end. -/
structure EndsOnce (env : StreamEnv) (frames : List Bytes) (items : List Item) : Prop where
  calm : .panic ∉ items
  told : ∃ output, .output output ∈ items ∧ output.TellsEnd env.codec
  alone : ∀ before payload after, items = before ++ .output (.failure payload) :: after →
    ∀ item ∈ before ++ after, item.isFailure = false ∧ item.endsUpstream = false
  named : ∀ payload, .output (.failure payload) ∈ items →
    (payload.member? "response").bind (Json.text? "id") =
      some ((lastResponseId env.codec frames).getD ("resp_" ++ env.responseUuid))

section

variable {env : StreamEnv} {r r' : GrokToolStreamRestorer}

/-- An error behind some arrivals does not change what is cut off them. -/
theorem cut_append_error (pending : Bytes) (before after : List Arrival) (error : ProviderError) :
    (cut pending (before ++ .error error :: after)).1 = (cut pending before).1 ∧
      ((cut pending (before ++ .error error :: after)).2 = (cut pending before).2 ∨
        (cut pending (before ++ .error error :: after)).2 = .failed error ∧
          ∃ left, (cut pending before).2 = atEof left) := by
  induction before generalizing pending with
  | nil => exact ⟨rfl, .inr ⟨rfl, pending, rfl⟩⟩
  | cons arrival _ ih =>
    cases arrival with
    | timeout | error => exact ⟨rfl, .inl rfl⟩
    | chunk bytes =>
      rw [cons_append, cut, cut]
      split
      · exact ⟨rfl, .inl rfl⟩
      · rcases takeFrames (pending ++ bytes).length (pending ++ bytes) with ⟨frames, _ | left⟩
        · exact ⟨rfl, .inl rfl⟩
        · exact ⟨congrArg (frames ++ ·) (ih left).1, (ih left).2⟩

theorem answered_eq (hcodec : env.codec.OneLine) {upstream : List Arrival}
    (hobjects : ∀ frame ∈ (cut [] upstream).1, ∀ value ∈ framePayload env.codec frame,
      ∃ members, value = .obj members) :
    ∃ outputs r', Restored env.codec r (lastResponseId env.codec (cut [] upstream).1) outputs r' ∧
      ∀ ending, restoreThen env r (cut [] upstream).1 (fun r => conclude env r ending) =
        outputs.map .output ++ conclude env r' ending := by
  obtain ⟨outputs, r', hframes, hrestored⟩ := restored_restoreFrames (r := r) hcodec hobjects
  refine ⟨outputs, r', hrestored, fun ending => ?_⟩
  rw [restoreThen, hframes]
  rfl

theorem conclude_of_seen (hseen : r.terminalSeen = true) (error : ProviderError) (left : Bytes) :
    conclude env r (.failed error) = conclude env r (atEof left) := by
  have herror : (Ending.failed error).error r.terminalSeen = none := if_pos hseen
  rw [conclude, conclude, herror, error_atEof, if_pos hseen, if_pos hseen]

theorem endsUpstream_conclude {ending : Ending} {item : Item} (h : item ∈ conclude env r ending) :
    item.endsUpstream = false := by
  rcases mem_append.mp h with hfailure | herror
  · split at hfailure
    · exact absurd hfailure not_mem_nil
    · rw [mem_singleton.mp hfailure]
      rfl
  · obtain ⟨_, -, rfl⟩ := mem_map.mp herror
    rfl

/-- Where one item stands out, it is the only one. -/
theorem filter_of_append {p : Item → Bool} {items before after : List Item} {item item' : Item}
    (hfilter : items.filter p = [item']) (hitems : items = before ++ item :: after)
    (hitem : p item = true) : ∀ other ∈ before ++ after, p other = false := by
  rw [hitems, filter_append, filter_cons_of_pos hitem] at hfilter
  have hlength := congrArg List.length hfilter
  simp only [length_append, length_cons, length_nil] at hlength
  have hbefore : before.filter p = [] := length_eq_zero_iff.mp (by omega)
  have hafter : after.filter p = [] := length_eq_zero_iff.mp (by omega)
  intro other hother
  rcases mem_append.mp hother with h | h
  · simpa using filter_eq_nil_iff.mp hbefore other h
  · simpa using filter_eq_nil_iff.mp hafter other h

variable {outputs : List Output} {frames : List Bytes}

theorem endsOnce_of_told (h : Restored env.codec r (lastResponseId env.codec frames) outputs r')
    (hends : outputs.any Output.endsUpstream = true) (errors : List ProviderError) :
    EndsOnce env frames (outputs.map .output ++ errors.map .error) := by
  have hgenuine (payload : Json) : Item.output (.failure payload) ∉
      outputs.map Item.output ++ errors.map Item.error := by
    simpa using h.genuine payload
  refine ⟨by simp, ?_, ?_, fun payload hpayload => absurd hpayload (hgenuine payload)⟩
  · obtain ⟨output, houtput, hend⟩ := any_eq_true.mp hends
    exact ⟨output, mem_append_left _ (mem_map_of_mem houtput),
      h.told output houtput hend⟩
  · intro before payload after hitems
    refine absurd ?_ (hgenuine payload)
    rw [hitems]
    exact mem_append_right _ mem_cons_self

theorem endsOnce_of_failure (hcodec : env.codec.OneLine)
    (h : Restored env.codec r (lastResponseId env.codec frames) outputs r')
    (hquiet : outputs.any Output.endsUpstream = false) (hid : r.responseId = none)
    (code message : String) (errors : List ProviderError) :
    EndsOnce env frames (outputs.map .output ++
      .output (r'.failureFrame env code message).1 :: errors.map .error) := by
  have hfilter : (outputs.map Item.output ++ .output (r'.failureFrame env code message).1 ::
      errors.map Item.error).filter Item.isEnd =
        [.output (r'.failureFrame env code message).1] := by
    have houtputs : (outputs.map Item.output).filter Item.isEnd = [] := by
      rw [filter_eq_nil_iff]
      intro item hitem
      obtain ⟨output, houtput, rfl⟩ := mem_map.mp hitem
      have hend := any_eq_false.mp hquiet output houtput
      cases output with
      | failure payload => exact absurd houtput (h.genuine payload)
      | _ => simpa [Item.isEnd, Item.isFailure, Item.endsUpstream] using hend
    have herrors : (errors.map Item.error).filter Item.isEnd = [] := by
      simp [Item.isEnd, Item.isFailure, Item.endsUpstream]
    rw [filter_append, houtputs, filter_cons_of_pos rfl, herrors, nil_append]
  refine ⟨by simp, ?_, ?_, ?_⟩
  · exact ⟨_, mem_append_right _ mem_cons_self, _, rfl, sseDataPayload_failure hcodec _⟩
  · intro before payload after hitems item hitem
    simpa [Item.isEnd] using filter_of_append hfilter hitems rfl item hitem
  · intro payload hpayload
    have hend : Item.isEnd (.output (.failure payload)) = true := rfl
    have hmem := mem_filter.mpr ⟨hpayload, hend⟩
    rw [hfilter, mem_singleton] at hmem
    injection hmem with hsent
    injection hsent with heq
    rw [heq, ← Option.or_none (o := lastResponseId env.codec frames), ← hid, ← h.responseId]
    rfl

theorem endsOnce {mappings : GrokToolMappings} (hcodec : env.codec.OneLine)
    (h : Restored env.codec { mappings } (lastResponseId env.codec frames) outputs r')
    (ending : Ending) : EndsOnce env frames (outputs.map .output ++ conclude env r' ending) := by
  have hseen : r'.terminalSeen = outputs.any Output.endsUpstream := h.terminalSeen
  unfold conclude
  rcases hends : r'.terminalSeen with _ | _
  · exact endsOnce_of_failure hcodec h (hseen ▸ hends) rfl _ _ _
  · exact endsOnce_of_told h (hseen ▸ hends) _

end

/-- Whatever arrives, as long as the payloads are records: the stream ends, and its client is told
so.  A failure is made up only where the upstream told no end, and there once, and it has the id
that the upstream told last.  An error behind the end is as good as none. -/
theorem grok_stream_ends (env : StreamEnv) (hcodec : env.codec.OneLine)
    (mappings : GrokToolMappings) (upstream : List Arrival)
    (hobjects : ∀ frame ∈ (cut [] upstream).1, ∀ value ∈ framePayload env.codec frame,
      ∃ members, value = .obj members) :
    ∃ items, Unfold.Reads (RestoredStream.nextOutput env)
        (RestoredStream.restoreToolStream mappings upstream) items ∧
      EndsOnce env (cut [] upstream).1 items ∧
      ∀ before error after items', upstream = before ++ .error error :: after →
        Unfold.Reads (RestoredStream.nextOutput env)
          (RestoredStream.restoreToolStream mappings before) items' →
        (∃ item ∈ items', item.endsUpstream = true) → items = items' := by
  obtain ⟨outputs, r', hrestored, hanswer⟩ := answered_eq (r := { mappings }) hcodec hobjects
  refine ⟨outputs.map .output ++ conclude env r' (cut [] upstream).2, ?_,
    endsOnce hcodec hrestored _, ?_⟩
  · rw [RestoredStream.reads_iff, answered, hanswer]
  · intro before error after items' hupstream hreads hends
    obtain ⟨hframes, hending⟩ := cut_append_error [] before after error
    rw [← hupstream] at hframes hending
    rw [RestoredStream.reads_iff, answered, ← hframes, hanswer] at hreads
    subst hreads
    rcases hending with hsame | ⟨hfailed, left, hleft⟩
    · rw [hsame]
    · obtain ⟨_, hitem, hends⟩ := hends
      have hseen : r'.terminalSeen = true := by
        rw [hrestored.terminalSeen, Bool.or_eq_true]
        right
        rcases mem_append.mp hitem with hsent | hadded
        · obtain ⟨output, houtput, rfl⟩ := mem_map.mp hsent
          exact any_eq_true.mpr ⟨output, houtput, hends⟩
        · exact absurd ((endsUpstream_conclude hadded).symm.trans hends) Bool.false_ne_true
      rw [hfailed, hleft, conclude_of_seen hseen error left]

def completedText : String := "\x7b\"type\":\"response.completed\"\x7d"

/-- A completed response in two chunks, and an error behind it. -/
theorem grok_stream_ends_completed :
    let codec : JsonCodec := {
      parse := fun bytes => if bytes = Text.ascii completedText then
        some (.obj [("type", .str "response.completed")]) else none
      render := fun _ => completedText }
    let env : StreamEnv := { codec, model := "grok", itemUuid := id, responseUuid := "u" }
    let frame := Text.ascii ("data: " ++ completedText ++ "\n\n")
    let before : List Arrival := [.chunk frame.dropLast, .chunk [10]]
    let after : List Arrival := [.error ⟨.upstream, "reset", none⟩]
    (cut [] (before ++ after)).1 = [frame] ∧
      ∃ items, Unfold.Reads (RestoredStream.nextOutput env)
          (RestoredStream.restoreToolStream {} (before ++ after)) items ∧
        EndsOnce env [frame] items := by
  intro codec env frame before after
  have hframes : (cut [] (before ++ after)).1 = [frame] := by decide
  refine ⟨hframes, ?_⟩
  have hline : NoBreak (Text.utf8 completedText) ∧ Text.utf8 completedText ≠ [] := by decide
  have hcodec : env.codec.OneLine := ⟨fun _ => hline.1, fun _ => hline.2⟩
  obtain ⟨items, hreads, hends, -⟩ := grok_stream_ends env hcodec {} (before ++ after)
    (fun frame _ value hvalue => by
      obtain ⟨_, -, hparse⟩ := Option.bind_eq_some_iff.mp hvalue
      obtain ⟨-, hvalue⟩ := Option.ite_none_right_eq_some.mp hparse
      exact ⟨_, (Option.some.inj hvalue).symm⟩)
  exact ⟨items, hreads, hframes ▸ hends⟩

end ProviderCore.Grok.Restore
