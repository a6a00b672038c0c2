import ProviderCore.Drivers.ResponsesHistory
import ProviderCore.Lib.Fold

/-!
# Normal histories

An item passes if its type is one that is sent as it is, and it is normal if it has none of the
fields that `stripInternalItemFields` takes out besides.  Every item comes out normal but an agent
message: `normalizeAgentMessage` leaves the fields of the message where they are, and a second pass
takes them off.
-/

namespace ProviderCore.ResponsesHistory

open Json (Members)

open List Fold

def internalFields : List String :=
  ["phase", "encrypted_function_args", "internal_chat_message_metadata_passthrough"]

/-- None of the fields that are for the client alone. -/
def NoInternalFields (item : Json) : Prop := ∀ field ∈ internalFields, item.member? field = none

/-- A type that is neither rewritten nor dropped. -/
def Passes (item : Json) : Prop := ∀ type, item.text? "type" = some type → historyKind type = none

structure Normal (item : Json) : Prop where
  fields : NoInternalFields item
  type : Passes item

/-- The item without the fields that are for the client alone. -/
def stripItem : Json → Json
  | .obj members => .obj (stripInternalItemFields members)
  | item => item

/-- An agent message with a part other than an encrypted one without content. -/
def Kept (members : Members) : Prop :=
  ∃ content, members.get? "content" = some (.arr content) ∧ ∃ part ∈ content,
    ¬(part.text? "type" = some "encrypted_content" ∧ part.text? "encrypted_content" = none)

variable {members : Members} {item sent : Json} {render : Json → String} {provider : String}

/-! ## What is normal is kept -/

theorem remove_of_get? {name : String} (h : members.get? name = none) :
    members.remove name = members := by
  rw [Members.get?, lookup_eq_none_iff] at h
  rw [Members.remove, filter_eq_self]
  intro member hmember
  rw [bne_comm]
  exact h member hmember

theorem stripItem_of_none (h : NoInternalFields item) : stripItem item = item := by
  rcases item with _ | _ | _ | _ | _ | _ | members <;> try rfl
  simp only [NoInternalFields, internalFields, forall_mem_cons] at h
  obtain ⟨hphase, hargs, hmetadata, -⟩ := h
  rw [stripItem, stripInternalItemFields, remove_of_get? hphase, remove_of_get? hargs,
    remove_of_get? hmetadata]

theorem normalizeInputItem_of_passes (h : Passes item) :
    normalizeInputItem render provider item = .ok (some (stripItem item)) := by
  rcases item with _ | _ | _ | _ | _ | _ | members <;> try rfl
  simp only [normalizeInputItem, Json.toObj]
  split
  · rfl
  · rename_i type htype
    rw [h type htype]
    rfl

/-! ## What is sent is normal -/

theorem normal_stripItem (h : Passes item) : Normal (stripItem item) := by
  rcases item with _ | _ | _ | _ | _ | _ | members
  case obj =>
    refine ⟨?_, fun type htype => h type ?_⟩
    · show ∀ field ∈ internalFields, (stripInternalItemFields members).get? field = none
      simp [internalFields, stripInternalItemFields, Members.get?_remove_of_ne]
    · change (stripInternalItemFields members).text? "type" = some type at htype
      show Members.text? members "type" = some type
      simpa [stripInternalItemFields, Members.text?, Members.get?_remove_of_ne] using htype
  all_goals exact ⟨fun _ _ => rfl, fun type htype => by cases htype⟩

theorem normal_functionCall (callId name arguments : Json) :
    Normal (functionCall callId name arguments) := by
  refine ⟨by simp [NoInternalFields, internalFields, functionCall], ?_⟩
  rintro _ ⟨⟩
  rfl

theorem normal_rebuildFunctionOutput (members : Members) (output : String) :
    Normal (rebuildFunctionOutput members output) := by
  refine ⟨by simp [NoInternalFields, internalFields, rebuildFunctionOutput], ?_⟩
  rintro _ ⟨⟩
  rfl

theorem normal_outputWithCallId {output : String}
    (h : outputWithCallId members output = some sent) : Normal sent := by
  obtain ⟨-, ⟨⟩⟩ := Option.ite_none_right_eq_some.mp h
  exact normal_rebuildFunctionOutput members output

theorem normal_callWithCallId {name : String} {arguments : Json}
    (h : callWithCallId render members name arguments = some sent) : Normal sent := by
  obtain ⟨-, ⟨⟩⟩ := Option.ite_none_right_eq_some.mp h
  exact normal_functionCall _ _ _

theorem normal_convertHostedToolCall {name : String} {args : HostedCallArgs}
    (h : convertHostedToolCall render members name args = some sent) : Normal sent := by
  obtain ⟨_, -, rfl⟩ := Option.map_eq_some_iff.mp h
  exact normal_functionCall _ _ _

theorem of_required {message : String} {found : Option Json}
    (h : required provider message found = .ok (some sent)) : found = some sent := by
  cases found <;> cases h
  rfl

theorem normal_rejectHostedToolResults {fields : List String} {name : String}
    (h : (do
      rejectHostedToolResults members provider fields
      return convertHostedToolCall render members name .actionOrRest) = .ok (some sent)) :
    Normal sent := by
  obtain ⟨_, -, h⟩ := bind_eq_ok.mp h
  exact normal_convertHostedToolCall (Except.ok.inj h)

/-- An item that is rebuilt keeps nothing but what its new type names. -/
theorem normal_normalizeKind {type : String} {kind : HistoryKind} (hkind : kind ≠ .agentMessage)
    (h : normalizeKind render provider members type kind = .ok (some sent)) : Normal sent := by
  cases kind with
  | compactionTrigger | unsupported => cases h
  | agentMessage => exact absurd rfl hkind
  | customToolCall =>
    simp only [normalizeKind] at h
    split at h <;> cases h
    exact normal_functionCall _ _ _
  | customToolCallOutput | applyPatchCallOutput | programOutput =>
    exact normal_outputWithCallId (Except.ok.inj h)
  | toolSearchOutput | mcpToolCallOutput => exact normal_outputWithCallId (of_required h)
  | toolSearchCall => exact normal_callWithCallId (of_required h)
  | applyPatchCall | program => exact normal_callWithCallId (Except.ok.inj h)
  | webSearchCall | computerCall | shellCall =>
    exact normal_convertHostedToolCall (Except.ok.inj h)
  | fileSearchCall | codeInterpreterCall | imageGenerationCall =>
    exact normal_rejectHostedToolResults h
  | hostedOutput =>
    obtain ⟨item, -, rfl⟩ := Option.map_eq_some_iff.mp (Except.ok.inj h)
    exact normal_rebuildFunctionOutput item _
  | mcpToolCall =>
    obtain ⟨item, -, hcall⟩ := Option.bind_eq_some_iff.mp (of_required h)
    obtain ⟨-, ⟨⟩⟩ := Option.ite_none_right_eq_some.mp hcall
    exact normal_functionCall _ _ _

/-- The message that takes an agent message's place has its fields. -/
theorem normalizeAgentMessage_eq_ok
    (h : normalizeAgentMessage provider members = .ok (some sent)) :
    Kept members ∧ Passes sent ∧
      ∀ field ∈ internalFields, sent.member? field = members.get? field := by
  unfold normalizeAgentMessage at h
  split at h
  · cases h
  rename_i content hcontent
  obtain ⟨parts, hparts, h⟩ := bind_eq_ok.mp h
  dsimp only at h
  split at h <;> cases h
  rename_i hsome
  refine ⟨?_, ?_, ?_⟩
  · rw [filterMap_of_mapM hparts, List.isEmpty_iff] at hsome
    obtain ⟨kept, hkept⟩ := exists_mem_of_ne_nil _ hsome
    obtain ⟨part, hpart, hnormal⟩ := mem_filterMap.mp hkept
    obtain ⟨_, hget, harr⟩ := Option.bind_eq_some_iff.mp hcontent
    refine ⟨content, ?_, part, hpart, ?_⟩
    · rename_i value
      cases value <;> cases harr
      exact hget
    · rintro ⟨htype, hempty⟩
      rcases part with _ | _ | _ | _ | _ | _ | part <;> try cases htype
      change Members.text? part _ = _ at htype hempty
      rw [normalizeAgentPart, Json.toObj] at hnormal
      simp only [htype, hempty] at hnormal
      split at hnormal <;> cases hnormal
  · rintro _ ⟨⟩
    rfl
  · show ∀ field ∈ internalFields, Members.get? _ field = members.get? field
    simp [internalFields, Members.get?_insert_of_ne]

theorem historyKind_agentMessage {type : String} (h : historyKind type = some .agentMessage) :
    type = "agent_message" := by
  obtain ⟨before, after, htable, -⟩ := lookup_eq_some_iff.mp h
  have hmem : (type, .agentMessage) ∈ before ++ (type, HistoryKind.agentMessage) :: after := by simp
  rw [← htable] at hmem
  simpa using hmem

/-- What is sent for an item is normal, or it is the message of an agent message. -/
theorem normalizeInputItem_eq_ok
    (h : normalizeInputItem render provider item = .ok (some sent)) :
    Normal sent ∨ ∃ members : Members, item = .obj members ∧
      members.text? "type" = some "agent_message" ∧ Kept members ∧ Passes sent ∧
        ∀ field ∈ internalFields, sent.member? field = members.get? field := by
  by_cases hpasses : Passes item
  · rw [normalizeInputItem_of_passes hpasses] at h
    cases h
    exact .inl (normal_stripItem hpasses)
  · rw [Passes] at hpasses
    push Not at hpasses
    obtain ⟨type, htype, hkind⟩ := hpasses
    rcases item with _ | _ | _ | _ | _ | _ | members <;> try cases htype
    change Members.text? members "type" = some type at htype
    obtain ⟨kind, hkind⟩ := Option.ne_none_iff_exists'.mp hkind
    simp only [normalizeInputItem, Json.toObj, htype, hkind] at h
    by_cases hagent : kind = .agentMessage
    · subst hagent
      rw [historyKind_agentMessage hkind] at htype
      exact .inr ⟨members, rfl, htype, normalizeAgentMessage_eq_ok h⟩
    · exact .inl (normal_normalizeKind hagent h)

/-! ## Histories -/

theorem insert_insert (members : Members) (name : String) (value value' : Json) :
    (members.insert name value).insert name value' = members.insert name value' := by
  simp [Members.insert, Members.remove]

/-- A history is normalised once and for all but for the fields of the agent messages in it: all
that is sent passes, it is normal but for the messages of the agent messages that are kept, and a
second pass takes off their fields and changes nothing else. -/
theorem normalizeInput_normal (render : Json → String) (provider : String)
    {body result : Members} {input : List Json} (hinput : body.get? "input" = some (.arr input))
    (h : normalizeInput render provider body = .ok result) :
    ∃ items, result.get? "input" = some (.arr items) ∧ (∀ item ∈ items, Passes item) ∧
      (∀ item ∈ items, Normal item ∨ ∃ members : Members, .obj members ∈ input ∧
        members.text? "type" = some "agent_message" ∧ Kept members ∧
          ∀ field ∈ internalFields, item.member? field = members.get? field) ∧
      normalizeInput render provider result =
        .ok (result.insert "input" (.arr (items.map stripItem))) ∧
      ((∀ item ∈ items, Normal item) → normalizeInput render provider result = .ok result) := by
  simp only [normalizeInput, hinput] at h
  obtain ⟨found, hfound, ⟨⟩⟩ := bind_eq_ok.mp h
  have hsent : ∀ sent ∈ found.filterMap id, ∃ item ∈ input,
      normalizeInputItem render provider item = .ok (some sent) := by
    rw [filterMap_of_mapM hfound]
    intro sent hsent
    obtain ⟨item, hitem, hjoin⟩ := mem_filterMap.mp hsent
    refine ⟨item, hitem, ?_⟩
    cases hok : normalizeInputItem render provider item <;> simp_all [Except.toOption]
  have hpasses : ∀ item ∈ found.filterMap id, Passes item := by
    intro sent hmem
    obtain ⟨item, -, hok⟩ := hsent sent hmem
    rcases normalizeInputItem_eq_ok hok with hnormal | ⟨_, -, -, -, hpasses, -⟩
    · exact hnormal.type
    · exact hpasses
  have hagain : normalizeInput render provider (body.insert "input" (.arr (found.filterMap id))) =
      .ok ((body.insert "input" (.arr (found.filterMap id))).insert "input"
        (.arr ((found.filterMap id).map stripItem))) := by
    simp only [normalizeInput, Members.get?_insert]
    rw [mapM_congr fun item hitem => normalizeInputItem_of_passes (hpasses item hitem)]
    erw [mapM_pure]
    simp [bind, Except.bind, pure, Except.pure]
  refine ⟨_, Members.get?_insert _ _ _, hpasses, ?_, hagain, fun hnormal => ?_⟩
  · intro sent hmem
    obtain ⟨item, hitem, hok⟩ := hsent sent hmem
    rcases normalizeInputItem_eq_ok hok with hnormal | ⟨members, rfl, htype, hkept, -, hfields⟩
    · exact .inl hnormal
    · exact .inr ⟨members, hitem, htype, hkept, hfields⟩
  · have hsame : (found.filterMap id).map stripItem = found.filterMap id :=
      map_congr_left (fun item hitem => stripItem_of_none (hnormal item hitem).fields) |>.trans
        (map_id _)
    rw [hagain, hsame, insert_insert]

/-- An agent message of the client, with metadata of its own. -/
def agentHistory : Members :=
  [("input", .arr [.obj [("type", .str "agent_message"), ("id", .str "agent_1"),
    ("author", .str "/root/reviewer"), ("recipient", .str "/root"),
    ("content", .arr [.obj [("type", .str "input_text"), ("text", .str "first finding")],
      .obj [("type", .str "input_text"), ("text", .str "second finding")]]),
    ("internal_chat_message_metadata_passthrough", .obj [("turn_id", .str "turn_1")])]])]

theorem normalizeInput_normal_agent : ∃ result items,
    normalizeInput (fun _ => "") "Grok" agentHistory = .ok result ∧
      result.get? "input" = some (.arr items) ∧ (∀ item ∈ items, Passes item) ∧
      normalizeInput (fun _ => "") "Grok" result =
        .ok (result.insert "input" (.arr (items.map stripItem))) := by
  have h : normalizeInput (fun _ => "") "Grok" agentHistory = .ok _ := rfl
  obtain ⟨items, hitems, hpasses, -, hagain, -⟩ := normalizeInput_normal _ _ rfl h
  exact ⟨_, items, h, hitems, hpasses, hagain⟩

/-- The message that is sent for an agent message still has the metadata, and a second pass takes it
out. -/
theorem agentMessage_keeps_metadata : ∃ result again item item',
    normalizeInput (fun _ => "") "Grok" agentHistory = .ok result ∧
      normalizeInput (fun _ => "") "Grok" result = .ok again ∧
      result.get? "input" = some (.arr [item]) ∧ again.get? "input" = some (.arr [item']) ∧
      item.member? "internal_chat_message_metadata_passthrough" =
        some (.obj [("turn_id", .str "turn_1")]) ∧
      item'.member? "internal_chat_message_metadata_passthrough" = none :=
  ⟨_, _, _, _, rfl, rfl, rfl, rfl, rfl, rfl⟩

end ProviderCore.ResponsesHistory
