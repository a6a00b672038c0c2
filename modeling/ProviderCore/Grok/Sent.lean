import ProviderCore.Lib.Fold
import ProviderCore.Grok.Request

/-!
# What is sent to Grok

The passes over a request's body treat its input item by item, in order: an item is changed or left
out, and the rest of the input stays where it is.  `Edited f` is a pass that does `f` to each item,
and keeps the id of a previous response, if it is still there, as it is.  All the passes together
do `sentItem`.
-/

namespace ProviderCore.Grok

open List Fold
open Json (Members)
open ResponsesHistory (normalizeInputItem)

/-! ## Passes over the input -/

def editInput (f : Json → Option Json) : Json → Json
  | .arr items => .arr (items.filterMap f)
  | tree => tree

structure Edited (f : Json → Option Json) (body body' : Members) : Prop where
  previous : body'.get? "previous_response_id" = body.get? "previous_response_id"
  input : body'.get? "input" = (body.get? "input").map (editInput f)

/-- A pass that leaves the input alone. -/
abbrev Untouched : Members → Members → Prop := Edited some

theorem editInput_some (tree : Json) : editInput some tree = tree := by
  cases tree <;> simp [editInput]

variable {body body' : Members}

theorem untouched_of_get?
    (hprevious : body'.get? "previous_response_id" = body.get? "previous_response_id")
    (hinput : body'.get? "input" = body.get? "input") : Untouched body body' :=
  ⟨hprevious, by rw [hinput, show editInput some = id from funext editInput_some, Option.map_id_fun,
    id]⟩

theorem Untouched.refl (body : Members) : Untouched body body := untouched_of_get? rfl rfl

variable {b₁ b₂ b₃ : Members}

theorem Edited.trans {f g : Json → Option Json} (h : Edited f b₁ b₂)
    (h' : Edited g b₂ b₃) : Edited (fun item => (f item).bind g) b₁ b₃ where
  previous := h'.previous.trans h.previous
  input := by
    rw [h'.input, h.input, Option.map_map]
    refine congrArg (Option.map · _) (funext fun tree => ?_)
    cases tree <;> simp [editInput, filterMap_filterMap]

variable {f : Json → Option Json}

theorem Edited.untouched (h : Edited f b₁ b₂) (h' : Untouched b₂ b₃) : Edited f b₁ b₃ := by
  have htrans := h.trans h'
  simpa only [Option.bind_fun_some] using htrans

/-- Members that no pass but those over the input may touch. -/
def reserved : List String := ["input", "previous_response_id"]

theorem Untouched.insert (body : Members) (name : String) (hname : name ∉ reserved) (value : Json) :
    Untouched body (body.insert name value) := by
  simp only [reserved, mem_cons, not_mem_nil, or_false, not_or] at hname
  exact untouched_of_get? (Members.get?_insert_of_ne (Ne.symm hname.2) value)
    (Members.get?_insert_of_ne (Ne.symm hname.1) value)

theorem Untouched.remove (body : Members) (name : String) (hname : name ∉ reserved) :
    Untouched body (body.remove name) := by
  simp only [reserved, mem_cons, not_mem_nil, or_false, not_or] at hname
  exact untouched_of_get? (Members.get?_remove_of_ne (Ne.symm hname.2))
    (Members.get?_remove_of_ne (Ne.symm hname.1))

theorem Untouched.removeAll (body : Members) {names : List String}
    (hnames : ∀ name ∈ names, name ∉ reserved) : Untouched body (removeAll body names) := by
  induction names generalizing body with
  | nil => exact .refl body
  | cons name _ ih =>
    rw [forall_mem_cons] at hnames
    exact (Untouched.remove body name hnames.1).untouched (ih (body.remove name) hnames.2)

/-- Rewriting the items of the input. -/
theorem Edited.of_insert {body : Members} {input : List Json}
    (hinput : body.get? "input" = some (.arr input)) :
    Edited f body (body.insert "input" (.arr (input.filterMap f))) where
  previous := Members.get?_insert_of_ne (by decide) _
  input := by rw [Members.get?_insert, hinput, Option.map_some, editInput]

/-- An input that is no list of items has nothing to rewrite. -/
theorem Edited.of_not_arr {body : Members}
    (hinput : ∀ input, body.get? "input" ≠ some (.arr input)) : Edited f body body where
  previous := rfl
  input := by
    rcases hget : body.get? "input" with _ | tree
    · rfl
    · cases tree with
      | arr input => exact absurd hget (hinput input)
      | _ => rfl

/-! ## The passes -/

theorem untouched_normalizeReasoningRecord (body : Members) (model : String) :
    Untouched body (normalizeReasoningRecord body model) := by
  have hset : ∀ reasoning : Members, Untouched body (if reasoning.isEmpty then
      body.remove "reasoning" else body.insert "reasoning" (.obj reasoning)) := by
    intro reasoning
    split
    · exact .remove body _ (by decide)
    · exact .insert body _ (by decide) _
  unfold normalizeReasoningRecord
  split
  · exact hset _
  · exact .refl body

theorem untouched_normalizeReasoningEffort (body : Members) (model : String) :
    Untouched body (normalizeReasoningEffort body model) := by
  have hwithout := ((untouched_normalizeReasoningRecord body model).untouched
    (.remove _ "reasoning_effort" (by decide))).untouched
    (.remove _ "reasoningEffort" (by decide))
  unfold normalizeReasoningEffort
  dsimp only
  split
  · exact hwithout.untouched (.insert _ _ (by decide) _)
  · exact hwithout

theorem untouched_normalizeModelFields (body : Members) (model : String) :
    Untouched body (normalizeModelFields body model) := by
  unfold normalizeModelFields
  refine Edited.untouched ?_ (untouched_normalizeReasoningEffort _ _)
  split
  · refine Edited.untouched ?_ (.removeAll _ (by decide))
    split
    · exact Untouched.removeAll body (by decide)
    · exact Untouched.refl body
  · split
    · exact Untouched.removeAll body (by decide)
    · exact Untouched.refl body

theorem untouched_normalizeToolControlsWithoutTools
    (h : normalizeToolControlsWithoutTools body = .ok body') : Untouched body body' := by
  have hwithout : Untouched body ((body.remove "parallel_tool_calls").remove "tool_choice") :=
    (Untouched.remove body _ (by decide)).untouched (.remove _ _ (by decide))
  unfold normalizeToolControlsWithoutTools at h
  dsimp only at h
  repeat' split at h
  all_goals first
    | cases h; exact hwithout
    | cases h

theorem untouched_normalizeAllowedTools {available : List (String × String)}
    {body choice body' : Members} (h : normalizeAllowedTools available body choice = .ok body') :
    Untouched body body' := by
  unfold normalizeAllowedTools at h
  split at h
  · cases h
  · dsimp only at h
    split at h
    · cases h
      exact .insert body _ (by decide) _
    · split at h
      · cases h
      · cases h
        exact .refl body

theorem untouched_normalizeToolChoice
    (h : normalizeToolChoice body = .ok body') : Untouched body body' := by
  have hwithout : Untouched body (body.remove "tool_choice") := .remove body _ (by decide)
  unfold normalizeToolChoice at h
  dsimp only at h
  split at h
  · cases h
    exact .refl body
  · split at h
    · cases h
      exact hwithout.untouched (.insert _ _ (by decide) _)
    · split at h
      · exact hwithout.untouched (untouched_normalizeAllowedTools h)
      · split at h
        · cases h
          exact hwithout.untouched (.insert _ _ (by decide) _)
        · cases h

theorem untouched_normalizeTools {body : Members} {result : Members × GrokToolMappings}
    (h : normalizeTools body = .ok result) : Untouched body result.1 := by
  have hwithout : Untouched body (body.remove "tools") := .remove body _ (by decide)
  have hcontrols : ∀ {mappings}, (normalizeToolControlsWithoutTools (body.remove "tools")).map
      (·, mappings) = .ok result → Untouched body result.1 := by
    intro mappings h
    obtain ⟨_, hbody, rfl⟩ := map_eq_ok.mp h
    exact hwithout.untouched (untouched_normalizeToolControlsWithoutTools hbody)
  unfold normalizeTools at h
  dsimp only at h
  split at h
  · exact hcontrols h
  · exact hcontrols h
  · split at h
    · split at h
      · exact hcontrols h
      · obtain ⟨_, hbody, rfl⟩ := map_eq_ok.mp h
        exact (hwithout.untouched (.insert _ _ (by decide) _)).untouched
          (untouched_normalizeToolChoice hbody)
    · cases h
  · cases h

/-- An item that stays where it is unless it holds tools. -/
def exceptTools (item : Json) : Option Json := if isAdditionalTools item then none else some item

theorem edited_promoteAdditionalTools (body : Members) :
    Edited exceptTools body (promoteAdditionalTools body) := by
  unfold promoteAdditionalTools
  split
  · rename_i input hinput
    have hfilter : input.filter (!isAdditionalTools ·) = input.filterMap exceptTools := by
      rw [← filterMap_eq_filter]
      refine filterMap_congr fun item _ => ?_
      unfold exceptTools
      cases htools : isAdditionalTools item <;> simp [htools]
    have hedited : Edited exceptTools body
        (body.insert "input" (.arr (input.filter (!isAdditionalTools ·)))) := by
      rw [hfilter]
      exact .of_insert hinput
    dsimp only
    split
    · exact hedited
    · split
      · exact hedited.untouched (.insert _ _ (by decide) _)
      · exact hedited.untouched (.insert _ _ (by decide) _)
      · exact hedited.untouched (.insert _ _ (by decide) _)
      · exact hedited
  · rename_i hinput
    exact .of_not_arr hinput

theorem edited_normalizeInputNamespaceCalls (body : Members) :
    Edited (fun item => some (normalizeNamespaceCall item)) body
      (normalizeInputNamespaceCalls body) := by
  unfold normalizeInputNamespaceCalls
  split
  · rename_i input hinput
    rw [← filterMap_eq_map]
    exact .of_insert hinput
  · rename_i hinput
    exact .of_not_arr hinput

section

variable (render : Json → String) (isGrokEncryptedContent : String → Bool)

theorem edited_normalizeInput {body body' : Members}
    (h : ResponsesHistory.normalizeInput render "Grok" body = .ok body') :
    Edited (fun item => (normalizeInputItem render "Grok" item).toOption.join) body body' := by
  unfold ResponsesHistory.normalizeInput at h
  split at h
  · rename_i input hinput
    obtain ⟨_, hitems, h⟩ := bind_eq_ok.mp h
    cases h
    rw [filterMap_of_mapM hitems]
    exact .of_insert hinput
  · rename_i hinput
    cases h
    exact .of_not_arr hinput

theorem edited_normalizeReasoning (body : Members) :
    Edited (normalizeReasoningItem isGrokEncryptedContent) body
      (normalizeReasoning isGrokEncryptedContent body) := by
  unfold normalizeReasoning
  split
  · rename_i input hinput
    exact .of_insert hinput
  · rename_i hinput
    exact .of_not_arr hinput

/-- What is sent in an item's place. -/
def sentItem (item : Json) : Option Json :=
  (((exceptTools item).map normalizeNamespaceCall).bind fun item =>
    (normalizeInputItem render "Grok" item).toOption.join).bind
      (normalizeReasoningItem isGrokEncryptedContent)

variable {render isGrokEncryptedContent}

/-- The body that is sent: no previous response, the items of the input each in its place, and all
checks passed. -/
structure SentBody (render : Json → String) (isGrokEncryptedContent : String → Bool)
    (body sent : Members) : Prop where
  previous : sent.get? "previous_response_id" = none
  input : sent.get? "input" =
    (body.get? "input").map (editInput (sentItem render isGrokEncryptedContent))
  types : rejectUnknownInputItemTypes sent = .ok ()
  context : validateToolOutputContext sent = .ok ()

variable {body : Members} {name : String}

theorem get?_removeAll_of_none (h : body.get? name = none)
    (names : List String) : (removeAll body names).get? name = none := by
  induction names generalizing body with
  | nil => exact h
  | cons name' _ ih =>
    apply ih
    by_cases heq : name = name'
    · rw [heq, Members.get?_remove]
    · rwa [Members.get?_remove_of_ne heq]

theorem get?_removeAll_of_mem {names : List String}
    (hname : name ∈ names) : (removeAll body names).get? name = none := by
  induction names generalizing body with
  | nil => cases hname
  | cons _ names ih =>
    rcases mem_cons.mp hname with rfl | hrest
    · exact get?_removeAll_of_none (Members.get?_remove body name) names
    · exact ih hrest

theorem sentBody_of_prepareBody {model : String} {result : Members × GrokToolMappings}
    (h : prepareBody render isGrokEncryptedContent body model = .ok result) :
    SentBody render isGrokEncryptedContent body result.1 := by
  obtain ⟨⟨tools, _⟩, htools, h⟩ := bind_eq_ok.mp h
  obtain ⟨⟨⟩, -, h⟩ := bind_eq_ok.mp h
  obtain ⟨normalized, hnormalized, h⟩ := bind_eq_ok.mp h
  obtain ⟨⟨⟩, htypes, h⟩ := bind_eq_ok.mp h
  obtain ⟨⟨⟩, hcontext, h⟩ := bind_eq_ok.mp h
  cases h
  set start := removeAll ((body.insert "model" (.str model)).insert "stream" (.bool true))
    unsupportedFields with hstart
  have hedited := (((((untouched_normalizeModelFields start model).trans
    (edited_promoteAdditionalTools _)).untouched (untouched_normalizeTools htools)).trans
    (edited_normalizeInputNamespaceCalls tools)).trans
    (edited_normalizeInput render hnormalized)).trans
    (edited_normalizeReasoning isGrokEncryptedContent normalized)
  have hinput : start.get? "input" = body.get? "input" := by
    simp [hstart, removeAll, unsupportedFields, Members.get?_remove_of_ne,
      Members.get?_insert_of_ne]
  refine ⟨?_, ?_, htypes, hcontext⟩
  · rw [hedited.previous]
    exact get?_removeAll_of_mem (by decide)
  · rw [hedited.input, hinput]
    refine congrArg (Option.map · _) (congrArg editInput (funext fun item => ?_))
    cases hitem : exceptTools item <;> simp [sentItem, hitem]

end

end ProviderCore.Grok
