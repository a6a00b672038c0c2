import ProviderCore.Drivers.ResponsesHistory

/-!
# The tools of a Grok request

Grok knows functions and its own hosted tools.  Namespaces are flattened into functions with
qualified names, custom tools and the tool search become functions, and the choice of a tool is
checked against what is left.  `GrokToolMappings` remembers what the response has to undo.
-/

namespace ProviderCore.Grok

open Json (Members)
open ResponsesHistory (invalidRequest)

structure NamespaceToolRef where
  ns : String
  name : String
deriving DecidableEq

structure GrokToolMappings where
  customTools : List String := []
  /-- The tools that came out of a namespace, by qualified name. -/
  namespaceTools : List (String × NamespaceToolRef) := []
  toolSearch : Bool := false
deriving DecidableEq

/-! ## Names -/

def dropUnderscores : List Char → List Char
  | '_' :: '_' :: rest => dropUnderscores rest
  | rest => rest

def trimEndUnderscores (name : String) : String :=
  .ofList (dropUnderscores name.toList.reverse).reverse

def qualifyNamespaceToolName (ns name : String) : String :=
  if (Text.afterStart "mcp__".toList name.toList).isSome then name
  else trimEndUnderscores ns ++ "__" ++ name

def eqIgnoreAsciiCase (a b : String) : Bool :=
  a.toList.map Char.toLower == b.toList.map Char.toLower

/-! ## Collaboration tools -/

def collaborationMessageTools : List String := ["spawn_agent", "send_message", "followup_task"]

def updateObject (members : Members) (name : String) (f : Members → Members) : Members :=
  match (members.get? name).bind Json.toObj with
  | some inner => members.insert name (.obj (f inner))
  | none => members

/-- A collaboration function's message is not marked as encrypted. -/
def stripMessageEncryption (tool : Members) : Members :=
  if tool.text? "type" == some "function" &&
      collaborationMessageTools.contains ((tool.text? "name").getD "") then
    updateObject tool "parameters" fun parameters =>
      updateObject parameters "properties" fun properties =>
        updateObject properties "message" fun message => message.remove "encrypted"
  else tool

variable {members : Members}

theorem sizeOf_lt_of_get? {name : String} {value : Json}
    (h : members.get? name = some value) : sizeOf value < sizeOf members := by
  induction members with
  | nil => cases h
  | cons member _ ih =>
    obtain ⟨key, value'⟩ := member
    by_cases hname : name = key
    · subst hname
      obtain rfl : value' = value := by simpa [Members.get?] using h
      simp +arith
    · have hother : (name == key) = false := beq_false_of_ne hname
      rw [Members.get?, List.lookup_cons, hother] at h
      have hlt := ih h
      simp +arith
      omega

theorem sizeOf_lt_of_toObj {tree : Json} (h : tree.toObj = some members) :
    sizeOf members < sizeOf tree := by
  cases tree <;> cases h
  simp

theorem sizeOf_nested {tools nested : List Json} {tool : Json}
    (htool : tool ∈ tools) (hobj : tool.toObj = some members)
    (hnested : members.get? "tools" = some (.arr nested)) : sizeOf nested < sizeOf tools := by
  have htools := List.sizeOf_lt_of_mem htool
  have htree := sizeOf_lt_of_toObj hobj
  have hmember := sizeOf_lt_of_get? hnested
  simp +arith at hmember
  omega

/-- Through all the nested namespaces. -/
def stripCollaborationMessageEncryption (tools : List Json) : List Json :=
  tools.attach.map fun ⟨tool, htool⟩ =>
    match hobj : tool.toObj with
    | none => tool
    | some members =>
      if members.text? "type" == some "namespace" then
        match hnested : members.get? "tools" with
        | some (.arr nested) =>
          have := sizeOf_nested htool hobj hnested
          .obj (members.insert "tools" (.arr (stripCollaborationMessageEncryption nested)))
        | _ => tool
      else .obj (stripMessageEncryption members)
termination_by sizeOf tools

/-! ## Flattening -/

def flattenNestedTool (ns : String) (tool : Json) : Option (Json × Option NamespaceToolRef) := do
  let members ← tool.toObj
  let name ← (members.text? "name").bind Text.trimmed?
  return (.obj (members.insert "name" (.str (qualifyNamespaceToolName ns name))), some ⟨ns, name⟩)

def flattenNamespaceTool (tool : Json) : List (Json × Option NamespaceToolRef) :=
  match tool.toObj with
  | none => [(tool, none)]
  | some members =>
    if members.text? "type" != some "namespace" then [(tool, none)]
    else
      match (members.text? "name").bind Text.trimmed?, (members.get? "tools").bind Json.toArr with
      | some ns, some nested => nested.filterMap (flattenNestedTool ns)
      | _, _ => []

def flattenNamespaceTools (tools : List Json) : List (Json × Option NamespaceToolRef) :=
  tools.flatMap flattenNamespaceTool

/-- Tools among the items of the input. -/
def isAdditionalTools (item : Json) : Bool := item.text? "type" == some "additional_tools"

/-- Tools that came as an item of the input move to the request's tools. -/
def promoteAdditionalTools (body : Members) : Members :=
  match body.get? "input" with
  | some (.arr input) =>
    let promoted := (input.filter isAdditionalTools).flatMap fun item =>
      ((item.member? "tools").bind Json.toArr).getD []
    let body := body.insert "input" (.arr (input.filter (!isAdditionalTools ·)))
    if promoted.isEmpty then body
    else
      match body.get? "tools" with
      | some (.arr tools) => body.insert "tools" (.arr (tools ++ promoted))
      | none | some .null => body.insert "tools" (.arr promoted)
      | some _ => body
  | _ => body

/-! ## One tool -/

def emptyObjectSchema : Json := .obj [("type", .str "object"), ("properties", .obj [])]

def safeFunctionSchema : Json :=
  .obj [("type", .str "object"), ("properties", .obj []), ("additionalProperties", .bool true)]

def customToolSchema : Json :=
  .obj [("type", .str "object"), ("properties", .obj [("input", .obj [("type", .str "string")])]),
    ("required", .arr [.str "input"]), ("additionalProperties", .bool false)]

def toolSearchProxyTool : Json :=
  .obj [("type", .str "function"), ("name", .str "tool_search"),
    ("description", .str ("Search and load Codex tools, plugins, connectors, and MCP namespaces " ++
      "for the current task.")),
    ("parameters", .obj [("type", .str "object"),
      ("properties", .obj [
        ("query", .obj [("type", .str "string"),
          ("description", .str "Search query for tools or connectors to load.")]),
        ("limit", .obj [("type", .str "integer"),
          ("description", .str "Maximum number of tool groups to return.")])]),
      ("required", .arr [.str "query"])])]

/-- A branch of a union at the root is an object unless it says otherwise. -/
def normalizeBranch (branch : Json) : Json :=
  match branch.toObj with
  | some members =>
    if (members.get? "type").isSome then branch else .obj (members.insert "type" (.str "object"))
  | none => branch

def unionNames : List String := ["anyOf", "oneOf"]

def normalizeObjectRootUnionBranches (parameters : Json) : Json :=
  match parameters.toObj with
  | some members =>
    if members.text? "type" != some "object" then parameters
    else
      .obj (unionNames.foldl (fun (members : Members) name =>
        match (members.get? name).bind Json.toArr with
        | some branches => members.insert name (.arr (branches.map normalizeBranch))
        | none => members) members)
  | none => parameters

def isObjectText (value : Json) : Bool :=
  value.toStr.any fun value => eqIgnoreAsciiCase (Text.trim value) "object"

def schemaTypeIsObjectOnly : Json → Bool
  | .str value => isObjectText (.str value)
  | .arr values => !values.isEmpty && values.all isObjectText
  | _ => false

def rootUnionsAreObjectOnly (parameters : Json) : Bool :=
  unionNames.all fun name =>
    match (parameters.member? name).bind Json.toArr with
    | some branches => branches.all fun branch => (branch.member? "type").any schemaTypeIsObjectOnly
    | none => true

def normalizeFunctionParameters (tool : Members) : Members :=
  let isAutomationUpdate :=
    eqIgnoreAsciiCase ((tool.text? "name").getD "") "codex_app__automation_update"
  let parameters := ((tool.get? "parameters").filter (!·.isNull)).getD emptyObjectSchema
  let parameters := normalizeObjectRootUnionBranches parameters
  let needsSafeSchema := isAutomationUpdate || !rootUnionsAreObjectOnly parameters
  let tool := tool.insert "parameters" (if needsSafeSchema then safeFunctionSchema else parameters)
  if needsSafeSchema && (tool.get? "strict").bind Json.toBool == some true then
    tool.insert "strict" (.bool false)
  else tool

def normalizeTool (tool : Json) : Option Json :=
  match tool.toObj with
  | none => some tool
  | some members =>
    match members.text? "type" with
    | some "image_generation" | some "namespace" => none
    | some "custom" =>
      some (.obj (((members.insert "type" (.str "function")).remove "format").insert
        "parameters" customToolSchema))
    | some "function" => some (.obj (normalizeFunctionParameters members))
    | some "web_search" => some (.obj (members.remove "external_web_access"))
    | _ => some tool

/-! ## The choice of a tool -/

def toolKey (tool : Json) : Option (String × String) := do
  let members ← tool.toObj
  return (← members.text? "type", (members.text? "name").getD "")

def normalizeToolControlsWithoutTools (body : Members) : Except ProviderError Members :=
  let without := (body.remove "parallel_tool_calls").remove "tool_choice"
  let isOptional (mode : Option String) : Bool := mode.any (["auto", "none"].contains ·)
  let refused := invalidRequest "Grok tool_choice requires at least one supported tool"
  match (body.remove "parallel_tool_calls").get? "tool_choice" with
  | none | some .null => .ok without
  | some (.str mode) => if isOptional (some mode) then .ok without else .error refused
  | some (.obj choice) =>
    if isOptional (Json.text? "type" (.obj choice)) then .ok without else .error refused
  | some _ => .error refused

/-- A choice in the terms of the normalized tools, if it names one of them. -/
def normalizeToolChoiceRef (available : List (String × String)) (value : Json) : Option Json := do
  let choice ← value.toObj
  let type ← choice.text? "type"
  if ["image_generation", "namespace"].contains type then none
  else
    let choice : Members := if type == "tool_search" then
      (choice.insert "type" (.str "function")).insert "name" (.str "tool_search") else choice
    let choice : Members :=
      if type == "custom" then choice.insert "type" (.str "function") else choice
    let ns := choice.text? "namespace"
    let choice := choice.remove "namespace"
    let choice : Members := match ns, choice.text? "name" with
      | some ns, some name => choice.insert "name" (.str (qualifyNamespaceToolName ns name))
      | _, _ => choice
    let type := if ["custom", "tool_search"].contains type then "function" else type
    if available.contains (type, (choice.text? "name").getD "") then some (.obj choice) else none

/-- Allow what is left of a list of allowed tools. -/
def normalizeAllowedTools (available : List (String × String)) (body choice : Members) :
    Except ProviderError Members :=
  match (choice.get? "tools").bind Json.toArr with
  | none => .error (invalidRequest "Grok allowed_tools choice requires a tools array")
  | some tools =>
    let tools := tools.filterMap (normalizeToolChoiceRef available)
    if !tools.isEmpty then
      .ok (body.insert "tool_choice" (.obj (choice.insert "tools" (.arr tools))))
    else if choice.text? "mode" == some "required" then
      .error (invalidRequest "Grok required allowed_tools choice contains no supported tools")
    else .ok body

def normalizeToolChoice (body : Members) : Except ProviderError Members :=
  let available := (((body.get? "tools").bind Json.toArr).getD []).filterMap toolKey
  match body.get? "tool_choice" with
  | none => .ok body
  | some value =>
    let body := body.remove "tool_choice"
    let value := if value.text? "type" == some "web_search" then
      .obj [("type", .str "allowed_tools"), ("mode", .str "required"), ("tools", .arr [value])]
      else value
    match value.toObj with
    | none => .ok (body.insert "tool_choice" value)
    | some choice =>
      if choice.text? "type" == some "allowed_tools" then
        normalizeAllowedTools available body choice
      else
        match normalizeToolChoiceRef available value with
        | some value => .ok (body.insert "tool_choice" value)
        | none => .error (invalidRequest
            "Grok forced tool_choice does not reference a supported tool")

/-! ## All the tools -/

/-- One tool, after those normalized before it. -/
def addTool (tools : List Json × GrokToolMappings) (tool : Json × Option NamespaceToolRef) :
    List Json × GrokToolMappings :=
  let (normalized, mappings) := tools
  let (tool, reference) := tool
  let isSearch := tool.text? "type" == some "tool_search"
  if isSearch && mappings.toolSearch then tools
  else
    match if isSearch then some toolSearchProxyTool else normalizeTool tool with
    | none => tools
    | some sent =>
      let mappings := if isSearch then { mappings with toolSearch := true } else mappings
      let mappings := match sent.text? "name" with
        | some name =>
          { mappings with
            customTools := if tool.text? "type" == some "custom" then
              name :: mappings.customTools else mappings.customTools
            namespaceTools := match reference with
              | some reference => (name, reference) :: mappings.namespaceTools
              | none => mappings.namespaceTools }
        | none => mappings
      (normalized ++ [sent], mappings)

def normalizeTools (body : Members) : Except ProviderError (Members × GrokToolMappings) :=
  let without := body.remove "tools"
  match body.get? "tools" with
  | none | some .null => (normalizeToolControlsWithoutTools without).map (·, {})
  | some (.arr tools) =>
    let flattened := flattenNamespaceTools (stripCollaborationMessageEncryption tools)
    let (normalized, mappings) := flattened.foldl addTool ([], {})
    if (normalized.filterMap toolKey).Nodup then
      if normalized.isEmpty then (normalizeToolControlsWithoutTools without).map (·, mappings)
      else (normalizeToolChoice (without.insert "tools" (.arr normalized))).map (·, mappings)
    else
      .error (invalidRequest "Grok tool names must remain unique after namespace normalization")
  | some _ => .error (invalidRequest "Grok tools must be an array")

/-- A call to a namespace's tool is a call to its function. -/
def normalizeNamespaceCall (item : Json) : Json :=
  match item.toObj with
  | none => item
  | some members =>
    if (members.text? "type").any (["function_call", "custom_tool_call"].contains ·) then
      let rest := members.remove "namespace"
      match members.text? "namespace", rest.text? "name" with
      | some ns, some name => .obj (rest.insert "name" (.str (qualifyNamespaceToolName ns name)))
      | _, _ => .obj rest
    else item

def normalizeInputNamespaceCalls (body : Members) : Members :=
  match body.get? "input" with
  | some (.arr input) => body.insert "input" (.arr (input.map normalizeNamespaceCall))
  | _ => body

end ProviderCore.Grok
