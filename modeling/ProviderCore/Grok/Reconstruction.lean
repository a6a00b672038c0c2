import ProviderCore.Grok.Provenance
import ProviderCore.Grok.Sent

/-!
# Continuations are reconstructed or refused

Replay preparation and Grok's own preparation, one after the other, either refuse a request or send
a body that needs nothing the upstream does not have: no reference, no previous response, and to
each tool output its call.

Injection leaves out a cached call that the client's input already holds, but it knows five kinds
of calls only, and only by their `call_id`.  A call of another kind, such as `shell_call`, is sent
as a function call all the same, and the cached call is then sent beside it.
-/

namespace ProviderCore.Grok

open List
open Json (Members)
open Routing (Instant)

/-! ## The body that is sent -/

section

variable {render : Json → String} {isGrokEncryptedContent : String → Bool}

theorem SentBody.insert {body sent : Members} (h : SentBody render isGrokEncryptedContent body sent)
    {name : String} (hname : name ∉ reserved) (value : Json) :
    SentBody render isGrokEncryptedContent body (sent.insert name value) := by
  have hsame := Untouched.insert sent name hname value
  have hinput : (sent.insert name value).get? "input" = sent.get? "input" := by
    rw [hsame.input, show editInput some = id from funext editInput_some, Option.map_id_fun, id]
  refine ⟨hsame.previous.trans h.previous, hinput.trans h.input, ?_, ?_⟩
  · rw [rejectUnknownInputItemTypes, hinput]
    exact h.types
  · rw [validateToolOutputContext, hinput]
    exact h.context

/-- A request that is sent names no previous response, in its body or beside it. -/
theorem prepareRequest_sent {request : ProviderRequest} {sent : PreparedGrokRequest}
    (h : prepareRequest render isGrokEncryptedContent request = .ok sent) :
    sent.metadata.previousResponseId = none ∧ ∃ body sentBody, requestBody request = .ok body ∧
      sent.payload = .obj sentBody ∧ SentBody render isGrokEncryptedContent body sentBody := by
  unfold prepareRequest at h
  split at h
  · cases h
  · split at h
    · cases h
    · obtain ⟨body, hbody, h⟩ := Fold.bind_eq_ok.mp h
      split at h
      · cases h
      · rename_i hprevious
        obtain ⟨⟨sentBody, _⟩, hprepare, h⟩ := Fold.bind_eq_ok.mp h
        have hsent := sentBody_of_prepareBody hprepare
        rw [Bool.not_eq_true, hasPreviousResponse, Bool.or_eq_false_iff] at hprevious
        have hmetadata : request.metadata.previousResponseId = none := by simpa using hprevious.1
        dsimp only at h
        cases hsession : sessionOf request.metadata sentBody with
        | none =>
          rw [hsession] at h
          cases h
          exact ⟨hmetadata, body, sentBody, hbody, rfl, hsent⟩
        | some =>
          rw [hsession] at h
          cases h
          exact ⟨hmetadata, body, _, hbody, rfl, hsent.insert (by decide) _⟩

theorem get?_input_of_mem {body : Members} {item : Json} (hitem : item ∈ inputItems body) :
    body.get? "input" = some (.arr (inputItems body)) := by
  unfold inputItems at hitem ⊢
  rcases hget : body.get? "input" with _ | tree
  · rw [hget] at hitem
    cases hitem
  · rw [hget] at hitem
    cases tree <;> first | rfl | cases hitem

namespace SentBody

variable {body sent : Members} (h : SentBody render isGrokEncryptedContent body sent)

include h

theorem items : inputItems sent =
    (inputItems body).filterMap (sentItem render isGrokEncryptedContent) := by
  rw [inputItems, h.input, inputItems]
  rcases body.get? "input" with _ | tree
  · rfl
  · cases tree <;> rfl

theorem not_isItemReference {item : Json} (hitem : item ∈ inputItems sent) :
    isItemReference item = false := by
  have htypes := h.types
  rw [rejectUnknownInputItemTypes, get?_input_of_mem hitem] at htypes
  have hcheck := Fold.forall_of_forM htypes item hitem
  by_contra href
  have htype : itemType item = some "item_reference" := by
    simpa [isItemReference] using href
  unfold checkInputItemType at hcheck
  split at hcheck
  · cases hcheck
  · rename_i members hobj
    have hmembers : members.text? "type" = some "item_reference" := by
      cases item <;> cases hobj
      exact htype
    have hunsupported : supportedItemTypes.contains (Text.trim "item_reference") = false := by
      decide
    rw [hmembers, Option.map_some] at hcheck
    dsimp only at hcheck
    cases hcheck

/-- Each tool output is sent with its call. -/
theorem paired {output : Json} (houtput : output ∈ inputItems sent)
    (hisOutput : isFunctionCallOutput output = true) :
    ∃ call ∈ inputItems sent, isFunctionCall call = true ∧
      ∃ id, pairingId call = some id ∧ pairingId output = some id := by
  have hcontext := h.context
  rw [validateToolOutputContext, get?_input_of_mem houtput] at hcontext
  have hcheck := Fold.forall_of_forM hcontext output houtput
  rw [checkToolOutput, if_pos hisOutput] at hcheck
  split at hcheck
  · cases hcheck
  · rename_i id hid
    split at hcheck
    · rename_i hcontains
      obtain ⟨call, hcall, hcallId⟩ := mem_filterMap.mp (contains_iff_mem.mp hcontains)
      obtain ⟨hmem, hisCall⟩ := mem_filter.mp hcall
      exact ⟨call, hmem, hisCall, id, hcallId, hid⟩
    · cases hcheck

end SentBody

end

/-! ## The client's own items -/

/-- The client's input, in order, with its references resolved; a text is one message. -/
inductive KeptInput (own : Members) : List Json → Prop
  | items {kept : List Json} : List.Forall₂
      (fun item item' => item' = item ∨ isItemReference item = true) (inputItems own) kept →
      KeptInput own kept
  | text {text : String} : own.get? "input" = some (.str text) → KeptInput own [userMessage text]

theorem KeptInput.refl (own : Members) : KeptInput own (inputItems own) :=
  .items (forall₂_same.mpr fun _ _ => .inl rfl)

theorem keptInput_of_injectionInput {own : Members} {cached input : List Json}
    (h : injectionInput own cached = some input) : KeptInput own input := by
  unfold injectionInput at h
  split at h
  · rename_i text hinput
    split at h
    · cases h
      exact .text hinput
    · cases h
  · rename_i input' hinput
    cases h
    exact inputItems_of_get? hinput ▸ .refl own
  · cases h

/-- What a rebuilt body holds: injected items, then the client's. -/
theorem Rebuilt.split {first second : GrokReplayCache} {now later : Instant}
    {scope : Option GrokReplayScope} {own body : Members}
    {injection : Option (List Json × List Json)}
    (h : Rebuilt first now second later scope own injection body) :
    ∃ injected kept, inputItems body = injected ++ kept ∧ KeptInput own kept ∧
      ((injection = none ∧ injected = []) ∨ ∃ cached, injection = some (kept, cached) ∧
        injectionInput own cached = some kept ∧ injected = missingItems kept cached) := by
  cases h with
  | kept => exact ⟨[], _, rfl, .refl own, .inl ⟨rfl, rfl⟩⟩
  | @expanded s input cached resolved hscope hinput hcached hresolved =>
    refine ⟨[], resolved, inputItems_insert own resolved, .items ?_, .inl ⟨rfl, rfl⟩⟩
    rw [inputItems_of_get? hinput]
    refine hresolved.imp fun item item' hresolve => ?_
    exact (mem_of_resolve hresolve).imp And.right And.left
  | @injected s entry input hscope href hentry hinput =>
    exact ⟨missingItems input entry.items, input, inputItems_insert own _,
      keptInput_of_injectionInput hinput, .inr ⟨entry.items, rfl, hinput, rfl⟩⟩

/-! ## Calls that injection does not see -/

section

variable (render : Json → String) (isGrokEncryptedContent : String → Bool)

/-- The ids of the calls that the client's items are sent as. -/
def clientCallIds (items : List Json) : List String :=
  ((items.filterMap (sentItem render isGrokEncryptedContent)).filter
    isFunctionCall).filterMap callId

/-- A cached call answers to an output of the input, and the input holds its call already, but as
none of the calls that injection looks at. -/
structure Overlooked (input cached : List Json) (id : String) : Prop where
  cachedCall : ∃ call ∈ cached, isToolCall call = true ∧ callId call = some id
  output : ∃ output ∈ input, isToolOutput output = true ∧ callId output = some id
  unseen : ∀ call ∈ input, isToolCall call = true → callId call ≠ some id
  sent : id ∈ clientCallIds render isGrokEncryptedContent input

variable {item : Json}

theorem isProse_of_isToolCall (h : isToolCall item = true) : isProse item = false := by
  unfold isToolCall at h
  unfold isProse
  rcases htype : itemType item with _ | type
  · rfl
  · rw [htype] at h
    simp only [Option.any_some, contains_iff_mem, mem_cons, not_mem_nil, or_false] at h
    rcases h with rfl | rfl | rfl | rfl | rfl <;> decide

variable {input cached : List Json}

theorem mem_missingItems_of_isToolCall
    (hcall : isToolCall item = true) {id : String} (hid : callId item = some id) :
    item ∈ missingItems input cached ↔ item ∈ cached ∧
      (∃ output ∈ input, isToolOutput output = true ∧ callId output = some id) ∧
      ∀ call ∈ input, isToolCall call = true → callId call ≠ some id := by
  simp [missingItems, isProse_of_isToolCall hcall, hcall, hid, and_assoc]

/-- Injection adds no call that the client's input holds already, exactly if it overlooks none. -/
theorem missingItems_fresh_iff :
    (∀ item ∈ missingItems input cached, isToolCall item = true → ∀ id, callId item = some id →
        id ∉ clientCallIds render isGrokEncryptedContent input) ↔
      ∀ id, ¬Overlooked render isGrokEncryptedContent input cached id := by
  constructor
  · rintro h id ⟨⟨call, hmem, hcall, hid⟩, houtput, hunseen, hsent⟩
    exact h call ((mem_missingItems_of_isToolCall hcall hid).mpr ⟨hmem, houtput, hunseen⟩)
      hcall id hid hsent
  · intro h item hitem hcall id hid hsent
    obtain ⟨hmem, houtput, hunseen⟩ := (mem_missingItems_of_isToolCall hcall hid).mp hitem
    exact h id ⟨⟨item, hmem, hcall, hid⟩, houtput, hunseen, hsent⟩

/-- A continuation reconstructed: `prepared` is the body after replay, `sent` the body that goes
upstream. -/
structure Reconstruction (own prepared sent : Members) (injected kept : List Json) : Prop where
  /-- Injected items come first, the client's own keep their order. -/
  items : inputItems prepared = injected ++ kept
  ordered : KeptInput own kept
  itemwise : inputItems sent = (injected ++ kept).filterMap (sentItem render isGrokEncryptedContent)
  noReference : ∀ item ∈ inputItems sent, isItemReference item = false
  noPrevious : sent.get? "previous_response_id" = none
  paired : ∀ output ∈ inputItems sent, isFunctionCallOutput output = true →
    ∃ call ∈ inputItems sent, isFunctionCall call = true ∧
      ∃ id, pairingId call = some id ∧ pairingId output = some id
  /-- No injected call has the id of a call of the client's. -/
  fresh : ∀ item ∈ injected, isToolCall item = true → ∀ id, callId item = some id →
    id ∉ clientCallIds render isGrokEncryptedContent kept

/-- What the two preparations do to a request, as far as its body is concerned. -/
def Reconstructed (own : Members) (prepared : ProviderRequest) (sent : PreparedGrokRequest) :
    Prop :=
  sent.metadata.previousResponseId = none ∧ ∃ body sentBody injected kept,
    prepared.payload = some (.obj body) ∧ sent.payload = .obj sentBody ∧
      Reconstruction render isGrokEncryptedContent own body sentBody injected kept

end

/-! ## The two preparations -/

section

variable {render : Json → String} {isGrokEncryptedContent : String → Bool}
  {first second : GrokReplayCache} {now later : Instant} {request prepared : ProviderRequest}
  {scope : Option GrokReplayScope} {own : Members} {sent : PreparedGrokRequest}

/-- Two ways to cut a list before the client's items cut it in the same place, unless the client
sent a text. -/
theorem KeptInput.cut {kept kept' injected injected' : List Json} (h : KeptInput own kept)
    (h' : KeptInput own kept') (hcut : injected ++ kept = injected' ++ kept') :
    (injected = injected' ∧ kept = kept') ∨ ∃ text, own.get? "input" = some (.str text) := by
  cases h with
  | text htext => exact .inr ⟨_, htext⟩
  | items hitems =>
    cases h' with
    | text htext => exact .inr ⟨_, htext⟩
    | items hitems' =>
      have hlength : kept.length = kept'.length :=
        hitems.length_eq.symm.trans hitems'.length_eq
      exact .inl (append_inj' hcut hlength)

variable {input cached : List Json}

/-- A text holds no tool output, so nothing is overlooked in it. -/
theorem not_overlooked_of_text {text : String} {id : String}
    (htext : own.get? "input" = some (.str text))
    (hinput : injectionInput own cached = some input) :
    ¬Overlooked render isGrokEncryptedContent input cached id := by
  rintro ⟨-, ⟨_, houtput, hisOutput, -⟩, -, -⟩
  rw [injectionInput, htext] at hinput
  dsimp only at hinput
  split at hinput
  · cases hinput
    rw [mem_singleton.mp houtput] at hisOutput
    cases hisOutput
  · cases hinput

section

variable (hown : request.payload = some (.obj own))
  (hprepare : first.prepareRequest now second later request = .ok (prepared, scope))
  (hsend : prepareRequest render isGrokEncryptedContent prepared = .ok sent)

include hown hprepare hsend

/-- The parts of a continuation in the order in which they are sent; all but one clause of the
reconstruction hold of them. -/
theorem exists_reconstruction :
    sent.metadata.previousResponseId = none ∧ ∃ body sentBody injected kept,
      prepared.payload = some (.obj body) ∧ sent.payload = .obj sentBody ∧
      inputItems body = injected ++ kept ∧ KeptInput own kept ∧
      ((first.injection now second later request = none ∧ injected = []) ∨
        ∃ cached, first.injection now second later request = some (kept, cached) ∧
          injectionInput own cached = some kept ∧ injected = missingItems kept cached) ∧
      ((∀ item ∈ injected, isToolCall item = true → ∀ id, callId item = some id →
          id ∉ clientCallIds render isGrokEncryptedContent kept) →
        Reconstruction render isGrokEncryptedContent own body sentBody injected kept) := by
  obtain ⟨-, _, rebuilt, hown', hrebuilt, hpayload⟩ := prepareRequest_rebuilt hprepare
  rw [requestBody, hown] at hown'
  cases hown'
  obtain ⟨hmetadata, body, sentBody, hbody, hsent, hsentBody⟩ := prepareRequest_sent hsend
  obtain ⟨injected, kept, hitems, hkept, hinjection⟩ := hrebuilt.split
  have hpair : prepared.payload = some (.obj body) ∧ inputItems body = inputItems rebuilt := by
    unfold requestBody at hbody
    rcases hpayload with hpayload | hpayload
    · rw [hpayload] at hbody
      cases hbody
      exact ⟨hpayload, rfl⟩
    · rw [hpayload] at hbody
      cases hbody
      exact ⟨hpayload, inputItems_remove_previous rebuilt⟩
  have hbodyItems := hpair.2.trans hitems
  refine ⟨hmetadata, body, sentBody, injected, kept, hpair.1, hsent, hbodyItems, hkept, hinjection,
    fun hfresh => ?_⟩
  exact {
    items := hbodyItems
    ordered := hkept
    itemwise := by rw [hsentBody.items, hbodyItems]
    noReference := fun item hitem => hsentBody.not_isItemReference hitem
    noPrevious := hsentBody.previous
    paired := fun output houtput => hsentBody.paired houtput
    fresh := hfresh }

/-- A reconstructed request has overlooked nothing. -/
theorem not_overlooked_of_reconstructed
    (h : Reconstructed render isGrokEncryptedContent own prepared sent)
    (hsource : first.injection now second later request = some (input, cached)) (id : String) :
    ¬Overlooked render isGrokEncryptedContent input cached id := by
  obtain ⟨-, body, _, _, _, hbody, -, hitems, hkept, hinjection, -⟩ :=
    exists_reconstruction hown hprepare hsend
  obtain ⟨-, body', _, _, _, hbody', -, h⟩ := h
  obtain rfl : body = body' := by
    rw [hbody] at hbody'
    simpa using hbody'
  rcases hinjection with ⟨hnone, -⟩ | ⟨cached', hsome, hinput, rfl⟩
  · rw [hnone] at hsource
    cases hsource
  · rw [hsome] at hsource
    cases hsource
    rcases hkept.cut h.ordered (hitems.symm.trans h.items) with ⟨rfl, rfl⟩ | ⟨text, htext⟩
    · exact (missingItems_fresh_iff render isGrokEncryptedContent).mp h.fresh id
    · exact not_overlooked_of_text htext hinput

end

/-- **Continuations are reconstructed or refused.**  If both preparations let a request through, it
is reconstructed exactly if its injection overlooks no call of the client's. -/
theorem continuation_reconstructed_iff (hown : request.payload = some (.obj own))
    (hprepare : first.prepareRequest now second later request = .ok (prepared, scope))
    (hsend : prepareRequest render isGrokEncryptedContent prepared = .ok sent) :
    Reconstructed render isGrokEncryptedContent own prepared sent ↔
      ∀ input cached, first.injection now second later request = some (input, cached) →
        ∀ id, ¬Overlooked render isGrokEncryptedContent input cached id := by
  constructor
  · intro h input cached hsource
    exact not_overlooked_of_reconstructed hown hprepare hsend h hsource
  · intro h
    obtain ⟨hmetadata, body, sentBody, injected, kept, hbody, hsentBody, -, -, hinjection,
      hreconstruction⟩ := exists_reconstruction hown hprepare hsend
    refine ⟨hmetadata, body, sentBody, injected, kept, hbody, hsentBody, hreconstruction ?_⟩
    rcases hinjection with ⟨-, rfl⟩ | ⟨cached, hsome, -, rfl⟩
    · exact fun item hitem => by cases hitem
    · exact (missingItems_fresh_iff render isGrokEncryptedContent).mpr (h kept cached hsome)

end

/-- The map after the one response, as the continuations below find it. -/
def lookupCache (completed : Json) : GrokReplayCache :=
  (ReplaySystem.run (fun _ => some completed) (fun _ => 0) {} lookupRun).cache

/-- A continuation whose call comes out of the map. -/
theorem continuation_reconstructed_lookup :
    ∃ (prepared : ProviderRequest) (scope : Option GrokReplayScope) (sent : PreparedGrokRequest),
      (lookupCache lookupCompleted).prepareRequest 2 (lookupCache lookupCompleted) 3
        lookupContinuation = .ok (prepared, scope) ∧
      prepareRequest (fun _ => "") (fun _ => false) prepared = .ok sent ∧
      Reconstructed (fun _ => "") (fun _ => false) lookupBody prepared sent := by
  have hprepare : (lookupCache lookupCompleted).prepareRequest 2 (lookupCache lookupCompleted) 3
      lookupContinuation = .ok (_, _) := rfl
  refine ⟨_, _, _, hprepare, rfl, (continuation_reconstructed_iff rfl hprepare rfl).mpr ?_⟩
  intro input cached hsource id hoverlooked
  have hinput : some ([lookupOutput], [lookupCall]) = some (input, cached) := hsource
  cases hinput
  have hnone : clientCallIds (fun _ => "") (fun _ => false) [lookupOutput] = [] := rfl
  have hsent := hoverlooked.sent
  cases hsent

/-- A shell call in the client's words, and its output. -/
def shellCall : Json := .obj [("type", .str "shell_call"), ("call_id", .str "call_1"),
  ("action", .obj [("type", .str "exec")])]

def shellOutput : Json := .obj [("type", .str "local_shell_call_output"),
  ("call_id", .str "call_1"), ("output", .str "done")]

def shellBody : Members := [("input", .arr [shellCall, shellOutput])]

def shellContinuation : ProviderRequest :=
  ⟨.openAiResponses, "grok-4.5", some (.obj shellBody),
    { sessionId := some "session-1", routingScope := some "key-a" }⟩

/-- The same call, in the words in which the response put it out. -/
def localShellCall : Json := .obj [("type", .str "local_shell_call"), ("call_id", .str "call_1"),
  ("action", .obj [("type", .str "exec")])]

def shellCompleted : Json := .obj [("type", .str "response.completed"),
  ("response", .obj [("id", .str "resp_1"), ("output", .arr [localShellCall])])]

/-- The client sends a call back as `shell_call`; the cached `local_shell_call` is injected beside
it, and the upstream receives the call twice. -/
theorem shell_call_sent_twice :
    ∃ (prepared : ProviderRequest) (scope : Option GrokReplayScope) (sent : PreparedGrokRequest),
      (lookupCache shellCompleted).prepareRequest 2 (lookupCache shellCompleted) 3
        shellContinuation = .ok (prepared, scope) ∧
      payloadItems prepared.payload = [localShellCall, shellCall, shellOutput] ∧
      prepareRequest (fun _ => "") (fun _ => false) prepared = .ok sent ∧
      ((payloadItems (some sent.payload)).filter isFunctionCall).filterMap callId =
        ["call_1", "call_1"] ∧
      ¬Reconstructed (fun _ => "") (fun _ => false) shellBody prepared sent := by
  have hprepare : (lookupCache shellCompleted).prepareRequest 2 (lookupCache shellCompleted) 3
      shellContinuation = .ok (_, _) := rfl
  have hinjection : (lookupCache shellCompleted).injection 2 (lookupCache shellCompleted) 3
      shellContinuation = some ([shellCall, shellOutput], [localShellCall]) := rfl
  refine ⟨_, _, _, hprepare, rfl, rfl, rfl, fun h => ?_⟩
  refine not_overlooked_of_reconstructed rfl hprepare rfl h hinjection "call_1" ⟨?_, ?_, ?_, ?_⟩
  · exact ⟨localShellCall, by simp, rfl, rfl⟩
  · exact ⟨shellOutput, by simp, rfl, rfl⟩
  · simp only [mem_cons, not_mem_nil, or_false, forall_eq_or_imp, forall_eq]
    exact ⟨fun h => absurd h (by decide), fun h => absurd h (by decide)⟩
  · exact mem_singleton_self _

end ProviderCore.Grok
