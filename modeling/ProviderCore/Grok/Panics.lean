import ProviderCore.Grok.Terminal

/-!
# Panics of the Grok stream

From the first event with a number on, the restorer numbers what it hands on.  A value that is no
record has no place for a number, so there the stream panics.
-/

namespace ProviderCore.Grok.Restore

open List
open Protocol (Arrival sseEventName)

/-- The payload that the restorer reads in a frame. -/
def readPayload (codec : JsonCodec) (frame : Bytes) : Option Json :=
  if sseEventName frame == some "ping" then none else framePayload codec frame

def payloadsOf (codec : JsonCodec) (frames : List Bytes) : List Json :=
  frames.filterMap (readPayload codec)

def numberOf (value : Json) : Option ℤ := value.toObj.bind sequenceOf

/-- A value that is no record and cannot become one. -/
def isBare : Json → Bool
  | .obj _ | .null => false
  | _ => true

/-! ## Numbering goes on -/

namespace GrokToolStreamRestorer

variable (env : StreamEnv) (r : GrokToolStreamRestorer) (payload : Json.Members)
  (sequence : Option ℤ) (changed : Bool)

@[simp] theorem isSome_resequence :
    (r.resequence payload sequence changed).2.nextSequence.isSome = r.nextSequence.isSome := by
  unfold resequence
  split <;> simp [*]

@[simp] theorem isSome_generatedEvent :
    (r.generatedEvent payload).2.nextSequence.isSome = r.nextSequence.isSome := by
  unfold generatedEvent
  split <;> simp [*]

@[simp] theorem nextSequence_recordCompletedItem :
    (r.recordCompletedItem payload).nextSequence = r.nextSequence := by
  unfold recordCompletedItem
  split <;> rfl

@[simp] theorem isSome_customInput (call : ClientToolCall) (input : String) :
    (r.customInput call input).2.nextSequence.isSome = r.nextSequence.isSome := by
  unfold customInput
  split <;> simp

theorem isSome_restoreEvent (type : String) :
    (r.restoreEvent env type payload sequence changed).2.nextSequence.isSome =
      r.nextSequence.isSome := by
  unfold restoreEvent
  split
  · unfold outputItemAdded
    split
    · rename_i hrecord
      simp [(r.recordClientToolItem_account payload hrecord).2]
    · exact r.isSome_resequence _ _ _
  · unfold argumentsDelta
    split
    · dsimp only
      split <;> rfl
    · exact r.isSome_resequence _ _ _
  · unfold argumentsDone
    split
    · exact r.isSome_resequence _ _ _
    · dsimp only
      split
      · rfl
      · exact isSome_customInput _ _ _
  · unfold outputItemDone
    rcases hrecord : r.recordClientToolItem payload with _ | ⟨index, call, r'⟩
    · simp
    · simp [(r.recordClientToolItem_account payload hrecord).2]
  · exact r.isSome_resequence _ _ _

theorem isSome_restorePayload : (r.restorePayload env payload).2.nextSequence.isSome =
    (r.nextSequence.isSome || (sequenceOf payload).isSome) := by
  have hrenamed : sequenceOf (renameCompleted ((payload.text? "type").getD "") payload).2 =
      sequenceOf payload := by
    unfold renameCompleted
    split
    · rw [sequenceOf, Json.Members.get?_update_of_ne (by decide),
        Json.Members.get?_insert_of_ne (by decide)]
      rfl
    · rfl
  rw [← hrenamed]
  unfold restorePayload
  dsimp only
  split
  · simp [reasoningTextDone, beginSequence, noteResponseId]
  · split
    · simp [terminalEvent, beginSequence, noteResponseId]
    · rw [isSome_restoreEvent]
      simp [beginSequence, noteResponseId]

end GrokToolStreamRestorer

/-! ## Frames -/

variable {env : StreamEnv} {r r' : GrokToolStreamRestorer}

theorem restoreValue_eq_none {value : Json} :
    r.restoreValue env value = none ↔ isBare value = true ∧ r.nextSequence.isSome = true := by
  cases value <;>
    simp [GrokToolStreamRestorer.restoreValue, isBare, Option.isSome_iff_ne_none]

theorem isSome_restoreValue {value : Json} {payloads : List Json}
    (h : r.restoreValue env value = some (payloads, r')) :
    r'.nextSequence.isSome = (r.nextSequence.isSome || (numberOf value).isSome) := by
  cases value with
  | obj payload =>
    simp only [GrokToolStreamRestorer.restoreValue, Option.some.injEq, Prod.mk.injEq] at h
    rw [← h.2]
    exact r.isSome_restorePayload env payload
  | null =>
    rw [GrokToolStreamRestorer.restoreValue, Option.some_inj] at h
    split at h
    · cases h
      simp [numberOf, Json.toObj]
    · rename_i next hnext
      cases h
      simp [hnext]
  | _ =>
    obtain ⟨-, h⟩ := Option.ite_none_right_eq_some.mp h
    cases h
    simp [numberOf, Json.toObj]

/-- What a frame becomes. -/
theorem restoreFrame_eq (frame : Bytes) : r.restoreFrame env frame =
    match readPayload env.codec frame with
    | none => some ([if sseEventName frame == some "ping" then .ping frame else .verbatim frame], r)
    | some value => (r.restoreValue env value).map fun restored =>
        (restored.1.map (.rewritten frame), restored.2) := by
  unfold GrokToolStreamRestorer.restoreFrame readPayload framePayload
  split
  · rfl
  · rcases (Protocol.sseDataPayload frame).bind env.codec.parse with _ | value <;> rfl

theorem calm_restoreFrames (frames : List Bytes) :
    .panic ∉ (restoreFrames env r frames).1 ↔
      (r.nextSequence.isSome = true → ∀ value ∈ payloadsOf env.codec frames, isBare value = false) ∧
        (payloadsOf env.codec frames).Pairwise fun earlier later =>
          (numberOf earlier).isSome = true → isBare later = false := by
  induction frames generalizing r with
  | nil => simp [restoreFrames, payloadsOf]
  | cons frame frames ih =>
    rw [restoreFrames, restoreFrame_eq, payloadsOf, filterMap_cons, ← payloadsOf]
    rcases readPayload env.codec frame with _ | value
    · simpa using ih
    · dsimp only
      rcases hvalue : r.restoreValue env value with _ | ⟨payloads, r'⟩
      · obtain ⟨hbare, hsome⟩ := restoreValue_eq_none.mp hvalue
        simp [hbare, hsome]
      · have hcalm (hsome : r.nextSequence.isSome = true) : isBare value = false := by
          by_contra hbare
          rw [restoreValue_eq_none.mpr ⟨by simpa using hbare, hsome⟩] at hvalue
          cases hvalue
        have houtputs : .panic ∉ (payloads.map (Output.rewritten frame)).map Item.output := by simp
        simp only [Option.map_some, mem_append, houtputs, false_or]
        rw [ih, isSome_restoreValue hvalue, Bool.or_eq_true, pairwise_cons, forall_mem_cons]
        tauto

/-- No panic: whatever arrives, a panic comes only where a value that is no record follows an event
with a number. -/
theorem grok_calm_iff (env : StreamEnv) (mappings : GrokToolMappings) (upstream : List Arrival) :
    ∃ items, Unfold.Reads (RestoredStream.nextOutput env)
        (RestoredStream.restoreToolStream mappings upstream) items ∧
      (.panic ∉ items ↔ (payloadsOf env.codec (cut [] upstream).1).Pairwise fun earlier later =>
        (numberOf earlier).isSome = true → isBare later = false) := by
  refine ⟨_, RestoredStream.reads_iff.mpr rfl, ?_⟩
  have hcalm := @calm_restoreFrames env { mappings } (cut [] upstream).1
  have hconclude (r : Option GrokToolStreamRestorer) :
      .panic ∉ (r.map fun r => conclude env r (cut [] upstream).2).getD [] := by
    cases r with
    | none => simp
    | some => simp [conclude]
  rw [answered, restoreThen, mem_append]
  simpa [hconclude] using hcalm

/-- An event with a number, and then a number alone. -/
theorem grok_panics :
    let numbered := "\x7b\"sequence_number\":0\x7d"
    let codec : JsonCodec := {
      parse := fun bytes => if bytes = Text.ascii "1" then some (.int 1)
        else if bytes = Text.ascii numbered then some (.obj [("sequence_number", .int 0)])
        else none
      render := fun _ => numbered }
    ∃ items, Unfold.Reads (RestoredStream.nextOutput ⟨codec, "grok", id, "u"⟩)
      (RestoredStream.restoreToolStream {}
        [.chunk (Text.ascii ("data: " ++ numbered ++ "\n\ndata: 1\n\n"))]) items ∧
      .panic ∈ items := by
  refine ⟨_, RestoredStream.reads_iff.mpr rfl, ?_⟩
  exact mem_of_getElem? (i := 1) rfl

end ProviderCore.Grok.Restore
