import ProviderCore.Lib.Brackets
import ProviderCore.Protocol.Claude.Response

/-!
# The content blocks of a Claude stream

Blocks are opened and closed implicitly, by whatever event comes next.  The converter's state knows
the block that is open and the number of the next one; `Tracks` says that it knows this right, and
every conversion keeps it.  So the events of any run are well bracketed.
-/

namespace ProviderCore.Protocol.Claude

open List
open Brackets (Token)
open Emit (Triple Invariant Keeps emit when withSome)

/-! ## Blocks and their parts -/

inductive BlockKind
  | thinking
  | text
  | toolUse
  | serverToolUse
  | webSearchToolResult
deriving DecidableEq

def ContentBlock.kind : ContentBlock → BlockKind
  | .thinking => .thinking
  | .text => .text
  | .toolUse .. => .toolUse
  | .serverToolUse .. => .serverToolUse
  | .webSearchToolResult .. => .webSearchToolResult

def OpenBlock.kind : OpenBlock → BlockKind
  | .thinking _ => .thinking
  | .text _ => .text
  | .tool _ _ => .toolUse

/-- The kinds of block that a delta can be added to. -/
def BlockDelta.kinds : BlockDelta → List BlockKind
  | .thinking _ | .signature _ => [.thinking]
  | .text _ => [.text]
  | .inputJson _ => [.toolUse, .serverToolUse]

def Fits (kind : BlockKind) (delta : BlockDelta) : Prop := kind ∈ delta.kinds

/-- What an event does to the blocks. -/
def Event.token : Event → Option (Token BlockKind BlockDelta)
  | .contentBlockStart index block => some (.start index block.kind)
  | .contentBlockDelta index delta => some (.delta index delta)
  | .contentBlockStop index => some (.stop index)
  | .messageStop => some .finish
  | _ => none

def tokens (log : List Event) : List (Token BlockKind BlockDelta) := log.filterMap Event.token

theorem tokens_append_one (log : List Event) (event : Event) :
    tokens (log ++ [event]) = tokens log ++ event.token.toList := by
  rw [tokens, filterMap_append, ← tokens]
  cases h : event.token <;> simp [h]

/-! ## What the state knows -/

structure Tracks (log : List Event) (s : ClaudeEventConverter) : Prop where
  reads : Brackets.Reads Fits (tokens log) s.blockIndex (s.openBlock.map OpenBlock.kind)
  index : ∀ block ∈ s.openBlock, block.index = s.blockIndex

namespace Tracks

variable {log : List Event} {s s' : ClaudeEventConverter} {block : OpenBlock}

section

variable (h : Tracks log s)

include h

theorem congr (hindex : s'.blockIndex = s.blockIndex)
    (hopen : s'.openBlock = s.openBlock) : Tracks log s' := by
  refine ⟨?_, ?_⟩
  · rw [hindex, hopen]
    exact h.reads
  · rw [hindex, hopen]
    exact h.index

theorem other {event : Event} (htoken : event.token = none) : Tracks (log ++ [event]) s := by
  refine ⟨?_, h.index⟩
  rw [tokens_append_one, htoken, Option.toList_none, append_nil]
  exact h.reads

theorem start (hopen : s.openBlock = none) {content : ContentBlock}
    (hindex : s'.blockIndex = s.blockIndex) (hblock : s'.openBlock = some block)
    (hnumber : block.index = s.blockIndex) (hkind : content.kind = block.kind) :
    Tracks (log ++ [.contentBlockStart s.blockIndex content]) s' := by
  have hreads := h.reads
  rw [hopen] at hreads
  refine ⟨?_, ?_⟩
  · rw [tokens_append_one, hindex, hblock, Option.map_some, ← hkind]
    exact hreads.snoc (.start _ _)
  · rw [hblock, hindex]
    rintro _ ⟨⟩
    exact hnumber

theorem delta (hopen : s.openBlock = some block) {delta : BlockDelta}
    (hfits : Fits block.kind delta) : Tracks (log ++ [.contentBlockDelta block.index delta]) s := by
  have hreads := h.reads
  refine ⟨?_, h.index⟩
  rw [hopen, Option.map_some] at hreads ⊢
  rw [tokens_append_one, h.index block hopen]
  exact hreads.snoc (.delta _ hfits)

theorem stop (hopen : s.openBlock = some block)
    (hindex : s'.blockIndex = block.index + 1) (hclosed : s'.openBlock = none) :
    Tracks (log ++ [.contentBlockStop block.index]) s' := by
  have hreads := h.reads
  rw [hopen, Option.map_some] at hreads
  refine ⟨?_, ?_⟩
  · rw [tokens_append_one, hindex, hclosed, h.index block hopen]
    exact hreads.snoc (.stop _ _)
  · rw [hclosed]
    rintro _ ⟨⟩

/-- The open block is noted in another way. -/
theorem renote (hopen : s.openBlock = some block) {block' : OpenBlock}
    (hindex : s'.blockIndex = s.blockIndex) (hblock : s'.openBlock = some block')
    (hnumber : block'.index = block.index) (hkind : block'.kind = block.kind) : Tracks log s' := by
  have hreads := h.reads
  refine ⟨?_, ?_⟩
  · rw [hopen] at hreads
    rwa [hindex, hblock, Option.map_some, hkind]
  · rw [hblock, hindex]
    rintro _ ⟨⟩
    exact hnumber.trans (h.index block hopen)

theorem finish (hopen : s.openBlock = none) : Tracks (log ++ [.messageStop]) s := by
  have hreads := h.reads
  refine ⟨?_, h.index⟩
  rw [hopen] at hreads ⊢
  rw [tokens_append_one]
  exact hreads.snoc (.finish _)

end

end Tracks

/-! ## Opening and closing -/

def Closed (log : List Event) (s : ClaudeEventConverter) : Prop :=
  Tracks log s ∧ s.openBlock = none

theorem triple_closeBlock : Triple Tracks closeBlock fun _ => Closed := by
  refine ⟨fun log s h => ?_⟩
  rcases hopen : s.openBlock with _ | block
  · simpa [closeBlock, hopen, Closed] using h
  · by_cases hsigned : block.isThinking = true ∧ s.thinkingSignature.isSome = true
    · obtain ⟨hthinking, hsome⟩ := hsigned
      obtain ⟨signature, hsignature⟩ := Option.isSome_iff_exists.mp hsome
      have hfits : Fits block.kind (.signature signature) := by
        cases block with
        | thinking => exact mem_singleton.mpr rfl
        | _ => cases hthinking
      have hindex : (closeBlock.state s).blockIndex = block.index + 1 := by simp [closeBlock, hopen]
      have hclosed : (closeBlock.state s).openBlock = none := by
        simp [closeBlock, hopen, hthinking, emitSignature, hsignature]
      have hlog := (h.delta hopen hfits).stop hopen hindex hclosed
      refine ⟨?_, ?_⟩
      · simpa [closeBlock, hopen, hthinking, emitSignature, hsignature] using hlog
      · exact hclosed
    · -- no signature is told
      have hquiet : closeBlock.events s = [.contentBlockStop block.index] ∧
          (closeBlock.state s).openBlock = none ∧
          (closeBlock.state s).blockIndex = block.index + 1 := by
        rcases hthinking : block.isThinking with _ | _
        · simp [closeBlock, hopen, hthinking]
        · have hnone : s.thinkingSignature = none := by simpa [hthinking] using hsigned
          simp [closeBlock, hopen, hthinking, emitSignature, hnone]
      rw [hquiet.1]
      exact ⟨h.stop hopen hquiet.2.2 hquiet.2.1, hquiet.2.1⟩

def Opened (kind : BlockKind) (log : List Event) (s : ClaudeEventConverter) : Prop :=
  Tracks log s ∧ s.openBlock.map OpenBlock.kind = some kind

variable {o : Option OpenBlock}

theorem any_isThinking :
    o.any OpenBlock.isThinking = true ↔ o.map OpenBlock.kind = some .thinking := by
  rcases o with _ | _ | _ | _ <;> simp [OpenBlock.isThinking, OpenBlock.kind]

theorem any_isText : o.any OpenBlock.isText = true ↔ o.map OpenBlock.kind = some .text := by
  rcases o with _ | _ | _ | _ <;> simp [OpenBlock.isText, OpenBlock.kind]

theorem Closed.start {log : List Event} {s s' : ClaudeEventConverter} (h : Closed log s)
    (block : OpenBlock) (content : ContentBlock) (hindex : s'.blockIndex = s.blockIndex)
    (hblock : s'.openBlock = some block) (hnumber : block.index = s.blockIndex)
    (hkind : content.kind = block.kind) :
    Opened block.kind (log ++ [.contentBlockStart s.blockIndex content]) s' :=
  ⟨h.1.start h.2 hindex hblock hnumber hkind, by rw [hblock]; rfl⟩

/-- A part of the open block, under the number that the converter gives it. -/
theorem Opened.delta {kind : BlockKind} {log : List Event} {s : ClaudeEventConverter}
    (h : Opened kind log s) {delta : BlockDelta} (hfits : Fits kind delta) :
    Opened kind (log ++ [.contentBlockDelta (currentIndex s) delta]) s := by
  obtain ⟨_, hopen, hkind⟩ := Option.map_eq_some_iff.mp h.2
  refine ⟨?_, h.2⟩
  rw [currentIndex, hopen]
  exact h.1.delta hopen (hkind ▸ hfits)

theorem triple_startThinking : Triple Tracks startThinking fun _ => Opened .thinking := by
  refine .after_get fun s₀ => ?_
  rcases hthinking : s₀.openBlock.any OpenBlock.isThinking with _ | _
  · refine (triple_closeBlock.left).bind fun _ => ?_
    refine .after_get fun s₁ => ⟨fun log s h => ?_⟩
    obtain ⟨hclosed, rfl⟩ := h
    exact hclosed.start (.thinking _) .thinking rfl rfl rfl rfl
  · refine .of_pure fun log s h => ?_
    obtain ⟨htracks, rfl⟩ := h
    exact ⟨htracks, any_isThinking.mp hthinking⟩

theorem triple_startText : Triple Tracks startText fun _ => Opened .text := by
  refine .after_get fun s₀ => ?_
  rcases htext : s₀.openBlock.any OpenBlock.isText with _ | _
  · refine (triple_closeBlock.left).bind fun _ => ?_
    refine .after_get fun s₁ => ⟨fun log s h => ?_⟩
    obtain ⟨hclosed, rfl⟩ := h
    exact hclosed.start (.text _) .text rfl rfl rfl rfl
  · refine .of_pure fun log s h => ?_
    obtain ⟨htracks, rfl⟩ := h
    exact ⟨htracks, any_isText.mp htext⟩

theorem triple_startTool (callId name : String) (signature : Option String) :
    Triple Tracks (startTool callId name signature) fun _ => Opened .toolUse := by
  refine triple_closeBlock.bind fun _ => ?_
  refine .after_get fun s₀ => .after_get fun s₁ => ⟨fun log s h => ?_⟩
  obtain ⟨⟨hclosed, rfl⟩, rfl⟩ := h
  exact hclosed.start (.tool _ false) (.toolUse _ _ _) rfl rfl rfl rfl

/-- Arguments are told to an open call, and otherwise not at all. -/
theorem triple_emitToolArguments (arguments : String) :
    Invariant Tracks (emitToolArguments arguments) := by
  refine .after_get fun s₀ => ?_
  rcases hopen : s₀.openBlock with _ | block
  · exact .of_pure fun _ _ h => h.1
  · cases block with
    | tool index emitted =>
      refine ⟨fun log s h => ?_⟩
      obtain ⟨htracks, rfl⟩ := h
      have hfits : Fits (OpenBlock.tool index emitted).kind (.inputJson arguments) :=
        mem_cons_self
      have hlog := htracks.delta hopen hfits
      exact hlog.renote hopen rfl rfl rfl rfl
    | _ => exact .of_pure fun _ _ h => h.1

/-! ## Items -/

theorem triple_close : Invariant Tracks closeBlock := triple_closeBlock.fst

theorem triple_reasoningDone (item : Json) :
    Invariant Tracks (reasoningDone item) := by
  refine .seq (.withSome fun signature _ => .of_modify fun _ _ h => h.congr rfl rfl) fun _ => ?_
  refine .reading fun s₀ => .seq (.whenever triple_startThinking.fst) fun _ => ?_
  exact .reading fun s₁ => .whenever triple_close

theorem triple_messageDone (item : Json) : Invariant Tracks (messageDone item) := by
  refine .whenever (triple_startText.bind fun _ => .after_get fun s₀ => ?_)
  refine .bind (Q := fun _ => Tracks) (.of_emit fun log s h => ?_) fun _ => ?_
  · obtain ⟨hopened, rfl⟩ := h
    exact (hopened.delta (mem_singleton.mpr rfl)).1
  · exact .seq (.of_modify fun _ _ h => h.congr rfl rfl) fun _ => triple_close

theorem triple_startPendingTool (item : Json) :
    Invariant Tracks (startPendingTool item) := by
  refine .reading fun s₀ => .seq (.of_modify fun _ _ h => h.congr rfl rfl) fun _ => ?_
  refine .seq (triple_startTool _ _ _).fst fun _ => ?_
  exact .withSome fun arguments _ => triple_emitToolArguments arguments

theorem triple_functionCallDone (item : Json) :
    Invariant Tracks (functionCallDone item) := by
  refine .reading fun s₀ => .seq (.whenever (triple_startPendingTool item)) fun _ => ?_
  refine .reading fun s₁ => .seq (.whenever ?_) fun _ => triple_close
  exact .withSome fun arguments _ => triple_emitToolArguments arguments

/-- A search is two blocks that are closed at once. -/
theorem triple_emitWebSearch (render : Json → String) (item : Json) :
    Invariant Tracks (emitWebSearch render item) := by
  refine triple_closeBlock.bind fun _ => .after_get fun s₀ => ⟨fun log s h => ?_⟩
  obtain ⟨⟨htracks, hopen⟩, rfl⟩ := h
  have hclosed := htracks.reads
  rw [hopen] at hclosed
  have hsearch := hclosed.snoc (.start s₀.blockIndex .serverToolUse)
  have hquery (query : String) : Brackets.Step Fits s₀.blockIndex (some .serverToolUse)
      (.delta s₀.blockIndex (.inputJson query)) s₀.blockIndex (some .serverToolUse) :=
    .delta _ (mem_cons_of_mem _ mem_cons_self)
  simp only [Emit.when]
  split
  · refine ⟨?_, by simp [hopen]⟩
    have hresult (query : String) := (((hsearch.snoc (hquery query)).snoc (.stop _ _)).snoc
      (.start _ .webSearchToolResult)).snoc (.stop _ _)
    simpa [tokens, Event.token, ContentBlock.kind, hopen] using hresult _
  · refine ⟨?_, by simp [hopen]⟩
    have hresult := ((hsearch.snoc (.stop _ _)).snoc (.start _ .webSearchToolResult)).snoc
      (.stop _ _)
    simpa [tokens, Event.token, ContentBlock.kind, hopen] using hresult

theorem triple_outputItemAdded (event : Json) :
    Invariant Tracks (outputItemAdded event) := by
  unfold outputItemAdded
  dsimp only
  split
  · exact .of_modify fun _ _ h => h.congr rfl rfl
  · refine .seq triple_close fun _ => ?_
    split
    · exact .of_modify fun _ _ h => h.congr rfl rfl
    · exact (triple_startTool _ _ _).fst
  · exact .skip

theorem triple_outputItemDone (render : Json → String) (event : Json) :
    Invariant Tracks (outputItemDone render event) := by
  unfold outputItemDone
  dsimp only
  split
  · exact triple_reasoningDone _
  · exact .reading fun s₀ => .whenever (triple_messageDone _)
  · exact triple_functionCallDone _
  · exact triple_emitWebSearch render _
  · exact .skip

theorem triple_functionArguments (event : Json) (isDelta : Bool) :
    Invariant Tracks (functionArguments event isDelta) := by
  refine .reading fun s₀ => ?_
  split
  · exact .whenever (triple_emitToolArguments _)
  · exact .withSome fun pending _ => .whenever (.of_modify fun _ _ h => h.congr rfl rfl)

theorem triple_complete (event : Json) : Invariant Tracks (complete event) := by
  refine triple_closeBlock.bind fun _ => .after_get fun s₀ => ?_
  refine .bind (Q := fun _ => Closed) (.of_emit fun log s h => ⟨h.1.1.other rfl, h.1.2⟩) fun _ => ?_
  exact .of_emit fun log s h => h.1.finish h.2

theorem triple_thinkingDelta (event : Json) :
    Invariant Tracks (thinkingDelta event) := by
  refine triple_startThinking.bind fun _ => .after_get fun s₀ => .of_emit fun log s h => ?_
  obtain ⟨hopened, rfl⟩ := h
  exact (hopened.delta (mem_singleton.mpr rfl)).1

theorem triple_textDelta (event : Json) : Invariant Tracks (textDelta event) := by
  refine triple_startText.bind fun _ => .bind (Q := fun _ => Opened .text)
    (.of_modify fun _ _ h => ⟨h.1.congr rfl rfl, h.2⟩) fun _ => ?_
  refine .after_get fun s₀ => .of_emit fun log s h => ?_
  obtain ⟨hopened, rfl⟩ := h
  exact (hopened.delta (mem_singleton.mpr rfl)).1

/-! ## Every run -/

theorem triple_convert (render : Json → String) (event : Json) :
    Invariant Tracks (convert render event) := by
  unfold convert
  split
  · exact .of_emit fun _ _ h => h.other rfl
  · exact .reading fun s₀ => .of_emit fun _ _ h => h.other rfl
  · exact triple_outputItemAdded event
  · exact triple_startThinking.fst
  · exact triple_thinkingDelta event
  · exact triple_thinkingDelta event
  · split
    · exact triple_startText.fst
    · exact triple_startThinking.fst
    · exact .skip
  · exact triple_textDelta event
  · exact .whenever triple_close
  · exact triple_functionArguments event true
  · exact triple_functionArguments event false
  · exact triple_outputItemDone render event
  · exact triple_complete event
  · exact triple_complete event
  · exact .of_emit fun _ _ h => h.other rfl
  · exact .of_emit fun _ _ h => h.other rfl
  · exact .of_emit fun _ _ h => h.other rfl
  · exact .skip

/-- Whatever events come, in whatever order, the content blocks are well bracketed. -/
theorem claude_stream_bracketed (render : Json → String) (model : String)
    (toolNames : List (String × String)) (events : List Json) :
    Brackets.Bracketed Fits
      (tokens ((Emit.each (convert render) events).events { model, toolNames })) := by
  have hstart : Tracks [] { model, toolNames } := ⟨.nil, by rintro _ ⟨⟩⟩
  have hrun := (Triple.each (triple_convert render) events).run [] _ hstart
  exact hrun.reads.bracketed

end ProviderCore.Protocol.Claude
