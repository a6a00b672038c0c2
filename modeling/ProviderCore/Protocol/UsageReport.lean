import ProviderCore.Protocol.UsageFacts

/-!
# The observer is invisible and reports once

What the observer should do is said here without its state: the frames that the decoder hands out
of the items read so far (`deliveredFrames`), the last usage among them and the terminals among
them.  `Read` ties the observer's state to these, poll by poll, for any extractor; the frames that
the extractors recognise are those of `extractFacts_recognises`.
-/

namespace ProviderCore.Protocol

open List
open Usage (RawUsageFields)

/-- The attempt is told how the response ended. -/
def AttemptCall.isReport : AttemptCall → Bool
  | .successTerminalObserved | .finished _ | .cancelled _ => true
  | .providerModelObserved _ | .firstTokenObserved | .observationLost => false

/-! ## What the frames say -/

/-- The frames that a decoder hands out of some items, and what becomes of it. -/
def decoded (d : SseDecoder) : List StreamItem → List Bytes × SseDecoder
  | [] => ([], d)
  | .error _ :: items => decoded d items
  | .ok chunk :: items =>
    let (d, frames) := d.push chunk
    let (rest, d) := decoded d items
    (frames.toOption.getD [] ++ rest, d)

/-- The frames delivered to an observer that was polled `n` times: at the end of the stream also the
unterminated last one. -/
def deliveredFrames (n : ℕ) (upstream : List StreamItem) : List Bytes :=
  let (frames, d) := decoded {} (upstream.take n)
  frames ++ if upstream.length < n then d.finish.toList else []

section

variable (extractor : Bytes → Option ObservedFrame)

/-- The usage of the last frame that has any. -/
def lastUsage (frames : List Bytes) : Option RawUsageFields :=
  frames.foldl (fun last frame => ((extractor frame).bind (·.fields)).or last) none

def terminalOf (frame : Bytes) : Option Bool := (extractor frame).bind (·.successfulTerminal)

/-- What the terminals prove together. -/
def verdict (frames : List Bytes) : Option Bool :=
  frames.foldl (fun before frame =>
    UsageObservingStream.terminalAfter before (terminalOf extractor frame)) none

end

/-! ## Frame by frame -/

theorem decoded_append (d : SseDecoder) (items items' : List StreamItem) :
    decoded d (items ++ items') =
      ((decoded d items).1 ++ (decoded (decoded d items).2 items').1,
        (decoded (decoded d items).2 items').2) := by
  induction items generalizing d with
  | nil => rfl
  | cons item _ ih =>
    cases item with
    | error => exact ih d
    | ok => simp [decoded, ih]

namespace UsageObservingStream

section

variable {extractor : Bytes → Option ObservedFrame} {frames : List Bytes} {frame : Bytes}

theorem lastUsage_append_singleton :
    lastUsage extractor (frames ++ [frame]) =
      ((extractor frame).bind (·.fields)).or (lastUsage extractor frames) :=
  foldl_concat ..

theorem verdict_append_singleton :
    verdict extractor (frames ++ [frame]) =
      terminalAfter (verdict extractor frames) (terminalOf extractor frame) :=
  foldl_concat ..

/-- The verdict is success where some terminal proves it and none a failure. -/
theorem verdict_eq (extractor : Bytes → Option ObservedFrame) (frames : List Bytes) :
    (verdict extractor frames = some true ↔
      (∃ frame ∈ frames, terminalOf extractor frame = some true) ∧
        ¬∃ frame ∈ frames, terminalOf extractor frame = some false) ∧
    ((verdict extractor frames).isSome = true ↔
      (∃ frame ∈ frames, terminalOf extractor frame = some true) ∨
        ∃ frame ∈ frames, terminalOf extractor frame = some false) := by
  induction frames using reverseRecOn with
  | nil => simp [verdict]
  | append_singleton frames frame ih =>
    have hmem (b : Bool) : (∃ f ∈ frames ++ [frame], terminalOf extractor f = some b) ↔
        (∃ f ∈ frames, terminalOf extractor f = some b) ∨ terminalOf extractor frame = some b := by
      simp [or_and_right, exists_or]
    rw [verdict_append_singleton, hmem, hmem]
    generalize (∃ f ∈ frames, terminalOf extractor f = some true) = success at ih ⊢
    generalize (∃ f ∈ frames, terminalOf extractor f = some false) = failure at ih ⊢
    generalize verdict extractor frames = before at ih ⊢
    rcases terminalOf extractor frame with _ | _ | _ <;> rcases before with _ | _ | _ <;>
      simp [terminalAfter] at ih ⊢ <;> tauto

/-! ## Poll by poll -/

/-- The observer has read these frames and not reported yet. -/
structure Read (extractor : Bytes → Option ObservedFrame) (frames : List Bytes)
    (s : UsageObservingStream) : Prop where
  attempt : s.attempt = true
  latest : s.latest = lastUsage extractor frames
  terminal : s.successfulTerminal = verdict extractor frames

/-- Calls that come before the report. -/
def Quiet (calls : List AttemptCall) : Prop := ∀ call ∈ calls, call.isReport = false

theorem Quiet.append {calls calls' : List AttemptCall} (h : Quiet calls) (h' : Quiet calls') :
    Quiet (calls ++ calls') := fun call hcall =>
  (mem_append.mp hcall).elim (h call) (h' call)

/-- What inspection leaves alone. -/
def SameStream (s s' : UsageObservingStream) : Prop :=
  s'.decoder = s.decoder ∧ s'.upstreamDone = s.upstreamDone ∧ s'.blind = s.blind

variable {s : UsageObservingStream}

theorem Read.inspectFrame (h : Read extractor frames s) (frame : Bytes) :
    Read extractor (frames ++ [frame]) (s.inspectFrame extractor frame).1 ∧
      Quiet (s.inspectFrame extractor frame).2 ∧
      SameStream s (s.inspectFrame extractor frame).1 := by
  unfold UsageObservingStream.inspectFrame
  rcases hobserved : extractor frame with _ | observed
  · refine ⟨⟨h.attempt, ?_, ?_⟩, fun call hcall => (by cases hcall), rfl, rfl, rfl⟩
    · rw [lastUsage_append_singleton, hobserved, h.latest]
      rfl
    · rw [verdict_append_singleton, terminalOf, hobserved, h.terminal]
      rfl
  · refine ⟨⟨h.attempt, ?_, ?_⟩, fun call hcall => ?_, rfl, rfl, rfl⟩
    · rw [lastUsage_append_singleton, hobserved, Option.bind_some, ← h.latest]
    · rw [verdict_append_singleton, terminalOf, hobserved, Option.bind_some, ← h.terminal]
    · dsimp only at hcall
      rw [if_pos h.attempt, mem_append] at hcall
      rcases hcall with hcall | hcall
      · obtain ⟨_, -, rfl⟩ := by simpa using hcall
        rfl
      · split at hcall
        · obtain rfl := mem_singleton.mp hcall
          rfl
        · cases hcall

theorem Read.inspectFrames (h : Read extractor frames s) (more : List Bytes) :
    Read extractor (frames ++ more) (s.inspectFrames extractor more).1 ∧
      Quiet (s.inspectFrames extractor more).2 ∧
      SameStream s (s.inspectFrames extractor more).1 := by
  induction more generalizing frames s with
  | nil => exact ⟨by rwa [append_nil], fun call hcall => (by cases hcall), rfl, rfl, rfl⟩
  | cons frame _ ih =>
    obtain ⟨hread, hcalls, hsame⟩ := h.inspectFrame frame
    obtain ⟨hrest, hmore, hsameRest⟩ := ih hread
    refine ⟨by rwa [append_assoc] at hrest, hcalls.append hmore, ?_⟩
    exact ⟨hsameRest.1.trans hsame.1, hsameRest.2.1.trans hsame.2.1,
      hsameRest.2.2.trans hsame.2.2⟩

/-- The observer after the items read so far, none of them the end. -/
structure Reading (extractor : Bytes → Option ObservedFrame) (items : List StreamItem)
    (s : UsageObservingStream) : Prop where
  read : Read extractor (decoded {} items).1 s
  decoder : s.decoder = (decoded {} items).2
  upstream : s.upstreamDone = false
  /-- A blind observer misses nothing: the decoder hands out no more frames. -/
  blind : s.blind = true → s.decoder.overflowed = true

theorem reading_nil : Reading extractor [] {} := ⟨⟨rfl, rfl, rfl⟩, rfl, rfl, fun h => (by cases h)⟩

variable {d : SseDecoder}

theorem push_of_overflowed (h : d.overflowed = true) (chunk : Bytes) :
    d.push chunk = (d, .error {}) := by
  rw [SseDecoder.push, if_pos h]

theorem overflowed_of_push {chunk : Bytes}
    (h : (d.push chunk).2 = .error {}) : (d.push chunk).1.overflowed = true := by
  unfold SseDecoder.push at h ⊢
  dsimp only at h ⊢
  split
  · assumption
  · split
    · rfl
    · rename_i hopen hfits
      rw [if_neg hopen, if_neg hfits] at h
      cases h

variable {items : List StreamItem}

theorem Reading.inspect (h : Reading extractor items s) (chunk : Bytes) :
    Reading extractor (items ++ [.ok chunk]) (s.inspect extractor chunk).1 ∧
      Quiet (s.inspect extractor chunk).2 := by
  have hdecoded : decoded {} (items ++ [.ok chunk]) =
      ((decoded {} items).1 ++ (s.decoder.push chunk).2.toOption.getD [],
        (s.decoder.push chunk).1) := by
    rw [decoded_append, ← h.decoder]
    simp [decoded]
  unfold UsageObservingStream.inspect
  split
  · rename_i hblind
    rw [push_of_overflowed (h.blind hblind)] at hdecoded
    refine ⟨⟨?_, ?_, h.upstream, h.blind⟩, fun call hcall => (by cases hcall)⟩
    · rw [hdecoded]
      simpa [Except.toOption] using h.read
    · rw [hdecoded]
  · rename_i hsees
    rcases hpush : s.decoder.push chunk with ⟨d, _ | frames⟩
    · have hover : (s.decoder.push chunk).1.overflowed = true :=
        overflowed_of_push (by rw [hpush])
      rw [hpush] at hdecoded hover
      refine ⟨⟨?_, ?_, h.upstream, fun _ => hover⟩, fun call hcall => ?_⟩
      · rw [hdecoded]
        have hread := h.read
        exact ⟨hread.attempt, by simpa [Except.toOption] using hread.latest,
          by simpa [Except.toOption] using hread.terminal⟩
      · rw [hdecoded]
      · rw [if_pos h.read.attempt] at hcall
        obtain rfl := mem_singleton.mp hcall
        rfl
    · rw [hpush] at hdecoded
      have hread : Read extractor (decoded {} items).1 { s with decoder := d } :=
        ⟨h.read.attempt, h.read.latest, h.read.terminal⟩
      obtain ⟨hall, hquiet, hsame⟩ := hread.inspectFrames frames
      refine ⟨⟨?_, ?_, ?_, ?_⟩, hquiet⟩
      · rw [hdecoded]
        exact hall
      · rw [hdecoded]
        exact hsame.1
      · exact hsame.2.1.trans h.upstream
      · intro hblind
        rw [show _ = s.blind from hsame.2.2] at hblind
        exact absurd hblind hsees

theorem Reading.nextItem (h : Reading extractor items s) (item : StreamItem) :
    Reading extractor (items ++ [item]) (s.nextItem extractor (some item)).1 ∧
      Quiet (s.nextItem extractor (some item)).2.1 ∧
      (s.nextItem extractor (some item)).2.2 = some item := by
  unfold UsageObservingStream.nextItem
  rw [if_neg (by simp [h.upstream])]
  cases item with
  | error e =>
    have hdecoded : decoded {} (items ++ [.error e]) = decoded {} items := by
      simp [decoded_append, decoded]
    refine ⟨⟨?_, ?_, h.upstream, h.blind⟩, fun call hcall => (by cases hcall), rfl⟩
    · rw [hdecoded]
      exact h.read
    · rw [hdecoded]
      exact h.decoder
  | ok chunk =>
    obtain ⟨hreading, hquiet⟩ := h.inspect chunk
    exact ⟨hreading, hquiet, rfl⟩

/-- The calls with which the attempt is told: success first, if it was proved. -/
def reportCalls (extractor : Bytes → Option ObservedFrame) (frames : List Bytes)
    (ended : Bool) : List AttemptCall :=
  (if verdict extractor frames = some true then [.successTerminalObserved] else []) ++
    [if ended || (verdict extractor frames).isSome then .finished (lastUsage extractor frames)
      else .cancelled (lastUsage extractor frames)]

theorem Read.reportFinished (h : Read extractor frames s) :
    s.reportFinished.2 = reportCalls extractor frames true ∧
      s.reportFinished.1.attempt = false := by
  unfold UsageObservingStream.reportFinished reportCalls
  rw [if_pos h.attempt, h.latest, h.terminal]
  exact ⟨rfl, rfl⟩

theorem Read.reportCancelled (h : Read extractor frames s) :
    s.reportCancelled.2 = reportCalls extractor frames false := by
  unfold UsageObservingStream.reportCancelled reportCalls
  rw [if_pos h.attempt, h.latest, h.terminal]
  rcases verdict extractor frames with _ | _ | _ <;> rfl

theorem reportFinished_upstreamDone (s : UsageObservingStream) :
    s.reportFinished.1.upstreamDone = s.upstreamDone := by
  unfold UsageObservingStream.reportFinished
  split <;> rfl

/-- At the end of the upstream the attempt is told. -/
theorem Reading.nextItem_end (h : Reading extractor items s) :
    (s.nextItem extractor none).1.attempt = false ∧
      (s.nextItem extractor none).1.upstreamDone = true ∧
      (s.nextItem extractor none).2.2 = none ∧
      ∃ observed, Quiet observed ∧ (s.nextItem extractor none).2.1 =
        observed ++ reportCalls extractor
          ((decoded {} items).1 ++ (decoded {} items).2.finish.toList) true := by
  unfold UsageObservingStream.nextItem
  rw [if_neg (by simp [h.upstream])]
  have hread : Read extractor (decoded {} items).1 { s with upstreamDone := true } :=
    ⟨h.read.attempt, h.read.latest, h.read.terminal⟩
  obtain ⟨hall, hquiet, hsame⟩ := hread.inspectFrames s.decoder.finish.toList
  obtain ⟨hcalls, htold⟩ := hall.reportFinished
  refine ⟨htold, ?_, rfl, _, hquiet, ?_⟩
  · exact (reportFinished_upstreamDone _).trans hsame.2.1
  · rw [← h.decoder]
    exact congrArg _ hcalls

/-- A finished observer does nothing any more. -/
theorem polls_done (h : s.upstreamDone = true) (n : ℕ)
    (upstream : List StreamItem) : polls extractor n upstream s = (s, ⟨[], []⟩) := by
  induction n generalizing upstream with
  | zero => rfl
  | succ _ ih => simp [polls, UsageObservingStream.nextItem, h, ih]

variable {upstream : List StreamItem}

/-- Polls that do not reach the end hand out the items as they come. -/
theorem Reading.polls_take (h : Reading extractor items s) {n : ℕ} (hn : n ≤ upstream.length) :
    Reading extractor (items ++ upstream.take n) (polls extractor n upstream s).1 ∧
      (polls extractor n upstream s).2.delivered = upstream.take n ∧
      Quiet (polls extractor n upstream s).2.calls := by
  induction n generalizing items s upstream with
  | zero =>
    rw [take_zero, append_nil]
    exact ⟨h, rfl, fun call hcall => by cases hcall⟩
  | succ _ ih =>
    cases upstream with
    | nil => cases hn
    | cons item =>
      obtain ⟨hreading, hquiet, hitem⟩ := h.nextItem item
      obtain ⟨hrest, hdelivered, hcalls⟩ := ih hreading (Nat.le_of_succ_le_succ hn)
      simp only [polls, List.head?_cons, tail_cons, take_succ_cons]
      refine ⟨by simpa using hrest, ?_, hquiet.append hcalls⟩
      rw [hitem, hdelivered]
      rfl

/-- Polls that reach the end tell the attempt. -/
theorem Reading.polls_end (h : Reading extractor items s) {n : ℕ} (hn : upstream.length < n) :
    (polls extractor n upstream s).1.attempt = false ∧
      (polls extractor n upstream s).2.delivered = upstream ∧
      ∃ observed, Quiet observed ∧ (polls extractor n upstream s).2.calls =
        observed ++ reportCalls extractor ((decoded {} (items ++ upstream)).1 ++
          (decoded {} (items ++ upstream)).2.finish.toList) true := by
  induction n generalizing items s upstream with
  | zero => cases hn
  | succ _ ih =>
    cases upstream with
    | nil =>
      obtain ⟨htold, hdone, hitem, observed, hquiet, hcalls⟩ := h.nextItem_end
      simp only [polls, List.head?_nil, tail_nil, polls_done hdone]
      refine ⟨htold, ?_, observed, hquiet, ?_⟩
      · rw [hitem]
        rfl
      · rw [append_nil, append_nil]
        exact hcalls
    | cons item =>
      obtain ⟨hreading, hquiet, hitem⟩ := h.nextItem item
      obtain ⟨htold, hdelivered, _, hobserved, hcalls⟩ :=
        ih hreading (Nat.lt_of_succ_lt_succ hn)
      simp only [polls, List.head?_cons, tail_cons]
      refine ⟨htold, ?_, _, hquiet.append hobserved, ?_⟩
      · rw [hitem, hdelivered]
        rfl
      · rw [hcalls, append_assoc, append_assoc]
        simp

/-- A session delivers the upstream's items and ends with one report. -/
theorem session_eq (extractor : Bytes → Option ObservedFrame) (n : ℕ) (upstream : List StreamItem) :
    (session extractor n upstream).delivered = upstream.take n ∧
      ∃ observed, Quiet observed ∧ (session extractor n upstream).calls =
        observed ++ reportCalls extractor (deliveredFrames n upstream)
          (decide (upstream.length < n)) := by
  have hnil : Reading extractor [] {} := reading_nil
  unfold session deliveredFrames
  dsimp only
  rcases lt_or_ge upstream.length n with hn | hn
  · obtain ⟨htold, hdelivered, observed, hquiet, hcalls⟩ := hnil.polls_end hn
    refine ⟨hdelivered.trans (take_of_length_le hn.le).symm, observed, hquiet, ?_⟩
    rw [hcalls, take_of_length_le hn.le, if_pos hn, decide_eq_true hn,
      UsageObservingStream.reportCancelled, if_neg (by simp [htold]), append_nil]
    rfl
  · obtain ⟨hreading, hdelivered, hquiet⟩ := hnil.polls_take hn
    refine ⟨hdelivered, _, hquiet, ?_⟩
    rw [hreading.read.reportCancelled, if_neg (not_lt.mpr hn), append_nil,
      decide_eq_false (not_lt.mpr hn)]
    rfl

end

/-- The usage of the last frame that bears any. -/
def LastUsage (bears : Bytes → RawUsageFields → Prop) (frames : List Bytes) :
    Option RawUsageFields → Prop
  | none => ∀ frame ∈ frames, ∀ fields, ¬bears frame fields
  | some fields => ∃ before frame after, frames = before ++ frame :: after ∧ bears frame fields ∧
      ∀ later ∈ after, ∀ fields, ¬bears later fields

theorem lastUsage_spec {extractor : Bytes → Option ObservedFrame}
    {bears : Bytes → RawUsageFields → Prop}
    (hbears : ∀ frame fields, (extractor frame).bind (·.fields) = some fields ↔ bears frame fields)
    (frames : List Bytes) : LastUsage bears frames (lastUsage extractor frames) := by
  induction frames using reverseRecOn with
  | nil => exact fun frame hframe => by cases hframe
  | append_singleton frames frame ih =>
    rw [lastUsage_append_singleton]
    rcases hfields : (extractor frame).bind (·.fields) with _ | fields
    · have hnone (fields : RawUsageFields) : ¬bears frame fields := by
        rw [← hbears, hfields]
        nofun
      rw [Option.none_or]
      rcases hlast : lastUsage extractor frames with _ | fields
      · rw [hlast] at ih
        exact forall_mem_append.mpr ⟨ih, forall_mem_singleton.mpr hnone⟩
      · rw [hlast] at ih
        obtain ⟨before, frame', after, rfl, hframe', hafter⟩ := ih
        exact ⟨before, frame', after ++ [frame], by simp, hframe',
          forall_mem_append.mpr ⟨hafter, forall_mem_singleton.mpr hnone⟩⟩
    · exact ⟨frames, frame, [], rfl, (hbears frame fields).mp hfields, nofun⟩

end UsageObservingStream

end ProviderCore.Protocol
