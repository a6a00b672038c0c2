import ProviderCore.Protocol.OpenAiResponses.Response

/-!
# Adapting a Chat Completions stream

This adapter reads the upstream as the others do, but it stops at a frame that is no JSON and at the
end it completes the response, or reports that the upstream ended too early.

What the client gets is a function of the frames and the failure of the upstream, as it is for the
other adapters (`reads_iff`).
-/

namespace ProviderCore.Protocol.OpenAiResponses

open Emit (emit SameAt)

abbrev Item := ClientItem NumberedEvent

/-- What frames act on: the converter, and whether the upstream is read any further. -/
structure Reading where
  converter : ChatEventConverter
  upstreamDone : Bool := false

structure ChatStreamAdapter where
  upstream : List StreamItem
  decoder : SseDecoder := {}
  reading : Reading
  output : List Item := []

def invalidChunkError : ProviderError :=
  ⟨.upstream, "Chat Completions upstream returned an invalid SSE JSON event", none⟩

def endedEarlyError : ProviderError :=
  ⟨.upstream, "Chat Completions upstream ended without a terminal event", none⟩

/-- A computation of the converter within the adapter. -/
def converting (f : Convert Unit) : Emit Reading Item Unit := fun r =>
  ((), { r with converter := f.state r.converter }, (f.events r.converter).map .ok)

@[simp] theorem state_converting (f : Convert Unit) (r : Reading) :
    (converting f).state r = { r with converter := f.state r.converter } := rfl

@[simp] theorem events_converting (f : Convert Unit) (r : Reading) :
    (converting f).events r = (f.events r.converter).map .ok := rfl

section

variable (parse : Bytes → Option Json)

def giveUp : Emit Reading Item Unit := do
  modify fun r => { converter := { r.converter with terminal := true }, upstreamDone := true }
  emit (.error invalidChunkError)

def convertFrame (frame : Bytes) : Emit Reading Item Unit := do
  let s := (← get).converter
  if s.terminal then return
  if frame = doneMark then
    if s.finishReason.isSome then converting (complete parse)
    else converting (fail "Chat Completions upstream ended without a finish_reason")
  else
    match parse frame with
    | some event => converting (convert parse event)
    | none => giveUp

def finishStream : Emit Reading Item Unit := do
  let s := (← get).converter
  if s.terminal then return
  if s.finishReason.isSome then converting (complete parse) else emit (.error endedEarlyError)

namespace ChatStreamAdapter

def run (adapter : ChatStreamAdapter) (f : Emit Reading Item Unit) : ChatStreamAdapter :=
  { adapter with
    reading := f.state adapter.reading
    output := adapter.output ++ f.events adapter.reading }

def finish (adapter : ChatStreamAdapter) : ChatStreamAdapter :=
  { adapter with reading := { adapter.reading with upstreamDone := true } }

def nextOutput (adapter : ChatStreamAdapter) : Option (Item × ChatStreamAdapter) :=
  match adapter.output with
  | item :: output => some (item, { adapter with output })
  | [] =>
    if adapter.reading.upstreamDone then none
    else
      match _hup : adapter.upstream with
      | .ok chunk :: upstream =>
        match adapter.decoder.push chunk with
        | (decoder, .ok frames) =>
          nextOutput ({ adapter with upstream, decoder }.run
            (Emit.each (convertFrame parse) frames))
        | (decoder, .error _) =>
          some (.error frameTooLargeError, { adapter with upstream, decoder }.finish)
      | .error e :: upstream => some (.error e, { adapter with upstream }.finish)
      | [] =>
        let adapter := adapter.run do
          Emit.each (convertFrame parse) adapter.decoder.finish.toList
          finishStream parse
        nextOutput adapter.finish
termination_by if adapter.reading.upstreamDone then 0 else adapter.upstream.length + 1
decreasing_by
  · simp_all [run]
    grind
  · simp_all [run, finish]

def start (converter : ChatEventConverter) (upstream : List StreamItem) : ChatStreamAdapter :=
  { upstream, reading := { converter } }

end ChatStreamAdapter

/-! ## What is read -/

def answered (r : Reading) (d : SseDecoder) : List StreamItem → List Item
  | [] => (do
      Emit.each (convertFrame parse) d.finish.toList
      finishStream parse : Emit Reading Item Unit).events r
  | .error e :: _ => [.error e]
  | .ok chunk :: upstream =>
    match d.push chunk with
    | (d, .ok frames) =>
      let conversion := Emit.each (convertFrame parse) frames
      conversion.events r ++
        if (conversion.state r).upstreamDone then []
        else answered (conversion.state r) d upstream
    | (_, .error _) => [.error frameTooLargeError]

/-- What is still to come of an adapter. -/
def ChatStreamAdapter.coming (adapter : ChatStreamAdapter) : List Item :=
  adapter.output ++ if adapter.reading.upstreamDone then []
    else answered parse adapter.reading adapter.decoder adapter.upstream

namespace ChatStreamAdapter

variable {parse}

theorem coming_nextOutput (adapter : ChatStreamAdapter) :
    coming parse adapter =
      (nextOutput parse adapter).elim [] fun read => read.1 :: coming parse read.2 := by
  fun_induction nextOutput parse adapter with
  | case1 adapter item output houtput => simp [coming, houtput]
  | case2 adapter houtput hdone => simp [coming, houtput, hdone]
  | case3 adapter houtput hdone chunk upstream hup decoder frames hpush ih =>
    rw [← ih]
    simp [coming, run, answered, houtput, hdone, hup, hpush]
  | case4 adapter houtput hdone chunk upstream hup decoder e hpush =>
    simp [coming, finish, answered, houtput, hdone, hup, hpush]
  | case5 adapter houtput hdone e upstream hup =>
    simp [coming, finish, answered, houtput, hdone, hup]
  | case6 adapter houtput hdone hup ended ih =>
    rw [← ih]
    simp [ended, coming, run, finish, answered, hdone, hup]

theorem foretells : Unfold.Foretells (nextOutput parse) (coming parse) :=
  .of_elim coming_nextOutput

end ChatStreamAdapter

/-! ## Frames and failure -/

/-- What comes after the frames. -/
def closing (r : Reading) (failure : Option ProviderError) : List Item :=
  if r.upstreamDone then []
  else
    match failure with
    | some e => [.error e]
    | none => (finishStream parse).events r

/-- The adapter after some frames. -/
def readingAfter (r : Reading) (frames : List Bytes) : Reading :=
  (Emit.each (convertFrame parse) frames).state r

/-- What the client is told: the frames converted, and the end. -/
def told (converter : ChatEventConverter) (upstream : List StreamItem) : List Item :=
  (Emit.each (convertFrame parse) (received {} upstream).1).events { converter } ++
    closing parse (readingAfter parse { converter } (received {} upstream).1)
      (received {} upstream).2

variable {r : Reading}

/-- Nothing is said after a terminal. -/
theorem convertFrame_of_terminal (h : r.converter.terminal = true) (frame : Bytes) :
    (convertFrame parse frame).state r = r ∧ (convertFrame parse frame).events r = [] := by
  simp [convertFrame, h]

theorem each_of_terminal (h : r.converter.terminal = true) (frames : List Bytes) :
    (Emit.each (convertFrame parse) frames).state r = r ∧
      (Emit.each (convertFrame parse) frames).events r = [] := by
  induction frames with
  | nil => exact ⟨rfl, rfl⟩
  | cons frame _ ih =>
    obtain ⟨hstate, hevents⟩ := convertFrame_of_terminal parse h frame
    simp [hstate, hevents, ih]

/-- What a frame does before any terminal. -/
theorem convertFrame_cases (h : r.converter.terminal = false) (frame : Bytes) :
    (frame = doneMark ∧ r.converter.finishReason.isSome = true ∧
        (convertFrame parse frame).SameAt (converting (complete parse)) r) ∨
      (frame = doneMark ∧ r.converter.finishReason = none ∧
        (convertFrame parse frame).SameAt
          (converting (fail "Chat Completions upstream ended without a finish_reason")) r) ∨
      (frame ≠ doneMark ∧ ∃ event, parse frame = some event ∧
        (convertFrame parse frame).SameAt (converting (convert parse event)) r) ∨
      frame ≠ doneMark ∧ parse frame = none ∧
        (convertFrame parse frame).SameAt giveUp r := by
  by_cases hdone : frame = doneMark
  · rcases hreason : r.converter.finishReason with _ | reason
    · exact .inr (.inl ⟨hdone, rfl, by simp [SameAt, convertFrame, h, hdone, hreason]⟩)
    · exact .inl ⟨hdone, rfl, by simp [SameAt, convertFrame, h, hdone, hreason]⟩
  · rcases hparse : parse frame with _ | event
    · exact .inr (.inr (.inr ⟨hdone, rfl, by simp [SameAt, convertFrame, h, hdone, hparse]⟩))
    · exact .inr (.inr (.inl ⟨hdone, event, rfl, by
        simp [SameAt, convertFrame, h, hdone, hparse]⟩))

/-- The upstream is given up only after a terminal. -/
def GivenUp (r : Reading) : Prop := r.upstreamDone = true → r.converter.terminal = true

theorem givenUp_convertFrame (h : GivenUp r) (frame : Bytes) :
    GivenUp ((convertFrame parse frame).state r) := by
  by_cases hterminal : r.converter.terminal = true
  · rw [(convertFrame_of_terminal parse hterminal frame).1]
    exact h
  · have hreading : r.upstreamDone = false := by simpa using mt h hterminal
    rw [Bool.not_eq_true] at hterminal
    obtain ⟨-, -, heq⟩ | ⟨-, -, heq⟩ | ⟨-, event, -, heq⟩ | ⟨-, -, heq⟩ :=
      convertFrame_cases parse hterminal frame
    all_goals
      rw [heq.1]
      simp [GivenUp, giveUp, hreading]

theorem givenUp_each (h : GivenUp r) (frames : List Bytes) :
    GivenUp (readingAfter parse r frames) := by
  induction frames generalizing r with
  | nil => exact h
  | cons frame _ ih => exact ih (givenUp_convertFrame parse h frame)

theorem answered_eq (hup : GivenUp r) (hreading : r.upstreamDone = false)
    (d : SseDecoder) (upstream : List StreamItem) :
    answered parse r d upstream =
      (Emit.each (convertFrame parse) (received d upstream).1).events r ++
        closing parse (readingAfter parse r (received d upstream).1) (received d upstream).2 := by
  induction upstream generalizing r d with
  | nil =>
    have hend := givenUp_each parse hup d.finish.toList
    by_cases hdone : (readingAfter parse r d.finish.toList).upstreamDone = true
    · have hsilent : (finishStream parse).events (readingAfter parse r d.finish.toList) = [] := by
        simp [finishStream, hend hdone]
      simp only [answered, received, closing, Emit.events_bind, hdone, if_pos]
      exact congrArg _ hsilent
    · simp only [answered, received, closing, Emit.events_bind, hdone]
      rfl
  | cons item upstream ih =>
    cases item with
    | error => simp [answered, received, closing, readingAfter, hreading]
    | ok chunk =>
      rcases hpush : d.push chunk with ⟨d', e | frames⟩
      · simp [answered, received, closing, readingAfter, hpush, hreading]
      · have hgiven := givenUp_each parse hup frames
        simp only [answered, received, hpush, readingAfter, Emit.events_each_append,
          Emit.state_each_append, List.append_assoc]
        by_cases hdone : (readingAfter parse r frames).upstreamDone = true
        · obtain ⟨hstate, hevents⟩ :=
            each_of_terminal parse (hgiven hdone) (received d' upstream).1
          unfold readingAfter at hdone hstate hevents
          rw [if_pos hdone, hstate, hevents]
          simp [closing, hdone]
        · have hgo : (readingAfter parse r frames).upstreamDone = false := by simpa using hdone
          unfold readingAfter at hdone
          rw [if_neg hdone]
          exact congrArg _ (ih hgiven hgo d')

/-- Reading an adapter to its end. -/
theorem ChatStreamAdapter.reads_iff {converter : ChatEventConverter} {upstream : List StreamItem}
    {items : List Item} :
    Unfold.Reads (nextOutput parse) (start converter upstream) items ↔
      items = told parse converter upstream := by
  have hcoming : coming parse (start converter upstream) = told parse converter upstream :=
    answered_eq parse (fun h => by cases h) rfl {} upstream
  rw [foretells.reads_iff, hcoming]

end

end ProviderCore.Protocol.OpenAiResponses
