import ProviderCore.Antigravity.Response
import ProviderCore.Antigravity.Sse
import ProviderCore.Protocol.StreamAdapter

/-!
# The Antigravity stream

The stream waits for the upstream only when it has nothing to hand out.  A wait ends with a chunk,
an error of the upstream or a timeout.  A failure is told as an event and then as an error, and
nothing is read after it.

What is read is a function of what arrives (`reads_iff`): the events of each arrival, up to the
one that ends the reading, and then the error that is left.
-/

namespace ProviderCore.Antigravity

open Protocol (Arrival ClientItem NumberedEvent)

abbrev Item := ClientItem NumberedEvent

/-- What the frames act on. -/
structure Reading where
  state : ResponseState
  eof : Bool := false
  terminalError : Option ProviderError := none

abbrev Read := Emit Reading NumberedEvent

def oversizedError : ProviderError :=
  ⟨.upstream, "Antigravity upstream sent an oversized event", none⟩

def endedError : ProviderError :=
  ⟨.upstream, "Antigravity upstream stream ended before a terminal finishReason", none⟩

def idleError : ProviderError :=
  ⟨.upstream, "Antigravity upstream stream idle timeout", some .capacityExhausted⟩

def invalidJsonError : ProviderError :=
  ⟨.upstream, "Antigravity upstream returned invalid JSON", none⟩

/-- A conversion within the stream. -/
def converting {α : Type} (f : Convert α) : Read α := fun r =>
  (f.result r.state, { r with state := f.state r.state }, f.events r.state)

section

variable {α : Type} (f : Convert α) (r : Reading)

@[simp] theorem result_converting : (converting f).result r = f.result r.state := rfl

@[simp] theorem state_converting : (converting f).state r = { r with state := f.state r.state } :=
  rfl

@[simp] theorem events_converting : (converting f).events r = f.events r.state := rfl

end

/-! ## Frames -/

/-- An error that comes after the end is the last one told. -/
def fail (error : ProviderError) : Read Unit := do
  let completed := (← get).state.completed
  converting (failResponse error.message)
  modify fun r => { r with
    terminalError := if completed then some error else r.terminalError.or (some error)
    eof := true }

section

variable (codec : Codec)

def processFrame (frame : Bytes) : Read (Option ProviderError) :=
  match frameData frame with
  | none => pure none
  | some payload =>
    match codec.parse payload with
    | none => pure (some invalidJsonError)
    | some value => converting (processPayload codec value)

/-- The frames of a chunk, up to the first that fails. -/
def processFrames : List Bytes → Read Unit
  | [] => pure ()
  | frame :: frames => do
      match ← processFrame codec frame with
      | some error => fail error
      | none => processFrames frames

def finishStream (last : Option Bytes) : Read Unit := do
  processFrames codec last.toList
  let r ← get
  Emit.when (!r.state.completed && r.terminalError.isNone) (fail endedError)
  modify ({ · with eof := true })

def receive (decoder : SseDecoder) : Arrival → SseDecoder × Read Unit
  | .chunk bytes =>
    match decoder.push bytes with
    | (decoder, some frames) => (decoder, processFrames codec frames)
    | (decoder, none) => (decoder, fail oversizedError)
  | .error error => (decoder, fail error)
  | .timeout => (decoder, fail idleError)

/-! ## The stream -/

structure ResponseStream where
  upstream : List Arrival
  decoder : SseDecoder := {}
  reading : Reading
  ready : List NumberedEvent := []

namespace ResponseStream

def run (stream : ResponseStream) (f : Read Unit) : ResponseStream :=
  { stream with
    reading := f.state stream.reading
    ready := stream.ready ++ f.events stream.reading }

def nextOutput (stream : ResponseStream) : Option (Item × ResponseStream) :=
  match stream.ready with
  | event :: ready => some (.ok event, { stream with ready })
  | [] =>
    if stream.reading.eof then
      stream.reading.terminalError.map fun error =>
        (.error error, { stream with reading := { stream.reading with terminalError := none } })
    else
      match _hup : stream.upstream with
      | arrival :: upstream =>
        let (decoder, f) := receive codec stream.decoder arrival
        nextOutput ({ stream with upstream, decoder }.run f)
      | [] =>
        nextOutput (stream.run (finishStream codec stream.decoder.finish))
termination_by if stream.reading.eof then 0 else stream.upstream.length + 1
decreasing_by
  · simp_all [run]
    grind
  · simp_all [run, finishStream]

def translate (model responseId : String) (toolIdentities : List (String × ToolIdentity))
    (upstream : List Arrival) : ResponseStream :=
  { upstream
    reading := {
      state := {
        model
        targetClaude := "claude".toList <:+: model.toList.map Char.toLower
        toolIdentities
        responseId } } }

end ResponseStream

/-! ## What is read -/

/-- The error that is left at the end. -/
def Reading.lastItems (r : Reading) : List Item := r.terminalError.toList.map .error

/-- What the client gets of an upstream. -/
def answered (r : Reading) (d : SseDecoder) : List Arrival → List Item
  | [] =>
    let f := finishStream codec d.finish
    (f.events r).map .ok ++ (f.state r).lastItems
  | arrival :: upstream =>
    let f := (receive codec d arrival).2
    (f.events r).map .ok ++ if (f.state r).eof then (f.state r).lastItems
      else answered (f.state r) (receive codec d arrival).1 upstream

namespace ResponseStream

variable {codec}

/-- What is still to come. -/
def coming (codec : Codec) (stream : ResponseStream) : List Item :=
  stream.ready.map .ok ++ if stream.reading.eof then stream.reading.lastItems
    else answered codec stream.reading stream.decoder stream.upstream

theorem coming_nextOutput (stream : ResponseStream) :
    coming codec stream =
      (nextOutput codec stream).elim [] fun read => read.1 :: coming codec read.2 := by
  fun_induction nextOutput codec stream with
  | case1 stream event ready hready => simp [coming, hready]
  | case2 stream hready heof =>
    rcases herror : stream.reading.terminalError with _ | error
    · simp [coming, hready, heof, Reading.lastItems, herror]
    · simp [coming, hready, heof, Reading.lastItems, herror]
  | case3 stream hready heof arrival upstream hup decoder f hreceive ih =>
    rw [← ih]
    simp [coming, run, answered, hready, heof, hup, hreceive]
  | case4 stream hready heof hup ih =>
    have hended : ((finishStream codec stream.decoder.finish).state stream.reading).eof = true :=
      rfl
    rw [← ih]
    simp [coming, run, answered, heof, hup, hended]

theorem foretells : Unfold.Foretells (nextOutput codec) (coming codec) :=
  .of_elim coming_nextOutput

/-- Reading a stream to its end. -/
theorem reads_iff {model responseId : String} {toolIdentities : List (String × ToolIdentity)}
    {upstream : List Arrival} {items : List Item} :
    Unfold.Reads (nextOutput codec) (translate model responseId toolIdentities upstream) items ↔
      items = answered codec (translate model responseId toolIdentities upstream).reading {}
        upstream :=
  foretells.reads_iff

end ResponseStream

end

end ProviderCore.Antigravity
