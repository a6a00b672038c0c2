import ProviderCore.Lib.Emit
import ProviderCore.Lib.Unfold
import ProviderCore.Protocol.Sse

/-!
# Adapting a Responses stream

The Claude and the Chat Completions adapters read the upstream in one way and differ in the
converter of its events, which is a parameter here, as is JSON parsing.  A client polls
`nextOutput`: it hands out what is queued, and reads the upstream only when nothing is.

What the client gets in the end depends on the upstream only through the frames in it and the
failure that cuts it short (`received`), whatever the chunks (`reads_iff`).
-/

namespace ProviderCore.Protocol

/-- What a client reads: an event or an error. -/
abbrev ClientItem (ε : Type) := Except ProviderError ε

def doneMark : Bytes := Text.ascii "[DONE]"

/-! ## Reading a Responses event -/

def maxU64 : ℕ := 18446744073709551615

def eventType (event : Json) : String := (event.text? "type").getD ""

def eventItem (event : Json) : Json := (event.member? "item").getD .null

def eventResponse (event : Json) : Json := (event.member? "response").getD .null

def outputText (item : Json) : String :=
  let parts := ((item.member? "content").bind Json.toArr).getD []
  String.join ((parts.filter (·.text? "type" == some "output_text")).filterMap (·.text? "text"))

/-! ## The adapter -/

structure StreamAdapter (σ ε : Type) where
  upstream : List StreamItem
  decoder : SseDecoder := {}
  converter : σ
  output : List (ClientItem ε) := []
  finished : Bool := false

def invalidEventError : ProviderError :=
  ⟨.upstream, "Responses upstream returned an invalid SSE JSON event", none⟩

section

variable {σ ε : Type} (parse : Bytes → Option Json) (convert : Json → Emit σ ε Unit)

def convertData (data : Bytes) : Emit σ (ClientItem ε) Unit :=
  if data = doneMark then pure ()
  else
    match parse data with
    | some event => (convert event).mapEvents .ok
    | none => Emit.emit (.error invalidEventError)

namespace StreamAdapter

def convertFrames (adapter : StreamAdapter σ ε) (frames : List Bytes) : StreamAdapter σ ε :=
  let conversion := Emit.each (convertData parse convert) frames
  { adapter with
    converter := conversion.state adapter.converter
    output := adapter.output ++ conversion.events adapter.converter }

def nextOutput (adapter : StreamAdapter σ ε) : Option (ClientItem ε × StreamAdapter σ ε) :=
  match adapter.output with
  | item :: output => some (item, { adapter with output })
  | [] =>
    if adapter.finished then none
    else
      match _hup : adapter.upstream with
      | .ok chunk :: upstream =>
        match adapter.decoder.push chunk with
        | (decoder, .ok frames) =>
          nextOutput (convertFrames parse convert { adapter with upstream, decoder } frames)
        | (decoder, .error _) =>
          some (.error frameTooLargeError,
            { adapter with upstream, decoder, finished := true })
      | .error e :: upstream => some (.error e, { adapter with upstream, finished := true })
      | [] =>
        let adapter := convertFrames parse convert adapter adapter.decoder.finish.toList
        nextOutput { adapter with finished := true }
termination_by if adapter.finished then 0 else adapter.upstream.length + 1
decreasing_by
  all_goals simp_all [convertFrames]

def start (converter : σ) (upstream : List StreamItem) : StreamAdapter σ ε :=
  { upstream, converter }

end StreamAdapter

end

/-! ## What is read -/

/-- The frames of an upstream, up to its first failure, and that failure. -/
def received (d : SseDecoder) : List StreamItem → List Bytes × Option ProviderError
  | [] => (d.finish.toList, none)
  | .error e :: _ => ([], some e)
  | .ok chunk :: upstream =>
    match d.push chunk with
    | (d, .ok frames) => (frames ++ (received d upstream).1, (received d upstream).2)
    | (_, .error _) => ([], some frameTooLargeError)

section

variable {σ ε : Type} (parse : Bytes → Option Json) (convert : Json → Emit σ ε Unit)

/-- The frames converted, and the failure. -/
def converted (converter : σ) (d : SseDecoder) (upstream : List StreamItem) : List (ClientItem ε) :=
  (Emit.each (convertData parse convert) (received d upstream).1).events converter ++
    (received d upstream).2.toList.map .error

/-- What is still to come of an adapter. -/
def StreamAdapter.coming (adapter : StreamAdapter σ ε) : List (ClientItem ε) :=
  adapter.output ++ if adapter.finished then []
    else converted parse convert adapter.converter adapter.decoder adapter.upstream

namespace StreamAdapter

variable {parse convert} {adapter : StreamAdapter σ ε}

theorem coming_nextOutput (adapter : StreamAdapter σ ε) :
    coming parse convert adapter =
      (nextOutput parse convert adapter).elim [] fun read =>
        read.1 :: coming parse convert read.2 := by
  fun_induction nextOutput parse convert adapter with
  | case1 adapter item output houtput => simp [coming, houtput]
  | case2 adapter houtput hfinished => simp [coming, houtput, hfinished]
  | case3 adapter houtput hfinished chunk upstream hup decoder frames hpush ih =>
    rw [← ih]
    simp [coming, convertFrames, converted, hfinished, hup, received, hpush,
      Emit.events_each_append]
  | case4 adapter houtput hfinished chunk upstream hup decoder e hpush =>
    simp [coming, converted, houtput, hfinished, hup, received, hpush]
  | case5 adapter houtput hfinished e upstream hup =>
    simp [coming, converted, houtput, hfinished, hup, received]
  | case6 adapter houtput hfinished hup ended ih =>
    rw [← ih]
    simp [ended, coming, convertFrames, converted, hfinished, hup, received]

theorem foretells : Unfold.Foretells (nextOutput parse convert) (coming parse convert) :=
  .of_elim coming_nextOutput

theorem reads_iff {converter : σ} {upstream : List StreamItem} {items : List (ClientItem ε)} :
    Unfold.Reads (nextOutput parse convert) (start converter upstream) items ↔
      items = converted parse convert converter {} upstream :=
  foretells.reads_iff

end StreamAdapter

end

end ProviderCore.Protocol
