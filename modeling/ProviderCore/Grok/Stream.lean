import ProviderCore.Grok.Restorer
import ProviderCore.Lib.Unfold
import ProviderCore.Protocol.Sse

/-!
# The restored Grok stream

The stream hands out what is ready, then restores the next frame of what has arrived, and waits for
the upstream only when there is no such frame.  However the upstream ends, the client is told an
end: if the upstream told none, a failure is made up.

What is read is a function of what arrives (`reads_iff`).  The arrivals alone say which frames are
cut off and how the reading ends (`cut`); the frames go through the restorer in turn, and the
ending adds what it has to (`conclude`).
-/

namespace ProviderCore.Grok.Restore

open Protocol (Arrival findSseFrameEnd)

def maxToolSseFrameSize : ℕ := 8 * 1024 * 1024

def frameLimitError : ProviderError :=
  ⟨.upstream, "Grok upstream tool event exceeded the frame limit", none⟩

def idleError : ProviderError :=
  ⟨.upstream, "Grok upstream stream idle timeout", some .capacityExhausted⟩

/-- What the client reads. -/
inductive Item
  | output (output : Output)
  | error (error : ProviderError)
  | panic

structure RestoredStream where
  upstream : List Arrival
  pending : Bytes := []
  ready : List Output := []
  restorer : GrokToolStreamRestorer
  /-- At the end of the upstream, the error that is still to be told. -/
  eof : Option (Option ProviderError) := none
  panicked : Bool := false

variable (env : StreamEnv)

namespace RestoredStream

/-- Make up a failure, unless the response has ended. -/
def failWith (code message : String) (s : RestoredStream) : RestoredStream :=
  if s.restorer.terminalSeen then s
  else
    let (frame, restorer) := s.restorer.failureFrame env code message
    { s with ready := s.ready ++ [frame], restorer }

def tooLarge (s : RestoredStream) : RestoredStream :=
  { s.failWith env "upstream_frame_too_large"
      "Grok upstream tool event exceeded the frame limit" with
    eof := some (some frameLimitError)
    pending := [] }

def receive (s : RestoredStream) : Arrival → RestoredStream
  | .timeout =>
    { s.failWith env "upstream_stream_timeout"
        "Grok upstream stream timed out before response completion" with
      eof := some (some idleError) }
  | .chunk bytes =>
    let s := { s with pending := s.pending ++ bytes }
    if s.pending.length > maxToolSseFrameSize ∧ findSseFrameEnd s.pending = none then
      s.tooLarge env
    else s
  | .error error =>
    if s.restorer.terminalSeen then { s with eof := some none }
    else
      { s.failWith env "upstream_stream_error"
          "Grok upstream stream failed before response completion" with
        eof := some (some error) }

/-- The upstream has ended and nothing can be cut off any more. -/
def finish (s : RestoredStream) : RestoredStream :=
  if s.pending.isEmpty then
    s.failWith env "upstream_stream_ended" "Grok upstream stream ended before response completion"
  else
    { s with pending := [] }.failWith env "upstream_incomplete_sse_frame"
      "Grok upstream stream ended with an incomplete SSE frame"

section

variable (code message : String) (s : RestoredStream)

@[simp] theorem failWith_upstream : (s.failWith env code message).upstream = s.upstream := by
  unfold failWith
  split <;> rfl

@[simp] theorem failWith_pending : (s.failWith env code message).pending = s.pending := by
  unfold failWith
  split <;> rfl

@[simp] theorem failWith_eof : (s.failWith env code message).eof = s.eof := by
  unfold failWith
  split <;> rfl

@[simp] theorem failWith_panicked : (s.failWith env code message).panicked = s.panicked := by
  unfold failWith
  split <;> rfl

@[simp] theorem failWith_terminalSeen :
    (s.failWith env code message).restorer.terminalSeen = true := by
  unfold failWith
  split
  · assumption
  · rfl

@[simp] theorem receive_upstream (arrival : Arrival) :
    (s.receive env arrival).upstream = s.upstream := by
  cases arrival with
  | timeout => exact failWith_upstream env _ _ s
  | chunk =>
    rw [receive]
    split
    · exact failWith_upstream env _ _ _
    · rfl
  | error =>
    rw [receive]
    split
    · rfl
    · exact failWith_upstream env _ _ s

end

def nextOutput (s : RestoredStream) : Option (Item × RestoredStream) :=
  if s.panicked then none
  else
    match s.ready with
    | output :: ready => some (.output output, { s with ready })
    | [] =>
      match _hend : findSseFrameEnd s.pending with
      | some frameEnd =>
        if frameEnd > maxToolSseFrameSize then nextOutput (s.tooLarge env)
        else
          match s.restorer.restoreFrame env (s.pending.take frameEnd) with
          | none => some (.panic, { s with panicked := true })
          | some (outputs, restorer) =>
            nextOutput { s with
              pending := s.pending.drop frameEnd
              ready := outputs
              restorer }
      | none =>
        match _heof : s.eof with
        | some (some error) => some (.error error, { s with eof := some none })
        | some none =>
          if s.pending.isEmpty && s.restorer.terminalSeen then none
          else nextOutput (s.finish env)
        | none =>
          match _hup : s.upstream with
          | arrival :: upstream => nextOutput ({ s with upstream }.receive env arrival)
          | [] => nextOutput { s with eof := some none }
termination_by
  (s.upstream.length + if s.eof.isSome then 0 else 1, s.pending.length,
    if s.restorer.terminalSeen then 0 else 1)
decreasing_by
  all_goals simp_wf; simp only [Prod.lex_def]
  · have := Protocol.findSseFrameEnd_pos _hend
    rcases s.eof with _ | error
    · simp [tooLarge]
    · simp [tooLarge]
      omega
  · have := Protocol.findSseFrameEnd_pos _hend
    exact .inr ⟨trivial, .inl (by omega)⟩
  · by_cases hempty : s.pending.isEmpty
    · simp_all [finish]
    · have : s.pending.length ≠ 0 := by simp_all
      rw [finish, if_neg hempty]
      simp only [failWith_upstream, failWith_pending, failWith_eof]
      exact .inr ⟨trivial, .inl (Nat.pos_of_ne_zero this)⟩
  · have : s.upstream.length = upstream.length + 1 := by rw [_hup, List.length_cons]
    left
    rw [_heof, Option.isSome_none, if_neg Bool.false_ne_true]
    split <;> omega
  · simp [_heof]

def restoreToolStream (mappings : GrokToolMappings) (upstream : List Arrival) : RestoredStream :=
  { upstream, restorer := { mappings } }

end RestoredStream

/-! ## What arrives -/

/-- How the reading of the upstream ends. -/
inductive Ending
  | ended
  | incomplete
  | tooLarge
  | failed (error : ProviderError)
  | timedOut

/-- The end of an upstream that leaves this behind. -/
def atEof (pending : Bytes) : Ending := if pending.isEmpty then .ended else .incomplete

/-- The frames that can be cut off, and what is left unless a frame is too large. -/
def takeFrames : ℕ → Bytes → List Bytes × Option Bytes
  | 0, pending => ([], some pending)
  | fuel + 1, pending =>
    match findSseFrameEnd pending with
    | none => ([], some pending)
    | some frameEnd =>
      if frameEnd > maxToolSseFrameSize then ([], none)
      else
        let (frames, left) := takeFrames fuel (pending.drop frameEnd)
        (pending.take frameEnd :: frames, left)

/-- The frames of the arrivals, and how they end. -/
def cut (pending : Bytes) : List Arrival → List Bytes × Ending
  | [] => ([], atEof pending)
  | .timeout :: _ => ([], .timedOut)
  | .error error :: _ => ([], .failed error)
  | .chunk bytes :: upstream =>
    let pending := pending ++ bytes
    if pending.length > maxToolSseFrameSize ∧ findSseFrameEnd pending = none then ([], .tooLarge)
    else
      match takeFrames pending.length pending with
      | (frames, none) => (frames, .tooLarge)
      | (frames, some left) =>
        let (frames', ending) := cut left upstream
        (frames ++ frames', ending)

/-! ## What is told -/

/-- The code and the message of a failure that is made up. -/
def Ending.reason : Ending → String × String
  | .ended => ("upstream_stream_ended", "Grok upstream stream ended before response completion")
  | .incomplete =>
    ("upstream_incomplete_sse_frame", "Grok upstream stream ended with an incomplete SSE frame")
  | .tooLarge => ("upstream_frame_too_large", "Grok upstream tool event exceeded the frame limit")
  | .failed _ =>
    ("upstream_stream_error", "Grok upstream stream failed before response completion")
  | .timedOut =>
    ("upstream_stream_timeout", "Grok upstream stream timed out before response completion")

/-- The error that the client gets, in a response that has ended or has not. -/
def Ending.error (terminalSeen : Bool) : Ending → Option ProviderError
  | .ended | .incomplete => none
  | .tooLarge => some frameLimitError
  | .failed error => if terminalSeen then none else some error
  | .timedOut => some idleError

@[simp] theorem error_atEof (terminalSeen : Bool) (pending : Bytes) :
    (atEof pending).error terminalSeen = none := by
  unfold atEof
  split <;> rfl

/-- What an ending adds. -/
def conclude (r : GrokToolStreamRestorer) (ending : Ending) : List Item :=
  (if r.terminalSeen then [] else
    [.output (r.failureFrame env ending.reason.1 ending.reason.2).1]) ++
    (ending.error r.terminalSeen).toList.map .error

/-- The frames in turn, up to a panic. -/
def restoreFrames (r : GrokToolStreamRestorer) :
    List Bytes → List Item × Option GrokToolStreamRestorer
  | [] => ([], some r)
  | frame :: frames =>
    match r.restoreFrame env frame with
    | none => ([.panic], none)
    | some (outputs, r) =>
      let (items, r) := restoreFrames r frames
      (outputs.map .output ++ items, r)

/-- Frames, and then what follows if there was no panic. -/
def restoreThen (r : GrokToolStreamRestorer) (frames : List Bytes)
    (rest : GrokToolStreamRestorer → List Item) : List Item :=
  (restoreFrames env r frames).1 ++ ((restoreFrames env r frames).2.map rest).getD []

def answered (r : GrokToolStreamRestorer) (pending : Bytes) (upstream : List Arrival) : List Item :=
  restoreThen env r (cut pending upstream).1 fun r => conclude env r (cut pending upstream).2

/-! ## The stream hands out what is told -/

variable {pending : Bytes}

variable {fuel : ℕ}

theorem takeFrames_of_none (h : findSseFrameEnd pending = none) :
    takeFrames fuel pending = ([], some pending) := by
  cases fuel with
  | zero => rfl
  | succ => simp [takeFrames, h]

/-- Fuel for every byte is enough. -/
theorem takeFrames_of_le (hfuel : pending.length ≤ fuel) :
    takeFrames fuel pending = takeFrames pending.length pending := by
  induction hlength : pending.length using Nat.strong_induction_on generalizing pending fuel with
  | _ n ih =>
    subst hlength
    rcases hend : findSseFrameEnd pending with _ | frameEnd
    · rw [takeFrames_of_none hend, takeFrames_of_none hend]
    · obtain ⟨hpos, hle⟩ := Protocol.findSseFrameEnd_pos hend
      obtain ⟨fuel, rfl⟩ : ∃ n, fuel = n + 1 := ⟨fuel - 1, by omega⟩
      obtain ⟨n, hn⟩ : ∃ n, pending.length = n + 1 := ⟨pending.length - 1, by omega⟩
      have hdrop : (pending.drop frameEnd).length < pending.length := by
        rw [List.length_drop]
        omega
      have hsame : takeFrames fuel (pending.drop frameEnd) =
          takeFrames n (pending.drop frameEnd) :=
        (ih _ hdrop (by omega) rfl).trans (ih _ hdrop (by omega) rfl).symm
      rw [hn, takeFrames, takeFrames, hend]
      simp [hsame]

variable {frameEnd : ℕ}

theorem takeFrames_of_some
    (hend : findSseFrameEnd pending = some frameEnd) (hsize : ¬frameEnd > maxToolSseFrameSize) :
    takeFrames pending.length pending =
      let left := pending.drop frameEnd
      (pending.take frameEnd :: (takeFrames left.length left).1,
        (takeFrames left.length left).2) := by
  obtain ⟨hpos, hle⟩ := Protocol.findSseFrameEnd_pos hend
  obtain ⟨n, hn⟩ : ∃ n, pending.length = n + 1 := ⟨pending.length - 1, by omega⟩
  have hdrop : (pending.drop frameEnd).length ≤ n := by
    rw [List.length_drop]
    omega
  rw [hn, takeFrames, hend]
  simp [hsize, takeFrames_of_le hdrop]

theorem takeFrames_of_tooLarge
    (hend : findSseFrameEnd pending = some frameEnd) (hsize : frameEnd > maxToolSseFrameSize) :
    takeFrames pending.length pending = ([], none) := by
  obtain ⟨hpos, hle⟩ := Protocol.findSseFrameEnd_pos hend
  obtain ⟨n, hn⟩ : ∃ n, pending.length = n + 1 := ⟨pending.length - 1, by omega⟩
  rw [hn, takeFrames, hend]
  simp [hsize]

section

variable {env} {r : GrokToolStreamRestorer} {rest : GrokToolStreamRestorer → List Item}

@[simp] theorem restoreThen_nil : restoreThen env r [] rest = rest r := rfl

variable {frames : List Bytes} {frame : Bytes}

theorem restoreThen_cons {outputs : List Output}
    {r' : GrokToolStreamRestorer} (h : r.restoreFrame env frame = some (outputs, r')) :
    restoreThen env r (frame :: frames) rest =
      outputs.map .output ++ restoreThen env r' frames rest := by
  simp [restoreThen, restoreFrames, h]

theorem restoreThen_panic (h : r.restoreFrame env frame = none) :
    restoreThen env r (frame :: frames) rest = [.panic] := by
  simp [restoreThen, restoreFrames, h]

theorem restoreThen_append (frames frames' : List Bytes) :
    restoreThen env r (frames ++ frames') rest =
      restoreThen env r frames fun r => restoreThen env r frames' rest := by
  induction frames generalizing r with
  | nil => rfl
  | cons frame _ ih =>
    rw [List.cons_append]
    rcases hframe : r.restoreFrame env frame with _ | ⟨outputs, r'⟩
    · rw [restoreThen_panic hframe, restoreThen_panic hframe]
    · rw [restoreThen_cons hframe, restoreThen_cons hframe, ih]

end

namespace RestoredStream

/-- What comes once nothing can be cut off. -/
def comingAfter (upstream : List Arrival) (eof : Option (Option ProviderError))
    (r : GrokToolStreamRestorer) (left : Bytes) : List Item :=
  match eof with
  | some error => error.toList.map .error ++ conclude env r (atEof left)
  | none => answered env r left upstream

/-- What is still to come. -/
def coming (s : RestoredStream) : List Item :=
  if s.panicked then []
  else
    let taken := takeFrames s.pending.length s.pending
    s.ready.map .output ++ restoreThen env s.restorer taken.1 fun r =>
      (taken.2.map (comingAfter env s.upstream s.eof r)).getD (conclude env r .tooLarge)

section

variable {env} {s : RestoredStream}

theorem coming_of_none (hpanic : s.panicked = false) (hend : findSseFrameEnd s.pending = none) :
    s.coming env =
      s.ready.map .output ++ comingAfter env s.upstream s.eof s.restorer s.pending := by
  simp [coming, hpanic, takeFrames_of_none hend]

variable {error : Option ProviderError}

/-- Nothing is left to do but to tell an error. -/
theorem coming_of_terminalSeen (hpanic : s.panicked = false)
    (hend : findSseFrameEnd s.pending = none) (heof : s.eof = some error)
    (hseen : s.restorer.terminalSeen = true) :
    s.coming env = s.ready.map .output ++ error.toList.map .error := by
  have hnothing : conclude env s.restorer (atEof s.pending) = [] := by
    simp [conclude, hseen]
  rw [coming_of_none hpanic hend, heof, comingAfter, hnothing, List.append_nil]

/-- A failure is made up if it has to be, and an error is told after it. -/
theorem coming_failWith {t : RestoredStream} {code message : String}
    (hready : s.ready = []) (hqueue : t.ready = (s.failWith env code message).ready)
    (hrestorer : t.restorer = (s.failWith env code message).restorer)
    (hpanic : t.panicked = false) (hend : findSseFrameEnd t.pending = none)
    (heof : t.eof = some error) :
    t.coming env = (if s.restorer.terminalSeen then [] else
      [.output (s.restorer.failureFrame env code message).1]) ++ error.toList.map .error := by
  rw [coming_of_terminalSeen hpanic hend heof (hrestorer ▸ failWith_terminalSeen env _ _ s), hqueue,
    failWith]
  split <;> simp [hready]

theorem coming_tooLarge (hpanic : s.panicked = false) (hready : s.ready = []) :
    coming env (s.tooLarge env) = conclude env s.restorer .tooLarge :=
  coming_failWith hready rfl rfl ((failWith_panicked env _ _ s).trans hpanic) rfl rfl

theorem coming_receive (hpanic : s.panicked = false) (hready : s.ready = [])
    (heof : s.eof = none) (hend : findSseFrameEnd s.pending = none) (arrival : Arrival) :
    coming env (s.receive env arrival) =
      answered env s.restorer s.pending (arrival :: s.upstream) := by
  cases arrival with
  | timeout =>
    exact coming_failWith hready rfl rfl ((failWith_panicked env _ _ s).trans hpanic)
      ((congrArg _ (failWith_pending env _ _ s)).trans hend) rfl
  | error error =>
    by_cases hseen : s.restorer.terminalSeen = true
    · rw [receive, if_pos hseen]
      refine (coming_of_terminalSeen (s := { s with eof := some none })
        hpanic hend rfl hseen).trans ?_
      simp [answered, cut, conclude, Ending.error, hready, hseen]
    · have hanswer : answered env s.restorer s.pending (.error error :: s.upstream) =
          conclude env s.restorer (.failed error) := rfl
      have herror : (Ending.failed error).error s.restorer.terminalSeen = some error :=
        if_neg hseen
      rw [receive, if_neg hseen, hanswer, conclude, herror]
      exact coming_failWith hready rfl rfl ((failWith_panicked env _ _ s).trans hpanic)
        ((congrArg _ (failWith_pending env _ _ s)).trans hend) rfl
  | chunk bytes =>
    rw [receive, answered, cut]
    split
    · exact coming_tooLarge hpanic hready
    · rw [coming, if_neg (by simp [hpanic])]
      rcases takeFrames (s.pending ++ bytes).length (s.pending ++ bytes) with ⟨frames, _ | left⟩
      · simp [hready]
      · simp [hready, restoreThen_append, comingAfter, heof, answered]

theorem coming_finish (hpanic : s.panicked = false) (hready : s.ready = [])
    (heof : s.eof = some none) :
    coming env (s.finish env) = conclude env s.restorer (atEof s.pending) := by
  unfold finish conclude
  split
  · rename_i hempty
    have hpending := List.isEmpty_iff.mp hempty
    rw [atEof, if_pos hempty]
    exact coming_failWith hready rfl rfl ((failWith_panicked env _ _ s).trans hpanic)
      (by rw [failWith_pending, hpending]; rfl) ((failWith_eof env _ _ s).trans heof)
  · rename_i hmore
    rw [atEof, if_neg hmore]
    exact coming_failWith (s := { s with pending := [] }) hready rfl rfl
      ((failWith_panicked env _ _ _).trans hpanic) (by rw [failWith_pending]; rfl)
      ((failWith_eof env _ _ _).trans heof)

theorem coming_nextOutput (s : RestoredStream) :
    coming env s = (nextOutput env s).elim [] fun read => read.1 :: coming env read.2 := by
  fun_induction nextOutput env s with
  | case1 s hpanic => simp [coming, hpanic]
  | case2 s hpanic output ready hready => simp [coming, hpanic, hready]
  | case3 s hpanic hready frameEnd hend hsize ih =>
    rw [← ih, coming_tooLarge (by simpa using hpanic) hready, coming]
    simp [hpanic, hready, takeFrames_of_tooLarge hend hsize]
  | case4 s hpanic hready frameEnd hend hsize hframe =>
    simp [coming, hpanic, hready, takeFrames_of_some hend hsize, restoreThen_panic hframe]
  | case5 s hpanic hready frameEnd hend hsize outputs restorer hframe ih =>
    rw [← ih]
    simp [coming, hready, takeFrames_of_some hend hsize, restoreThen_cons hframe]
  | case6 s hpanic hready hend error heof =>
    simp [coming, hpanic, hready, takeFrames_of_none hend, comingAfter, heof]
  | case7 s hpanic hready hend heof hdone =>
    simp only [Bool.and_eq_true] at hdone
    simp [coming, hready, takeFrames_of_none hend, comingAfter, heof, conclude, hdone.2]
  | case8 s hpanic hready hend heof hdone ih =>
    have hpanic : s.panicked = false := by simpa using hpanic
    rw [← ih, coming_finish hpanic hready heof, coming_of_none hpanic hend]
    simp [hready, comingAfter, heof]
  | case9 s hpanic hready hend heof arrival upstream hup ih =>
    have hpanic : s.panicked = false := by simpa using hpanic
    rw [← ih, coming_receive (s := { s with upstream }) hpanic hready heof hend,
      coming_of_none hpanic hend]
    simp [hready, comingAfter, heof, hup]
  | case10 s hpanic hready hend heof hup ih =>
    rw [← ih]
    simp [coming, takeFrames_of_none hend, comingAfter, heof, hup, answered, cut]

theorem foretells : Unfold.Foretells (nextOutput env) (coming env) :=
  .of_elim coming_nextOutput

/-- Reading a stream to its end. -/
theorem reads_iff {mappings : GrokToolMappings} {upstream : List Arrival} {items : List Item} :
    Unfold.Reads (nextOutput env) (restoreToolStream mappings upstream) items ↔
      items = answered env { mappings } [] upstream :=
  foretells.reads_iff

end

end RestoredStream

end ProviderCore.Grok.Restore
