import ProviderCore.Usage.NormalizeExact
import ProviderCore.Usage.Tracking

/-!
# The life of an attempt

The calls one attempt tracker receives, in order and with the clock reading of each, and the facts
it submits.  Whatever the calls, a tracker submits at most one set of facts, built at the first
call that closes it (`submitted_close`).  `Issued` are the lives the runtime can produce
(`execute_entry`, `finish_attempt` and the observing stream).
-/

namespace ProviderCore.Usage

open List

/-- A call with the reading of the clock at its time. -/
abbrev TimedEvent := AttemptEvent × ℤ

def AttemptTracker.submitted (requestId : String) :
    AttemptTracker → List TimedEvent → List AttemptFacts
  | _, [] => []
  | attempt, event :: events =>
    let (attempt, facts) := attempt.observe requestId event.1 event.2
    facts.toList ++ attempt.submitted requestId events

def AttemptState.applyAll (state : AttemptState) (events : List TimedEvent) : AttemptState :=
  events.foldl (fun state event => event.1.apply event.2 state) state

@[simp] theorem AttemptState.applyAll_nil (state : AttemptState) : state.applyAll [] = state := rfl

@[simp] theorem AttemptState.applyAll_cons (state : AttemptState) (event : TimedEvent)
    (events : List TimedEvent) :
    state.applyAll (event :: events) = (event.1.apply event.2 state).applyAll events := rfl

/-! ## What a life submits -/

variable {events : List TimedEvent}

section Submitted

variable (requestId : String) {attempt : AttemptTracker}

theorem AttemptEvent.apply_closed (event : AttemptEvent) (nowMs : ℤ) (state : AttemptState) :
    (event.apply nowMs state).closed = state.closed := by
  cases event <;>
    simp [AttemptEvent.apply, AttemptState.advance, AttemptState.recordUsage,
      apply_ite AttemptState.closed]

theorem AttemptTracker.observe_of_closes {event : AttemptEvent} (nowMs : ℤ)
    (hcloses : event.closes = true) (hopen : attempt.state.closed = false) :
    (attempt.observe requestId event nowMs).1.state.closed = true ∧
      (attempt.observe requestId event nowMs).2 =
        some (attemptFacts requestId
          { attempt with state := event.apply nowMs attempt.state } nowMs) := by
  simp [observe, close, hcloses, AttemptEvent.apply_closed, hopen]

theorem AttemptTracker.observe_of_not_closes {event : AttemptEvent} (nowMs : ℤ)
    (hcloses : event.closes = false) :
    attempt.observe requestId event nowMs =
      ({ attempt with state := event.apply nowMs attempt.state }, none) := by
  simp [observe, hcloses]

theorem AttemptTracker.observe_of_closed (event : AttemptEvent) (nowMs : ℤ)
    (hclosed : attempt.state.closed = true) :
    (attempt.observe requestId event nowMs).1.state.closed = true ∧
      (attempt.observe requestId event nowMs).2 = none := by
  cases hcloses : event.closes <;>
    simp [observe, close, hcloses, AttemptEvent.apply_closed, hclosed]

/-- A closed attempt submits nothing more. -/
theorem AttemptTracker.submitted_of_closed (events : List TimedEvent)
    (hclosed : attempt.state.closed = true) : attempt.submitted requestId events = [] := by
  induction events generalizing attempt with
  | nil => rfl
  | cons event _ ih =>
    obtain ⟨hstill, hnone⟩ := observe_of_closed requestId event.1 event.2 hclosed
    simp only [submitted, hnone, Option.toList_none, nil_append]
    exact ih hstill

/-- A life submits exactly the facts of the call that closes the attempt. -/
theorem AttemptTracker.submitted_close {event : TimedEvent}
    (rest : List TimedEvent) (hopen : attempt.state.closed = false)
    (hbefore : ∀ e ∈ events, e.1.closes = false) (hcloses : event.1.closes = true) :
    attempt.submitted requestId (events ++ event :: rest) =
      [attemptFacts requestId
        { attempt with state := event.1.apply event.2 (attempt.state.applyAll events) }
        event.2] := by
  induction events generalizing attempt with
  | nil =>
    obtain ⟨hclosed, hfacts⟩ := observe_of_closes requestId event.2 hcloses hopen
    simp only [nil_append, submitted, hfacts, submitted_of_closed requestId rest hclosed]
    rfl
  | cons e _ ih =>
    have hstep := @observe_of_not_closes requestId attempt e.1 e.2
      (hbefore e mem_cons_self)
    simp only [cons_append, submitted, hstep, Option.toList_none, nil_append]
    rw [ih ((e.1.apply_closed e.2 attempt.state).trans hopen)
      fun e' he' => hbefore e' (mem_cons_of_mem _ he')]
    rfl

end Submitted

/-! ## The lives the runtime produces -/

/-- The calls of a stream that is being read. -/
def AttemptEvent.reading : AttemptEvent → Bool
  | .firstTokenObserved | .providerModelObserved _ | .observationLost => true
  | _ => false

theorem AttemptEvent.closes_of_reading {event : AttemptEvent} (h : event.reading = true) :
    event.closes = false := by
  cases event <;> first | rfl | cases h

/-- The report of a success terminal, made only if one was seen. -/
def successReport (terminal : Option ℤ) : List TimedEvent :=
  (terminal.map fun nowMs => (AttemptEvent.successTerminalObserved, nowMs)).toList

/-- The lives of an attempt tracker. -/
inductive Issued : List TimedEvent → Prop
  /-- The task was cancelled while the upstream call was in flight. -/
  | abandoned (droppedAt : ℤ) : Issued [(.dropped, droppedAt)]
  /-- The call failed, or was answered in a way that does not open a stream. -/
  | failed (answered : Bool) (reason : Option ProviderFailoverReason) (nowMs droppedAt : ℤ) :
    Issued [(.failed answered reason, nowMs), (.dropped, droppedAt)]
  /-- The stream was read to its end, or dropped after a terminal was seen.  A response whose
  format is not observed reports a lost observation and ends at once. -/
  | finished (openedAt : ℤ) (seen : List TimedEvent) (hseen : ∀ e ∈ seen, e.1.reading = true)
    (terminal : Option ℤ) (fields : Option RawUsageFields) (nowMs droppedAt : ℤ) :
    Issued ((.streamOpened, openedAt) :: seen ++ successReport terminal ++
      [(.finished fields, nowMs), (.dropped, droppedAt)])
  /-- The stream was dropped before a terminal. -/
  | cancelled (openedAt : ℤ) (seen : List TimedEvent) (hseen : ∀ e ∈ seen, e.1.reading = true)
    (fields : Option RawUsageFields) (nowMs droppedAt : ℤ) :
    Issued ((.streamOpened, openedAt) :: seen ++
      [(.cancelled fields, nowMs), (.dropped, droppedAt)])

/-- The clock at the first token, if one was observed. -/
def firstTokenReading (events : List TimedEvent) : Option ℤ :=
  (events.find? fun event => event.1 = .firstTokenObserved).map (·.2)

def closeReading (events : List TimedEvent) : Option ℤ :=
  (events.find? fun event => event.1.closes).map (·.2)

/-- The first first-token call is the one that is kept. -/
theorem AttemptState.applyAll_firstTokenAtMs (state : AttemptState) (events : List TimedEvent) :
    (state.applyAll events).firstTokenAtMs =
      state.firstTokenAtMs.or (firstTokenReading events) := by
  induction events generalizing state with
  | nil => simp [firstTokenReading]
  | cons event _ ih =>
    obtain ⟨event, nowMs⟩ := event
    rw [applyAll_cons, ih]
    by_cases hfirst : event = .firstTokenObserved
    · subst hfirst
      rcases hstate : state.firstTokenAtMs with _ | at_ <;>
        simp [AttemptEvent.apply, firstTokenReading, hstate]
    · have hkeep : (event.apply nowMs state).firstTokenAtMs = state.firstTokenAtMs := by
        cases event <;> first | contradiction |
          simp [AttemptEvent.apply, AttemptState.advance, AttemptState.recordUsage,
            apply_ite AttemptState.firstTokenAtMs]
      simp [hkeep, firstTokenReading, hfirst]

/-! ## The state a life closes in -/

/-- An attempt that was not sent has no usage, and only a failed one names a failover reason. -/
structure AttemptState.Coherent (state : AttemptState) : Prop where
  unsent : state.evidence = .notInvoked → state.rawUsage = none
  failover : state.failoverReason ≠ none → state.outcome = some .failed

/-- The response was observed and no failover was named. -/
structure AttemptState.Streamed (state : AttemptState) : Prop where
  evidence : state.evidence = .responseObserved
  failoverReason : state.failoverReason = none

variable {state : AttemptState}

theorem AttemptState.Streamed.coherent (h : state.Streamed) : state.Coherent :=
  ⟨fun hunsent => by simp [h.evidence] at hunsent, fun hreason => absurd h.failoverReason hreason⟩

/-- Only a failure names a failover reason. -/
theorem AttemptEvent.apply_streamed {event : AttemptEvent} (nowMs : ℤ)
    (hevent : ∀ answered reason, event ≠ .failed answered reason) (h : state.Streamed) :
    (event.apply nowMs state).Streamed := by
  obtain ⟨hevidence, hreason⟩ := h
  cases event with
  | failed answered reason => exact absurd rfl (hevent answered reason)
  | _ =>
    constructor <;>
      simp [AttemptEvent.apply, AttemptState.advance, AttemptState.recordUsage,
        apply_ite AttemptState.evidence, apply_ite AttemptState.failoverReason, hevidence, hreason]

theorem AttemptState.applyAll_streamed
    (hevents : ∀ e ∈ events, ∀ answered reason, e.1 ≠ .failed answered reason)
    (h : state.Streamed) : (state.applyAll events).Streamed := by
  induction events generalizing state with
  | nil => exact h
  | cons event _ ih =>
    exact ih (fun e he => hevents e (mem_cons_of_mem _ he))
      (event.1.apply_streamed event.2 (hevents event mem_cons_self) h)

/-- How a life closes: the calls before, the closing call, and the drop after it. -/
structure Closing (events before : List TimedEvent) (event : TimedEvent)
    (rest : List TimedEvent) : Prop where
  events_eq : events = before ++ event :: rest
  before_open : ∀ e ∈ before, e.1.closes = false
  closes : event.1.closes = true
  rest_dropped : ∀ e ∈ rest, e.1 = .dropped
  coherent : (({} : AttemptState).applyAll (before ++ [event])).Coherent
  failover : ∀ reason,
    (({} : AttemptState).applyAll (before ++ [event])).failoverReason =
        some (mapFailoverReason reason) ↔
      ∃ e ∈ events, ∃ answered, e.1 = .failed answered (some reason)

/-- A life that opened a stream closes with the response observed. -/
theorem Closing.of_streamed {before : List TimedEvent} {event dropped : TimedEvent} {openedAt : ℤ}
    (hbefore : ∀ e ∈ before, e.1.closes = false) (hcloses : event.1.closes = true)
    (hfailed : ∀ answered reason, event.1 ≠ .failed answered reason)
    (hdropped : dropped.1 = .dropped) :
    Closing ((.streamOpened, openedAt) :: before ++ [event, dropped])
      ((.streamOpened, openedAt) :: before) event [dropped] := by
  have hnone : ∀ e ∈ before ++ [event], ∀ answered reason, e.1 ≠ .failed answered reason := by
    intro e he answered reason heq
    rcases mem_append.mp he with he | he
    · have := hbefore e he
      simp [heq, AttemptEvent.closes] at this
    · cases mem_singleton.mp he
      exact hfailed answered reason heq
  have hopened : (AttemptEvent.streamOpened.apply openedAt {}).Streamed := ⟨rfl, rfl⟩
  have hstreamed := AttemptState.applyAll_streamed hnone hopened
  refine ⟨by simp, by simpa [AttemptEvent.closes] using hbefore, hcloses, by simpa using hdropped,
    hstreamed.coherent, fun reason => ?_⟩
  change (AttemptState.applyAll _ (before ++ [event])).failoverReason = _ ↔ _
  rw [hstreamed.failoverReason]
  constructor
  · intro h
    cases h
  · rintro ⟨e, he, answered, heq⟩
    simp only [cons_append, mem_cons, mem_append, not_mem_nil, or_false] at he
    rcases he with rfl | he | rfl | rfl
    · cases heq
    · exact absurd heq (hnone e (by simp [he]) answered _)
    · exact absurd heq (hfailed answered _)
    · simp [hdropped] at heq

section Readings

variable {events before rest : List TimedEvent} {event : TimedEvent}

theorem Closing.firstTokenAtMs (h : Closing events before event rest) :
    (({} : AttemptState).applyAll (before ++ [event])).firstTokenAtMs =
      firstTokenReading events := by
  have hrest : rest.find? (fun e => decide (e.1 = .firstTokenObserved)) = none := by
    rw [List.find?_eq_none]
    intro e he
    simp [h.rest_dropped e he]
  have hfind : firstTokenReading events = firstTokenReading (before ++ [event]) := by
    rw [h.events_eq, append_cons before]
    unfold firstTokenReading
    rw [List.find?_append, hrest, Option.or_none]
  rw [AttemptState.applyAll_firstTokenAtMs, hfind]
  rfl

theorem Closing.closeReading (h : Closing events before event rest) :
    closeReading events = some event.2 := by
  have hbefore : before.find? (fun e => e.1.closes) = none := by
    rw [List.find?_eq_none]
    intro e he
    simp [h.before_open e he]
  simp [Usage.closeReading, h.events_eq, List.find?_append, hbefore, h.closes]

end Readings

theorem Issued.closing (h : Issued events) :
    ∃ before event rest, Closing events before event rest := by
  cases h with
  | abandoned droppedAt =>
    refine ⟨[], (.dropped, droppedAt), [], rfl, by simp, rfl, by simp, ⟨fun _ => rfl, ?_⟩, ?_⟩
    · exact fun hreason => absurd rfl hreason
    · simp [AttemptEvent.apply]
  | failed answered reason nowMs droppedAt =>
    refine ⟨[], (.failed answered reason, nowMs), [(.dropped, droppedAt)], rfl, by simp, rfl,
      by simp, ⟨?_, fun _ => rfl⟩, ?_⟩
    · cases answered <;> exact fun hunsent => nomatch hunsent
    · intro reason'
      rcases reason with _ | reason
      · simp [AttemptEvent.apply]
      · cases reason <;> cases reason' <;> simp [AttemptEvent.apply, mapFailoverReason]
  | finished openedAt seen hseen terminal fields nowMs droppedAt =>
    have hbefore : ∀ e ∈ seen ++ successReport terminal, e.1.closes = false := by
      intro e he
      rcases mem_append.mp he with he | he
      · exact AttemptEvent.closes_of_reading (hseen e he)
      · rcases terminal with _ | at_ <;> simp_all [successReport, AttemptEvent.closes]
    exact ⟨_, _, _, @Closing.of_streamed _ (.finished fields, nowMs) (.dropped, droppedAt)
      openedAt hbefore rfl (fun _ _ => nofun) rfl⟩
  | cancelled openedAt seen hseen fields nowMs droppedAt =>
    have hbefore : ∀ e ∈ seen, e.1.closes = false :=
      fun e he => AttemptEvent.closes_of_reading (hseen e he)
    exact ⟨_, _, _, @Closing.of_streamed _ (.cancelled fields, nowMs) (.dropped, droppedAt)
      openedAt hbefore rfl (fun _ _ => nofun) rfl⟩

/-! ## A sample attempt -/

def sampleStart : LogicalRequestStart :=
  ⟨"request", "owner", some "key", none, none, some .responses, none, none, none, 0⟩

def sampleSpec : AttemptSpec where
  provider := .grok
  accountId := "account"
  credentialIdentityRevision := .lit 0 (Eq.refl true)
  configuredModel := some "model"
  pricingModelAlias := none
  contract := sampleContract ⟨true, false, true, true, false, false, false, .reported⟩
  price := .catalogUnavailable
  reportedModelPricing := none

/-- Without a cache, and with a price for the input. -/
def uncachedSpec (price : String) : AttemptSpec :=
  { sampleSpec with
    contract :=
      { sampleSpec.contract with
        cacheCapability := .unsupported
        cacheEligibility := .notApplicable
        cacheReportingExpectation := .notExpected }
    price := modelPriceResolution (some ⟨.manual, { input := some price }⟩) }

end ProviderCore.Usage
