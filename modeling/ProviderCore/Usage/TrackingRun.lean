import ProviderCore.Lib.StopLog
import ProviderCore.Usage.AttemptLife

/-!
# The trackers of one request under concurrent calls

The trackers are shared: any thread that holds one may call it, and a call is a sequence of
critical sections.  `AttemptSection` are the sections on an attempt's state; the methods of
`AttemptTracking` are made of them (`AttemptEvent.apply_eq_sections`).  A `close` that finds the
attempt open builds its facts in one section, notes the attempt in the request's state in a
second (`note`), counts its cost in a third and submits the facts (`count`).

`TrackingStep` interleaves the sections of all calls on one request and its attempts in any
order.  What is kept of the language: a tracker is dropped after every call on it has returned,
and the request's tracker after those of its attempts, which hold it.  The count panics when the
sum of costs leaves 128 bits; the facts are then never submitted (`lost`).
-/

namespace ProviderCore.Usage

/-! ## Critical sections -/

/-- The critical sections on the state of an attempt, other than that of `close`. -/
inductive AttemptSection
  | advance (evidence : DispatchEvidence)
  | firstToken
  | successTerminal
  | providerModel (model : String)
  | observationLost
  | usage (raw : Option RawUsageFields)
  | cancelling (raw : Option RawUsageFields)
  | failing (reason : Option ProviderFailoverReason)
  | dropping
deriving DecidableEq

def AttemptSection.apply (nowMs : ℤ) (state : AttemptState) : AttemptSection → AttemptState
  | .advance evidence => state.advance evidence
  | .firstToken =>
    if state.firstTokenAtMs = none then { state with firstTokenAtMs := some nowMs } else state
  | .successTerminal => { state with successTerminal := true }
  | .providerModel model =>
    if state.providerReportedModel = none then
      { state with providerReportedModel := some model }
    else state
  | .observationLost => { state with tracking := .gap .observationLost }
  | .usage raw => state.recordUsage raw
  | .cancelling raw =>
    let state := state.recordUsage raw
    let state :=
      if state.tracking = .complete then { state with tracking := .gap .ambiguousCancel }
      else state
    { state with outcome := some .cancelled }
  | .failing reason =>
    { state with outcome := some .failed, failoverReason := reason.map mapFailoverReason }
  | .dropping =>
    if state.closed then state
    else { state with tracking := .gap .ambiguousCancel, outcome := some .cancelled }

/-- The sections a method runs before its close, if it closes. -/
def AttemptEvent.sections : AttemptEvent → List AttemptSection
  | .streamOpened => [.advance .responseObserved]
  | .firstTokenObserved => [.firstToken]
  | .successTerminalObserved => [.successTerminal]
  | .providerModelObserved model => [.providerModel model]
  | .observationLost => [.observationLost]
  | .finished fields => [.usage fields]
  | .cancelled fields => [.cancelling fields]
  | .failed answered reason =>
    [.advance (if answered then .responseObserved else .dispatchInvoked), .failing reason]
  | .dropped => [.dropping]

/-- A section with the reading of the clock at its time. -/
abbrev TimedSection := AttemptSection × ℤ

def AttemptState.runAll (state : AttemptState) (sections : List TimedSection) : AttemptState :=
  sections.foldl (fun state timed => timed.1.apply timed.2 state) state

theorem AttemptEvent.apply_eq_sections (event : AttemptEvent) (nowMs : ℤ) (state : AttemptState) :
    event.apply nowMs state = state.runAll (event.sections.map (·, nowMs)) := by
  cases event <;> rfl

/-! ## Attempts in a run -/

/-- What was run on an attempt tracker, and its closes. -/
abbrev TrackerLog := List (StopLog.Entry TimedSection ℤ)

/-- How far the close of an attempt has come. -/
inductive Stage
  | opened
  /-- The facts are built; the request has not heard of them. -/
  | built (facts : AttemptFacts) (execution : ExecutionOutcome)
  /-- The request has noted the attempt. -/
  | noted (facts : AttemptFacts)
  /-- Counted and submitted. -/
  | submitted
  /-- The count panicked. -/
  | lost
deriving DecidableEq

structure TrackedAttempt where
  tracker : AttemptTracker
  /-- Everything that was run on the tracker. -/
  log : TrackerLog := []
  stage : Stage := .opened
  /-- The facts that reached the usage writer. -/
  facts : List AttemptFacts := []
  dropped : Bool := false

namespace TrackedAttempt

def run (attempt : TrackedAttempt) (timed : TimedSection) : TrackedAttempt :=
  { attempt with
    tracker :=
      { attempt.tracker with state := timed.1.apply timed.2 attempt.tracker.state }
    log := attempt.log ++ [.run timed] }

def close (requestId : String) (nowMs : ℤ) (attempt : TrackedAttempt) : TrackedAttempt :=
  let (tracker, facts) := attempt.tracker.close requestId nowMs
  { attempt with
    tracker
    log := attempt.log ++ [.stop nowMs]
    stage := match facts with
      | some facts => .built facts attempt.tracker.state.executionOutcome
      | none => attempt.stage }

/-- No call that closes the attempt is under way. -/
def idle (attempt : TrackedAttempt) : Bool :=
  match attempt.stage with
  | .built _ _ | .noted _ => false
  | _ => true

/-- The destructor, whose close goes on as any other. -/
def drop (requestId : String) (nowMs : ℤ) (attempt : TrackedAttempt) : TrackedAttempt :=
  let dropped := { attempt with dropped := true }
  if attempt.tracker.state.closed then dropped
  else (dropped.run (.dropping, nowMs)).close requestId nowMs

/-- The request has heard of the attempt's close. -/
def isNoted (attempt : TrackedAttempt) : Bool :=
  match attempt.stage with
  | .opened | .built _ _ => false
  | _ => true

end TrackedAttempt

/-! ## Requests in a run -/

inductive RecordCall
  | execution (outcome : ExecutionOutcome)
  | delivery (outcome : DeliveryOutcome)
deriving DecidableEq

/-- What was recorded on the request's tracker, and its finishes. -/
abbrev RequestLog := List (StopLog.Entry RecordCall ℤ)

structure TrackingRun where
  logical : LogicalState
  log : RequestLog := []
  attempts : List TrackedAttempt := []
  /-- The terminals that reached the usage writer. -/
  terminals : List LogicalRequestTerminal := []
  /-- The request's tracker is dropped. -/
  released : Bool := false

/-- How a request begins: without a quota and perhaps with a gap, or holding a place in the quota
writer's queue, for which it needs a key. -/
inductive Begun (start : LogicalRequestStart) : LogicalState → Prop
  | plain (startGap : Option TrackingGapReason) : Begun start { startGap }
  | quota : start.apiKeyId.isSome → Begun start { quotaPermit := true }

inductive TrackingStep
  | openAttempt (spec : AttemptSpec) (nowMs : ℤ)
  | run (attempt : ℕ) (timed : TimedSection)
  | close (attempt : ℕ) (nowMs : ℤ)
  | note (attempt : ℕ)
  | count (attempt : ℕ)
  | dropAttempt (attempt : ℕ) (nowMs : ℤ)
  | markQuotaDispatched
  | record (call : RecordCall)
  | finish (nowMs : ℤ)
  | dropRequest (nowMs : ℤ)

namespace TrackingRun

def onAttempt (s : TrackingRun) (index : ℕ)
    (f : LogicalState → TrackedAttempt → Option (LogicalState × TrackedAttempt)) : TrackingRun :=
  match s.attempts[index]? with
  | none => s
  | some attempt => match f s.logical attempt with
    | none => s
    | some (logical, attempt) => { s with logical, attempts := s.attempts.set index attempt }

/-- The section that notes the final attempt. -/
def noteAttempt (logical : LogicalState) (attempt : TrackedAttempt) :
    Option (LogicalState × TrackedAttempt) :=
  match attempt.stage with
  | .built facts execution =>
    some (logical.noteFinalAttempt attempt.tracker.attemptId attempt.tracker.sequence execution,
      { attempt with stage := .noted facts })
  | _ => none

/-- The section that counts the cost, and the submission. -/
def countAttempt (logical : LogicalState) (attempt : TrackedAttempt) :
    Option (LogicalState × TrackedAttempt) :=
  match attempt.stage with
  | .noted facts => match logical.noteQuotaResult facts with
    | some logical =>
      some (logical, { attempt with stage := .submitted, facts := attempt.facts ++ [facts] })
    -- What the section has set before the sum panics stays set.
    | none => some ({ logical with
          quotaDispatched := true
          quotaHasCompleteCost := true
          quotaAttempts := if logical.quotaPermit then logical.quotaAttempts ++ [facts]
            else logical.quotaAttempts }, { attempt with stage := .lost })
  | _ => none

def record (s : TrackingRun) (call : RecordCall) : TrackingRun :=
  { s with
    logical := match call with
      | .execution outcome => s.logical.recordExecution outcome
      | .delivery outcome => s.logical.recordDelivery outcome
    log := s.log ++ [.run call] }

def finish (start : LogicalRequestStart) (nowMs : ℤ) (s : TrackingRun) : TrackingRun :=
  let (terminal, logical) := s.logical.finish start nowMs
  { s with
    logical
    log := s.log ++ [.stop nowMs]
    terminals := s.terminals ++ (terminal.map Terminal.terminal).toList }

def drop (start : LogicalRequestStart) (nowMs : ℤ) (s : TrackingRun) : TrackingRun :=
  let released := { s with released := true }
  if s.logical.finished then released
  else ((released.record (.delivery .clientDrop)).finish start nowMs)

/-- One section of some call, if it can happen. -/
def step (start : LogicalRequestStart) (catalog : Option CatalogSnapshot) (s : TrackingRun) :
    TrackingStep → TrackingRun
  | .openAttempt spec nowMs =>
    if s.released then s else
      let (tracker, logical) := s.logical.openAttempt start catalog spec nowMs
      { s with logical, attempts := s.attempts ++ [{ tracker }] }
  | .run index timed => s.onAttempt index fun logical attempt =>
      if attempt.dropped then none else some (logical, attempt.run timed)
  | .close index nowMs => s.onAttempt index fun logical attempt =>
      if attempt.dropped then none else some (logical, attempt.close start.requestId nowMs)
  | .note index => s.onAttempt index noteAttempt
  | .count index => s.onAttempt index countAttempt
  | .dropAttempt index nowMs => s.onAttempt index fun logical attempt =>
      if attempt.dropped || !attempt.idle then none
      else some (logical, attempt.drop start.requestId nowMs)
  | .markQuotaDispatched =>
    if s.released then s else { s with logical := s.logical.markQuotaDispatched }
  | .record call => if s.released then s else s.record call
  | .finish nowMs => if s.released then s else s.finish start nowMs
  | .dropRequest nowMs =>
    if s.released || s.attempts.any (fun attempt => !attempt.dropped || !attempt.idle) then s
    else s.drop start nowMs

end TrackingRun

end ProviderCore.Usage
