import ProviderCore.Usage.AttemptLife
import ProviderCore.Usage.QuotaAccount

/-!
# The run of a finite-quota request

Who owns what while a request is served: `proxy_prepared_stream` and `observe_delivery` of
`provider-server/src/http.rs`, with the trackers they keep alive.  The handler, and after it the
body, owns the logical tracker; the future of `execute_stream`, and after it the response stream,
owns the attempt trackers.

A tracker may be called by any thread that holds it, and closing one is two critical sections:
the facts are built under the attempt's lock and reported under the request's.  An ending is the
program that the source has for it: drop the future or the stream, record, finish, drop the logical
tracker.  Dropping the owner of the attempts runs the destructor of each of them, one after the
other.  That no attempt is alive when the request finishes is a result.  A step whose sum leaves
128 bits panics and is not a step here.
-/

namespace ProviderCore.Usage

open List

/-- An attempt tracker that is alive, with the report of a close that is under way: the tracker
as it closed, and its facts. -/
structure LiveAttempt where
  tracker : AttemptTracker
  pending : Option (AttemptTracker × AttemptFacts) := none

namespace LiveAttempt

def call (requestId : String) (live : LiveAttempt) (event : AttemptEvent) (nowMs : ℤ) :
    LiveAttempt :=
  let (tracker, facts) := live.tracker.observe requestId event nowMs
  { tracker := tracker
    pending := live.pending.or (facts.map fun facts => (tracker, facts)) }

/-- Whether the request still has to hear of the attempt's close. -/
def unreported (live : LiveAttempt) : Bool := !live.tracker.state.closed || live.pending.isSome

/-- A report under way is that of this tracker, which is closed. -/
structure WellFormed (live : LiveAttempt) : Prop where
  closed : live.pending.isSome → live.tracker.state.closed = true
  own : ∀ report ∈ live.pending, report.2.attemptId = live.tracker.attemptId

end LiveAttempt

/-- What happens to a tracker when its owner is dropped: the calls that the owner's destructor
makes on it (`report_cancelled`), then the tracker's own destructor. -/
def LiveAttempt.destroyed (requestId : String) (live : LiveAttempt) (calls : List TimedEvent)
    (nowMs : ℤ) : LiveAttempt :=
  (calls ++ [(AttemptEvent.dropped, nowMs)]).foldl
    (fun live timed => live.call requestId timed.1 timed.2) live

/-- What the handler or the body does with the logical tracker at an ending. -/
inductive Statement
  | recordExecution (outcome : ExecutionOutcome)
  | recordDelivery (outcome : DeliveryOutcome)
  | finish
  /-- The handle of the handler or the body goes.  It is the last one, as the attempts and the
  future that has the others went before it: the destructor of the logical tracker runs. -/
  | drop
deriving DecidableEq

/-- How a request ends for the handler or the body. -/
inductive Ending
  /-- An error before the stream (`finish_before_bytes`). -/
  | errorBeforeStream
  | handlerDropped
  /-- The body failed, before or after its first bytes. -/
  | bodyError (sentBytes : Bool)
  | bodyEnd
  | bodyDropped
deriving DecidableEq

/-- The statements behind the drop of the future or the stream.  The body is dropped at last even
if it has ended before. -/
def Ending.statements : Ending → List Statement
  | .errorBeforeStream =>
    [.recordExecution .stableFailure, .recordDelivery .errorBeforeBytes, .finish, .drop]
  | .handlerDropped => [.drop]
  | .bodyError sentBytes =>
    [.recordExecution .translatorOrStreamError,
      .recordDelivery (if sentBytes then .errorAfterBytes else .errorBeforeBytes),
      .finish] ++ dropped
  | .bodyEnd => [.recordDelivery .cleanEof, .finish] ++ dropped
  | .bodyDropped => dropped
where
  dropped := [.recordDelivery .clientDrop, .finish, .drop]

inductive Phase
  /-- The handler has not started the execution. -/
  | admitting
  /-- `execute_stream` is running. -/
  | executing
  /-- The body owns the response stream. -/
  | delivering (sentBytes : Bool)
  /-- The future or the stream is to be dropped, and the rest to be run. -/
  | dropping (rest : List Statement)
  | running (rest : List Statement)
deriving DecidableEq

def Phase.mayEnd : Phase → Ending → Bool
  | .admitting, .handlerDropped | .executing, .errorBeforeStream | .executing, .handlerDropped
  | .delivering _, .bodyEnd | .delivering _, .bodyDropped => true
  | .delivering sentBytes, .bodyError sent => sentBytes == sent
  | _, _ => false

structure RequestState where
  logical : LogicalState
  phase : Phase
  live : List LiveAttempt
  /-- The ids of the attempts opened so far. -/
  opened : List String
  /-- The facts the logical tracker has heard of, in order. -/
  closed : List AttemptFacts
  /-- The ledger entries submitted. -/
  entries : List QuotaLedgerEntry

namespace RequestState

def initial : RequestState := ⟨{ quotaPermit := true }, .admitting, [], [], [], []⟩

variable (start : LogicalRequestStart) (catalog : Option CatalogSnapshot) (nowMs : ℤ)
  (s : RequestState)

def opening (spec : AttemptSpec) : RequestState :=
  let (tracker, logical) := s.logical.openAttempt start catalog spec nowMs
  { s with
    logical := logical
    live := s.live ++ [⟨tracker, none⟩]
    opened := s.opened ++ [tracker.attemptId] }

def terminated (result : Option Terminal × LogicalState) : RequestState :=
  { s with
    logical := result.2
    entries := s.entries ++ (result.1.bind (·.quota)).toList }

/-- The end of a tracker, of which only these live on. -/
def destroy (live : List LiveAttempt) (attempt : LiveAttempt) (calls : List TimedEvent) :
    Option RequestState :=
  match (attempt.destroyed start.requestId calls nowMs).pending with
  | none => some { s with live := live }
  | some (tracker, facts) =>
    (s.logical.noteClosed tracker facts).map fun logical =>
      { s with logical := logical, live := live, closed := s.closed ++ [facts] }

/-- The drop of the owner of the attempts, which go in the order of the list. -/
def dropInner (calls : LiveAttempt → List TimedEvent) :
    List LiveAttempt → RequestState → Option RequestState
  | [], s => some { s with live := [] }
  | attempt :: rest, s =>
    (s.destroy start nowMs rest attempt (calls attempt)).bind (dropInner calls rest)

def run : Statement → RequestState
  | .recordExecution outcome => { s with logical := s.logical.recordExecution outcome }
  | .recordDelivery outcome => { s with logical := s.logical.recordDelivery outcome }
  | .finish => s.terminated (s.logical.finish start nowMs)
  | .drop => s.terminated (s.logical.drop start nowMs)

end RequestState

inductive RequestStep (start : LogicalRequestStart) (catalog : Option CatalogSnapshot)
    (s : RequestState) : RequestState → Prop
  /-- The dispatch marker is stored and the execution starts. -/
  | dispatch : s.phase = .admitting →
      RequestStep start catalog s
        { s with logical := s.logical.markQuotaDispatched, phase := .executing }
  /-- Admission, routing or the dispatch marker failed: there is no future to drop yet. -/
  | reject : s.phase = .admitting →
      RequestStep start catalog s
        { s with phase := .running Ending.errorBeforeStream.statements }
  | openAttempt (spec : AttemptSpec) (nowMs : ℤ) : s.phase = .executing →
      RequestStep start catalog s (s.opening start catalog nowMs spec)
  /-- Any method of a live tracker. -/
  | call {before after : List LiveAttempt} {attempt : LiveAttempt} (event : AttemptEvent)
      (nowMs : ℤ) : s.live = before ++ attempt :: after →
      RequestStep start catalog s
        { s with live := before ++ attempt.call start.requestId event nowMs :: after }
  /-- The close of a live tracker reaches the request. -/
  | report {before after : List LiveAttempt} {attempt : LiveAttempt} {tracker : AttemptTracker}
      {facts : AttemptFacts} {logical : LogicalState} : s.live = before ++ attempt :: after →
      attempt.pending = some (tracker, facts) → s.logical.noteClosed tracker facts = some logical →
      RequestStep start catalog s
        { s with
          logical := logical
          live := before ++ { attempt with pending := none } :: after
          closed := s.closed ++ [facts] }
  /-- The execution or the stream is done with an attempt. -/
  | destroy {before after : List LiveAttempt} {attempt : LiveAttempt} {s' : RequestState}
      (calls : List TimedEvent) (nowMs : ℤ) : s.live = before ++ attempt :: after →
      s.destroy start nowMs (before ++ after) attempt calls = some s' →
      RequestStep start catalog s s'
  /-- The execution returned a stream, which becomes the body. -/
  | streamReturned : s.phase = .executing →
      RequestStep start catalog s { s with phase := .delivering false }
  | chunk {sentBytes : Bool} : s.phase = .delivering sentBytes →
      RequestStep start catalog s { s with phase := .delivering true }
  /-- The execution fails, the body fails or ends, or whoever serves the request goes away. -/
  | ending {ending : Ending} : s.phase.mayEnd ending = true →
      RequestStep start catalog s { s with phase := .dropping ending.statements }
  | dropInner {rest : List Statement} {live : List LiveAttempt} {s' : RequestState}
      (calls : LiveAttempt → List TimedEvent) (nowMs : ℤ) : s.phase = .dropping rest →
      live.Perm s.live → s.dropInner start nowMs calls live = some s' →
      RequestStep start catalog s { s' with phase := .running rest }
  | run {statement : Statement} {rest : List Statement} (nowMs : ℤ) :
      s.phase = .running (statement :: rest) →
      RequestStep start catalog s { s.run start nowMs statement with phase := .running rest }

/-! ## One call on a live tracker -/

variable {facts : AttemptFacts}

/-- The facts a call submits are those of its tracker. -/
theorem AttemptTracker.observe_facts {attempt : AttemptTracker} {requestId : String}
    {event : AttemptEvent} {nowMs : ℤ}
    (h : (attempt.observe requestId event nowMs).2 = some facts) :
    facts.attemptId = attempt.attemptId ∧
      (attempt.observe requestId event nowMs).1.state.closed = true := by
  cases hopen : attempt.state.closed with
  | true => simp [(observe_of_closed requestId event nowMs hopen).2] at h
  | false =>
    cases hcloses : event.closes with
    | true =>
      obtain ⟨hclosed, hfacts⟩ := observe_of_closes requestId nowMs hcloses hopen
      rw [hfacts] at h
      cases h
      exact ⟨rfl, hclosed⟩
    | false => simp [@observe_of_not_closes requestId attempt event nowMs hcloses] at h

namespace LiveAttempt

variable {live : LiveAttempt} (requestId : String) (event : AttemptEvent) (nowMs : ℤ)

theorem wellFormed_of_no_report (tracker : AttemptTracker) : WellFormed ⟨tracker, none⟩ :=
  ⟨by simp, by simp⟩

theorem call_attemptId :
    (live.call requestId event nowMs).tracker.attemptId = live.tracker.attemptId := by
  simp only [LiveAttempt.call, AttemptTracker.observe, AttemptTracker.close]
  split
  · split <;> rfl
  · rfl

theorem WellFormed.call (h : live.WellFormed) : (live.call requestId event nowMs).WellFormed := by
  rcases hfacts : (live.tracker.observe requestId event nowMs).2 with _ | facts
  · have hpending : (live.call requestId event nowMs).pending = live.pending := by
      simp [LiveAttempt.call, hfacts]
    refine ⟨fun hsome => ?_, fun report hreport => ?_⟩
    · rw [hpending] at hsome
      exact (AttemptTracker.observe_of_closed requestId event nowMs (h.closed hsome)).1
    · rw [hpending] at hreport
      rw [call_attemptId]
      exact h.own report hreport
  · obtain ⟨hid, hclosed⟩ := AttemptTracker.observe_facts hfacts
    refine ⟨fun _ => hclosed, fun report hreport => ?_⟩
    rw [call_attemptId]
    rcases hpending : live.pending with _ | pending
    · simp only [LiveAttempt.call, hpending, hfacts, Option.map_some, Option.none_or,
        Option.mem_def, Option.some.injEq] at hreport
      rw [← hreport]
      exact hid
    · simp only [LiveAttempt.call, hpending, Option.some_or, Option.mem_def,
        Option.some.injEq] at hreport
      exact hreport ▸ h.own pending hpending

/-- A call neither reports an attempt nor makes it report again. -/
theorem call_unreported : (live.call requestId event nowMs).unreported = live.unreported := by
  cases hopen : live.tracker.state.closed with
  | true =>
    obtain ⟨hclosed, hnone⟩ :=
      AttemptTracker.observe_of_closed requestId event nowMs hopen
    simp [unreported, LiveAttempt.call, hclosed, hnone, hopen]
  | false =>
    cases hcloses : event.closes with
    | true =>
      obtain ⟨-, hsome⟩ := AttemptTracker.observe_of_closes requestId nowMs hcloses hopen
      simp [unreported, LiveAttempt.call, hsome, hopen]
    | false =>
      have hstep := @AttemptTracker.observe_of_not_closes requestId live.tracker event nowMs
        hcloses
      simp [unreported, LiveAttempt.call, hstep, event.apply_closed, hopen]

/-- What any number of calls leaves as it was. -/
theorem foldl_call (calls : List TimedEvent) {live : LiveAttempt} (h : live.WellFormed) :
    let after := calls.foldl (fun live timed => live.call requestId timed.1 timed.2) live
    after.WellFormed ∧ after.tracker.attemptId = live.tracker.attemptId ∧
      after.unreported = live.unreported := by
  induction calls generalizing live with
  | nil => exact ⟨h, rfl, rfl⟩
  | cons timed calls ih =>
    obtain ⟨hwell, hid, hunreported⟩ := ih (h.call requestId timed.1 timed.2)
    exact ⟨hwell, hid.trans (call_attemptId _ _ _), hunreported.trans (call_unreported _ _ _)⟩

/-- The destructor leaves no attempt open, and makes no report of its own. -/
theorem WellFormed.destroyed (h : live.WellFormed) (calls : List TimedEvent) :
    let gone := live.destroyed requestId calls nowMs
    gone.WellFormed ∧ gone.tracker.attemptId = live.tracker.attemptId ∧
      gone.unreported = live.unreported ∧ gone.tracker.state.closed = true := by
  obtain ⟨hwell, hid, hunreported⟩ := foldl_call requestId (calls ++ [(.dropped, nowMs)]) h
  refine ⟨hwell, hid, hunreported, ?_⟩
  rw [LiveAttempt.destroyed, foldl_append]
  generalize calls.foldl (fun live timed => live.call requestId timed.1 timed.2) live = last
  show (last.tracker.observe requestId .dropped nowMs).1.state.closed = true
  cases hopen : last.tracker.state.closed with
  | true => exact (AttemptTracker.observe_of_closed requestId .dropped nowMs hopen).1
  | false => exact (AttemptTracker.observe_of_closes requestId nowMs rfl hopen).1

end LiveAttempt

/-! ## The invariant -/

/-- The ids of the live attempts whose close the request has not heard of. -/
def unreportedIds (live : List LiveAttempt) : List String :=
  (live.filter (·.unreported)).map (·.tracker.attemptId)

/-- A ledger entry accounts for the closed attempts: it lists the dispatched ones, and carries the
sum of their complete costs unless the request was not dispatched or none has one. -/
structure AccountsFor (entry : QuotaLedgerEntry) (closed : List AttemptFacts) : Prop where
  attempts : entry.attempts = dispatchedAttempts closed
  cost : ∀ text ∈ entry.costAtoms, text = toString (completeTotal (dispatchedAttempts closed))
  absent : entry.costAtoms = none ↔
    entry.dispatched = false ∨ ∀ facts ∈ dispatchedAttempts closed, facts.isComplete = false

/-- The account of a finite-quota request: what it was told, or the entry it submitted. -/
structure RequestState.Sound (s : RequestState) : Prop where
  wellFormed : ∀ attempt ∈ s.live, attempt.WellFormed
  balance : s.opened.Perm (s.closed.map (·.attemptId) ++ unreportedIds s.live)
  running : s.logical.finished = false → s.entries = [] ∧ s.logical.Accounts s.closed
  settled : s.logical.finished = true → s.live = [] ∧
    ∃ entry, s.entries = [entry] ∧ AccountsFor entry s.closed

/-- Whether what owns the attempts does not exist yet, or no longer. -/
def Phase.unowned : Phase → Bool
  | .admitting | .running _ => true
  | _ => false

/-- The statements left to run, once an ending has begun. -/
def Phase.rest? : Phase → Option (List Statement)
  | .dropping rest | .running rest => some rest
  | _ => none

/-- Where the attempts and the terminal are: no attempt lives outside of its owner, and what is left
to run finishes the request unless something did. -/
structure RequestState.Placed (s : RequestState) : Prop where
  unowned : s.phase.unowned = true → s.live = []
  serving : s.phase.rest? = none → s.logical.finished = false
  ending : ∀ rest ∈ s.phase.rest?, s.logical.finished = true ∨ .drop ∈ rest

variable {before after : List LiveAttempt}

/-- Replacing an attempt by one with the same name and the same report to make. -/
theorem unreportedIds_replace {attempt attempt' : LiveAttempt}
    (hid : attempt'.tracker.attemptId = attempt.tracker.attemptId)
    (hreport : attempt'.unreported = attempt.unreported) :
    unreportedIds (before ++ attempt' :: after) = unreportedIds (before ++ attempt :: after) := by
  cases hunreported : attempt.unreported <;>
    simp [unreportedIds, hid, hreport, hunreported]

theorem unreportedIds_reported {attempt : LiveAttempt} (h : attempt.unreported = false) :
    unreportedIds (before ++ attempt :: after) = unreportedIds (before ++ after) := by
  simp [unreportedIds, h]

theorem LogicalState.noteClosed_finished {state state' : LogicalState} {attempt : AttemptTracker}
    (h : state.noteClosed attempt facts = some state') : state'.finished = state.finished := by
  have hfinal : ∀ attemptId sequence execution,
      (state.noteFinalAttempt attemptId sequence execution).finished = state.finished := by
    intro attemptId sequence execution
    unfold LogicalState.noteFinalAttempt
    split <;> rfl
  obtain ⟨_, _, _, _, rfl⟩ := noteQuotaResult_eq_some h
  exact hfinal _ _ _

namespace RequestState

variable {s s' : RequestState} {start : LogicalRequestStart} {catalog : Option CatalogSnapshot}
  {nowMs : ℤ}

theorem sound_initial : initial.Sound :=
  ⟨by simp [initial], by simp [initial, unreportedIds],
    fun _ => ⟨rfl, LogicalState.accounts_nil⟩, nofun⟩

theorem placed_initial : initial.Placed := ⟨fun _ => rfl, fun _ => rfl, nofun⟩

theorem Sound.opening (h : s.Sound) (spec : AttemptSpec)
    (hunfinished : s.logical.finished = false) : (s.opening start catalog nowMs spec).Sound := by
  obtain ⟨hentries, haccounts⟩ := h.running hunfinished
  refine ⟨?_, ?_, fun _ => ⟨hentries, haccounts.openAttempt start catalog spec nowMs⟩,
    fun hfinished => absurd (hunfinished.symm.trans hfinished) nofun⟩
  · exact forall_mem_append.mpr ⟨h.wellFormed,
      forall_mem_singleton.mpr (LiveAttempt.wellFormed_of_no_report _)⟩
  · show List.Perm (s.opened ++ _) (_ ++ unreportedIds (s.live ++ _))
    rw [unreportedIds, filter_append, map_append, ← append_assoc]
    exact h.balance.append_right _

variable {before after : List LiveAttempt} {attempt : LiveAttempt}

section

variable (h : s.Sound) (hlive : s.live = before ++ attempt :: after)

include h hlive

/-- A request with a live attempt has not finished. -/
theorem Sound.unfinished : s.logical.finished = false := by
  by_contra hfinished
  simp [(h.settled (by simpa using hfinished)).1] at hlive

theorem Sound.wellFormed_live : (∀ a ∈ before, a.WellFormed) ∧ attempt.WellFormed ∧
    ∀ a ∈ after, a.WellFormed := by
  have hwell := h.wellFormed
  rwa [hlive, forall_mem_append, forall_mem_cons] at hwell

/-- The live attempts may change as long as the same ones have to report. -/
theorem Sound.setLive {live : List LiveAttempt} (hwell : ∀ attempt ∈ live, attempt.WellFormed)
    (hids : unreportedIds live = unreportedIds (before ++ attempt :: after)) :
    ({ s with live := live } : RequestState).Sound := by
  have hbalance := h.balance
  rw [hlive, ← hids] at hbalance
  have hunfinished := h.unfinished hlive
  exact ⟨hwell, hbalance, h.running,
    fun hfinished => absurd (hunfinished.symm.trans hfinished) nofun⟩

/-- A live tracker may change as long as it has the same report to make. -/
theorem Sound.replace {attempt' : LiveAttempt} (hwell : attempt'.WellFormed)
    (hid : attempt'.tracker.attemptId = attempt.tracker.attemptId)
    (hreport : attempt'.unreported = attempt.unreported) :
    ({ s with live := before ++ attempt' :: after } : RequestState).Sound := by
  obtain ⟨hbefore, -, hafter⟩ := h.wellFormed_live hlive
  refine h.setLive hlive ?_ (unreportedIds_replace hid hreport)
  rw [forall_mem_append, forall_mem_cons]
  exact ⟨hbefore, hwell, hafter⟩

/-- A report moves one attempt from the unreported to the closed. -/
theorem Sound.report {tracker : AttemptTracker} {facts : AttemptFacts} {logical : LogicalState}
    (hpending : attempt.pending = some (tracker, facts))
    (hnote : s.logical.noteClosed tracker facts = some logical) :
    ({ s with
      logical := logical
      live := before ++ { attempt with pending := none } :: after
      closed := s.closed ++ [facts] } : RequestState).Sound := by
  have hunfinished := h.unfinished hlive
  have hstill := (LogicalState.noteClosed_finished hnote).trans hunfinished
  obtain ⟨hentries, haccounts⟩ := h.running hunfinished
  obtain ⟨hbefore, ⟨hclosed, hown⟩, hafter⟩ := h.wellFormed_live hlive
  have hid : facts.attemptId = attempt.tracker.attemptId := hown _ hpending
  refine ⟨?_, ?_, fun _ => ⟨hentries, haccounts.noteClosed hnote⟩,
    fun hfinished => absurd (hstill.symm.trans hfinished) nofun⟩
  · rw [forall_mem_append, forall_mem_cons]
    exact ⟨hbefore, LiveAttempt.wellFormed_of_no_report _, hafter⟩
  · have hdone : ({ attempt with pending := none } : LiveAttempt).unreported = false := by
      simp [LiveAttempt.unreported, hclosed (by simp [hpending])]
    have hwas : attempt.unreported = true := by simp [LiveAttempt.unreported, hpending]
    refine h.balance.trans ?_
    rw [hlive, unreportedIds_reported hdone]
    simp only [unreportedIds, hwas, hid, filter_append, filter_cons, if_true,
      map_append, map_cons, map_nil, append_assoc]
    exact List.Perm.append_left _ perm_middle

/-- A tracker that is gone had nothing left to report. -/
theorem Sound.free (hdone : attempt.unreported = false) :
    ({ s with live := before ++ after } : RequestState).Sound := by
  obtain ⟨hbefore, -, hafter⟩ := h.wellFormed_live hlive
  refine h.setLive hlive ?_ (unreportedIds_reported hdone).symm
  rw [forall_mem_append]
  exact ⟨hbefore, hafter⟩

end

end RequestState

/-! ## The terminal -/

namespace LogicalState

variable {state : LogicalState} {closed : List AttemptFacts}

/-- The ledger entry of an account accounts for the closed attempts. -/
theorem Accounts.accountsFor (h : state.Accounts closed) (start : LogicalRequestStart)
    (nowMs : ℤ) : AccountsFor (Usage.quotaEntry start state nowMs) closed := by
  obtain ⟨hattempts, hdispatched, hcost⟩ := h.quotaEntry start nowMs
  refine ⟨hattempts, ?_, ?_⟩
  · intro text htext
    rw [hcost] at htext
    split at htext
    · exact (Option.some.inj htext).symm
    · cases htext
  · rw [hcost, hdispatched]
    by_cases hsent : state.quotaDispatched = true
    · simp [hsent]
    · simp [hsent]

/-- Finishing an unfinished account submits its entry. -/
theorem Accounts.finish (h : state.Accounts closed) (start : LogicalRequestStart) (nowMs : ℤ)
    (hunfinished : state.finished = false) :
    (state.finish start nowMs).2.finished = true ∧
      ((state.finish start nowMs).1.bind (·.quota)).toList =
        [Usage.quotaEntry start state nowMs] := by
  simp [LogicalState.finish, hunfinished, h.permit]

end LogicalState

namespace RequestState

variable {s s' : RequestState} {start : LogicalRequestStart} {catalog : Option CatalogSnapshot}
  {nowMs : ℤ}

/-- A change to the logical tracker that neither finishes it nor touches the account. -/
theorem Sound.setLogical (h : s.Sound) {logical : LogicalState}
    (hfinished : logical.finished = s.logical.finished)
    (haccounts : s.logical.Accounts s.closed → logical.Accounts s.closed) :
    ({ s with logical := logical } : RequestState).Sound :=
  ⟨h.wellFormed, h.balance,
    fun hrunning => ⟨(h.running (hfinished.symm.trans hrunning)).1,
      haccounts (h.running (hfinished.symm.trans hrunning)).2⟩,
    fun hsettled => h.settled (hfinished.symm.trans hsettled)⟩

/-- Finishing settles an account whose attempts are all gone; a second time it does nothing. -/
theorem Sound.terminated (h : s.Sound) (hlive : s.live = []) :
    (s.terminated (s.logical.finish start nowMs)).Sound ∧
      (s.terminated (s.logical.finish start nowMs)).logical.finished = true := by
  cases hfinished : s.logical.finished with
  | true =>
    rw [LogicalState.finish, if_pos hfinished]
    refine ⟨⟨h.wellFormed, h.balance, fun hrunning => ?_, fun _ => ?_⟩, hfinished⟩
    · exact absurd (hfinished.symm.trans hrunning) nofun
    · simpa [RequestState.terminated] using h.settled hfinished
  | false =>
    obtain ⟨hentries, haccounts⟩ := h.running hfinished
    obtain ⟨hdone, hentry⟩ := haccounts.finish start nowMs hfinished
    refine ⟨⟨h.wellFormed, h.balance, fun hrunning => absurd (hdone.symm.trans hrunning) nofun,
      fun _ => ⟨hlive, quotaEntry start s.logical nowMs, ?_,
        haccounts.accountsFor start nowMs⟩⟩, hdone⟩
    simp only [RequestState.terminated, hentries, hentry, nil_append]

theorem recordDelivery_finished (logical : LogicalState) (outcome : DeliveryOutcome) :
    (logical.recordDelivery outcome).finished = logical.finished := by
  simp only [LogicalState.recordDelivery, apply_ite LogicalState.finished, ite_self]

/-- The account does not depend on the phase. -/
theorem Sound.setPhase (h : s.Sound) (phase : Phase) :
    ({ s with phase := phase } : RequestState).Sound :=
  ⟨h.wellFormed, h.balance, h.running, h.settled⟩

/-- The tracker's destructor finishes the request, if nothing else did. -/
theorem Sound.terminated_drop (h : s.Sound) (hlive : s.live = []) :
    (s.terminated (s.logical.drop start nowMs)).Sound ∧
      (s.terminated (s.logical.drop start nowMs)).logical.finished = true := by
  cases hfinished : s.logical.finished with
  | true =>
    have hdrop : s.logical.drop start nowMs = s.logical.finish start nowMs := by
      simp [LogicalState.drop, LogicalState.finish, hfinished]
    rw [hdrop]
    exact h.terminated hlive
  | false =>
    have hsound := h.setLogical (recordDelivery_finished s.logical .clientDrop)
      fun haccounts => haccounts.recordDelivery _
    rw [LogicalState.drop, if_neg (by simp [hfinished])]
    exact hsound.terminated hlive

/-- The end of one of the live trackers. -/
theorem Sound.destroy {before after : List LiveAttempt} {attempt : LiveAttempt}
    {calls : List TimedEvent} (h : s.Sound) (hlive : s.live = before ++ attempt :: after)
    (hdestroy : s.destroy start nowMs (before ++ after) attempt calls = some s') :
    s'.Sound ∧ s'.live = before ++ after ∧ s'.phase = s.phase ∧
      s'.logical.finished = s.logical.finished := by
  obtain ⟨hwell, hid, hunreported, hclosed⟩ :=
    (h.wellFormed_live hlive).2.1.destroyed start.requestId nowMs calls
  have hreplaced := h.replace hlive hwell hid hunreported
  unfold RequestState.destroy at hdestroy
  split at hdestroy
  next hpending =>
    cases hdestroy
    exact ⟨hreplaced.free rfl (by simp [LiveAttempt.unreported, hclosed, hpending]), rfl, rfl, rfl⟩
  next tracker facts hpending =>
    obtain ⟨logical, hnote, rfl⟩ := Option.map_eq_some_iff.mp hdestroy
    have hreported := hreplaced.report rfl hpending hnote
    exact ⟨hreported.free rfl (by simp [LiveAttempt.unreported, hclosed]), rfl, rfl,
      LogicalState.noteClosed_finished hnote⟩

/-- The attempts may be taken in any order. -/
theorem Sound.perm {live : List LiveAttempt} (h : s.Sound) (hperm : live.Perm s.live) :
    ({ s with live := live } : RequestState).Sound := by
  refine ⟨fun attempt hattempt => h.wellFormed attempt (hperm.subset hattempt), ?_, h.running,
    fun hfinished => ?_⟩
  · exact h.balance.trans (((hperm.filter _).map _).symm.append_left _)
  · obtain ⟨hlive, hentry⟩ := h.settled hfinished
    exact ⟨perm_nil.mp (hlive ▸ hperm), hentry⟩

/-- When the owner of the attempts has been dropped, none is left. -/
theorem Sound.dropInner {calls : LiveAttempt → List TimedEvent} {live : List LiveAttempt}
    (h : ({ s with live := live } : RequestState).Sound)
    (hdrop : s.dropInner start nowMs calls live = some s') :
    s'.Sound ∧ s'.live = [] ∧ s'.logical.finished = s.logical.finished := by
  induction live generalizing s with
  | nil =>
    cases hdrop
    exact ⟨h, rfl, rfl⟩
  | cons attempt rest ih =>
    obtain ⟨mid, hdestroy, hrest⟩ := Option.bind_eq_some_iff.mp hdrop
    obtain ⟨hsound, hlive, -, hfinished⟩ :=
      @Sound.destroy { s with live := attempt :: rest } mid start nowMs [] rest attempt _ h rfl
        hdestroy
    have hmid : ({ mid with live := rest } : RequestState) = mid := by
      rw [← show mid.live = rest from hlive]
    obtain ⟨hsound', hgone, hfinished'⟩ := ih (hmid ▸ hsound) hrest
    exact ⟨hsound', hgone, hfinished'.trans hfinished⟩

/-- The attempts may change, but for new ones, and the rest stays in place. -/
theorem Placed.setLive (h : s.Placed) (hlive : s.live = [] → s'.live = [])
    (hphase : s'.phase = s.phase) (hfinished : s'.logical.finished = s.logical.finished) :
    s'.Placed := by
  refine ⟨fun hunowned => hlive (h.unowned (hphase ▸ hunowned)), ?_, ?_⟩ <;>
    rw [hphase, hfinished]
  · exact h.serving
  · exact h.ending

theorem placed_of_running {rest : List Statement} (hphase : s.phase = .running rest)
    (hlive : s.live = []) (hending : s.logical.finished = true ∨ .drop ∈ rest) : s.Placed := by
  refine ⟨fun _ => hlive, ?_, ?_⟩
  · rw [hphase]
    exact nofun
  · rw [hphase]
    rintro _ ⟨⟩
    exact hending

/-- One statement of an ending. -/
theorem Sound.run {statement : Statement} {rest : List Statement} (h : s.Sound)
    (hplaced : s.Placed) (hphase : s.phase = .running (statement :: rest)) :
    (s.run start nowMs statement).Sound ∧
      ({ s.run start nowMs statement with phase := .running rest } : RequestState).Placed := by
  have hlive : s.live = [] := hplaced.unowned (by rw [hphase]; rfl)
  have hending := hplaced.ending (statement :: rest) (by rw [hphase]; rfl)
  cases statement with
  | recordExecution outcome =>
    have hfinished : (s.logical.recordExecution outcome).finished = s.logical.finished := by
      simp only [LogicalState.recordExecution, apply_ite LogicalState.finished, ite_self]
    exact ⟨h.setLogical hfinished fun haccounts => haccounts.recordExecution _,
      placed_of_running rfl hlive (by simpa [RequestState.run, hfinished] using hending)⟩
  | recordDelivery outcome =>
    have hfinished := recordDelivery_finished s.logical outcome
    exact ⟨h.setLogical hfinished fun haccounts => haccounts.recordDelivery _,
      placed_of_running rfl hlive (by simpa [RequestState.run, hfinished] using hending)⟩
  | finish =>
    obtain ⟨hsound, hfinished⟩ := @Sound.terminated s start nowMs h hlive
    exact ⟨hsound, placed_of_running rfl hlive (.inl hfinished)⟩
  | drop =>
    obtain ⟨hsound, hfinished⟩ := @Sound.terminated_drop s start nowMs h hlive
    exact ⟨hsound, placed_of_running rfl hlive (.inl hfinished)⟩

theorem inv_step (h : s.Sound) (hplaced : s.Placed) (hstep : RequestStep start catalog s s') :
    s'.Sound ∧ s'.Placed := by
  cases hstep with
  | dispatch hphase =>
    have hunfinished := hplaced.serving (by rw [hphase]; rfl)
    have hsound := @Sound.setLogical _ h s.logical.markQuotaDispatched rfl
      fun haccounts => haccounts.markQuotaDispatched
    exact ⟨hsound.setPhase _, nofun, fun _ => hunfinished, nofun⟩
  | reject hphase =>
    have hlive := hplaced.unowned (by rw [hphase]; rfl)
    exact ⟨h.setPhase _, placed_of_running rfl hlive (.inr (by decide))⟩
  | openAttempt spec nowMs hphase =>
    have hunfinished := hplaced.serving (by rw [hphase]; rfl)
    refine ⟨h.opening spec hunfinished, fun hunowned => ?_, fun _ => hunfinished,
      fun rest hmem => ?_⟩
    · exact absurd (hphase ▸ hunowned : Phase.executing.unowned = true) nofun
    · exact nomatch (hphase ▸ hmem : rest ∈ Phase.executing.rest?)
  | call event nowMs hlive =>
    obtain ⟨-, hattempt, -⟩ := h.wellFormed_live hlive
    exact ⟨h.replace hlive (hattempt.call _ _ _) (LiveAttempt.call_attemptId _ _ _)
      (LiveAttempt.call_unreported _ _ _), hplaced.setLive (by simp [hlive]) rfl rfl⟩
  | report hlive hpending hnote =>
    exact ⟨h.report hlive hpending hnote,
      hplaced.setLive (by simp [hlive]) rfl (LogicalState.noteClosed_finished hnote)⟩
  | destroy calls nowMs hlive hdestroy =>
    obtain ⟨hsound, -, hphase, hfinished⟩ := h.destroy hlive hdestroy
    exact ⟨hsound, hplaced.setLive (by simp [hlive]) hphase hfinished⟩
  | streamReturned hphase | chunk hphase =>
    have hunfinished := hplaced.serving (by rw [hphase]; rfl)
    exact ⟨h.setPhase _, nofun, fun _ => hunfinished, nofun⟩
  | @ending ending hmay =>
    refine ⟨h.setPhase _, nofun, nofun, ?_⟩
    rintro _ ⟨⟩
    cases ending <;> simp [Ending.statements, Ending.statements.dropped]
  | @dropInner rest live s' calls nowMs hphase hperm hdrop =>
    obtain ⟨hsound, hlive, hfinished⟩ := (h.perm hperm).dropInner hdrop
    have hending := hplaced.ending rest (by rw [hphase]; rfl)
    exact ⟨hsound.setPhase _, placed_of_running rfl hlive (hfinished ▸ hending)⟩
  | run nowMs hphase =>
    obtain ⟨hsound, hplaced'⟩ := h.run hplaced hphase
    exact ⟨hsound.setPhase _, hplaced'⟩

theorem inv_of_run (h : Relation.ReflTransGen (RequestStep start catalog) .initial s) :
    s.Sound ∧ s.Placed := by
  induction h with
  | refl => exact ⟨sound_initial, placed_initial⟩
  | tail _ hstep ih => exact inv_step ih.1 ih.2 hstep

end RequestState

/-- However a finite-quota request runs and ends, its terminal submits one ledger entry.  By then
every attempt opened for the request has closed and been reported, each once; the entry lists
those that were dispatched, and its cost is the sum of their complete costs, absent exactly when
the request was not dispatched or none of them has one. -/
theorem settlement_complete {start : LogicalRequestStart} {catalog : Option CatalogSnapshot}
    {s : RequestState} (h : Relation.ReflTransGen (RequestStep start catalog) .initial s) :
    (s.phase = .running [] → ∃ entry, s.entries = [entry]) ∧
      ∀ entry ∈ s.entries,
        s.live = [] ∧ (s.closed.map (·.attemptId)).Perm s.opened ∧
        entry.attempts = dispatchedAttempts s.closed ∧
        (∀ text ∈ entry.costAtoms, text = toString (completeTotal entry.attempts)) ∧
        (entry.costAtoms = none ↔
          entry.dispatched = false ∨ ∀ facts ∈ entry.attempts, facts.isComplete = false) := by
  obtain ⟨hsound, hplaced⟩ := RequestState.inv_of_run h
  refine ⟨fun hphase => ?_, fun entry hentry => ?_⟩
  · have hfinished := (hplaced.ending [] (by rw [hphase]; rfl)).resolve_right nofun
    obtain ⟨-, entry, hentries, -⟩ := hsound.settled hfinished
    exact ⟨entry, hentries⟩
  · have hfinished : s.logical.finished = true := by
      by_contra hnot
      simp [(hsound.running (by simpa using hnot)).1] at hentry
    obtain ⟨hlive, _, hentries, haccounts⟩ := hsound.settled hfinished
    rw [hentries, mem_singleton] at hentry
    subst hentry
    refine ⟨hlive, ?_, haccounts.attempts, ?_, ?_⟩
    · simpa [hlive, unreportedIds] using hsound.balance.symm
    · rw [haccounts.attempts]
      exact haccounts.cost
    · rw [haccounts.attempts]
      exact haccounts.absent

/-- The execution fails with its attempt still open: the drop of the future closes it. -/
theorem settlement_complete_failed : ∃ s,
    Relation.ReflTransGen (RequestStep sampleStart none) .initial s ∧ s.phase = .running [] ∧
      s.opened.length = 1 ∧ ∃ entry, s.entries = [entry] ∧ s.live = [] ∧
        entry.attempts.length = 1 := by
  let s₁ : RequestState :=
    { RequestState.initial with
      logical := RequestState.initial.logical.markQuotaDispatched, phase := .executing }
  let s₂ := s₁.opening sampleStart none 1 sampleSpec
  let s₃ : RequestState := { s₂ with phase := .dropping Ending.errorBeforeStream.statements }
  have h₁ : RequestStep sampleStart none .initial s₁ := .dispatch rfl
  have h₂ : RequestStep sampleStart none s₁ s₂ := .openAttempt sampleSpec 1 rfl
  have h₃ : RequestStep sampleStart none s₂ s₃ := .ending rfl
  have h₄ : RequestStep sampleStart none s₃ _ :=
    .dropInner (fun _ => [(.failed false none, 2)]) 3 rfl (.refl _) (Option.some_get rfl).symm
  have hrun := Relation.ReflTransGen.refl.tail h₁ |>.tail h₂ |>.tail h₃ |>.tail h₄
    |>.tail (.run 3 rfl) |>.tail (.run 3 rfl) |>.tail (.run 3 rfl) |>.tail (.run 3 rfl)
  obtain ⟨entry, hentry⟩ := (settlement_complete hrun).1 rfl
  obtain ⟨hlive, -, hattempts, -⟩ := (settlement_complete hrun).2 entry
    (by rw [hentry]; exact mem_singleton_self entry)
  exact ⟨_, hrun, rfl, rfl, entry, hentry, hlive, by rw [hattempts]; rfl⟩

end ProviderCore.Usage
