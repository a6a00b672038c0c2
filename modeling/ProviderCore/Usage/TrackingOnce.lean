import ProviderCore.Lib.Slots
import ProviderCore.Usage.TrackingRun

/-!
# Facts are submitted exactly once

The invariant of the runs of `TrackingRun`.  An attempt is described by its log: until the first
close its state is what the sections left, and afterwards whatever it has submitted are the facts
of that state (`TrackedAttempt.Sound`).  A request is described in the same way by its records
and finishes (`TrackingRun.RequestSound`).  Facts go missing only where the count of the costs
panics (`losing_step`).
-/

namespace ProviderCore.Usage

open List StopLog

/-! ## What the sections before a close leave -/

namespace AttemptSection

def usage? : AttemptSection → Option (Option RawUsageFields)
  | .usage raw | .cancelling raw => some raw
  | _ => none

def model? : AttemptSection → Option String
  | .providerModel model => some model
  | _ => none

def evidence? : AttemptSection → Option DispatchEvidence
  | .advance evidence => some evidence
  | _ => none

variable (section_ : AttemptSection) (nowMs : ℤ) (state : AttemptState)

theorem apply_closed : (section_.apply nowMs state).closed = state.closed := by
  cases section_ <;>
    simp [AttemptSection.apply, AttemptState.advance, AttemptState.recordUsage,
      apply_ite AttemptState.closed]

theorem apply_rawUsage :
    (section_.apply nowMs state).rawUsage = state.rawUsage.or section_.usage? := by
  cases section_ with
  | usage raw | cancelling raw =>
    rcases h : state.rawUsage with _ | known <;>
      simp [AttemptSection.apply, AttemptState.recordUsage, usage?, h,
        apply_ite AttemptState.rawUsage]
  | _ =>
    simp [AttemptSection.apply, AttemptState.advance, usage?, apply_ite AttemptState.rawUsage]

theorem apply_providerReportedModel :
    (section_.apply nowMs state).providerReportedModel =
      state.providerReportedModel.or section_.model? := by
  cases section_ with
  | providerModel model =>
    rcases h : state.providerReportedModel with _ | known <;>
      simp [AttemptSection.apply, model?, h]
  | _ =>
    simp [AttemptSection.apply, AttemptState.advance, AttemptState.recordUsage, model?,
      apply_ite AttemptState.providerReportedModel]

/-- A section raises the evidence to what it reports, or leaves it. -/
theorem apply_evidence :
    (section_.apply nowMs state).evidence = match section_.evidence? with
      | some evidence => if rank state.evidence < rank evidence then evidence else state.evidence
      | none => state.evidence := by
  cases section_ with
  | advance evidence =>
    simp [AttemptSection.apply, AttemptState.advance, evidence?, apply_ite AttemptState.evidence]
  | _ =>
    simp [AttemptSection.apply, AttemptState.recordUsage, evidence?,
      apply_ite AttemptState.evidence]

end AttemptSection

def firstUsage (sections : List TimedSection) : Option (Option RawUsageFields) :=
  sections.findSome? fun timed => timed.1.usage?

def firstModel (sections : List TimedSection) : Option String :=
  sections.findSome? fun timed => timed.1.model?

def reportedEvidence (sections : List TimedSection) : List DispatchEvidence :=
  sections.filterMap fun timed => timed.1.evidence?

namespace AttemptState

variable (state : AttemptState) (sections : List TimedSection)

theorem runAll_closed : (state.runAll sections).closed = state.closed := by
  induction sections generalizing state with
  | nil => rfl
  | cons timed _ ih => exact (ih _).trans (timed.1.apply_closed timed.2 state)

/-- A field that is set only once holds what was reported first. -/
theorem runAll_first {α : Type} {field : AttemptState → Option α}
    {report : AttemptSection → Option α}
    (h : ∀ (section_ : AttemptSection) nowMs state,
      field (section_.apply nowMs state) = (field state).or (report section_)) :
    field (state.runAll sections) =
      (field state).or (sections.findSome? fun timed => report timed.1) := by
  induction sections generalizing state with
  | nil => simp [runAll]
  | cons timed sections ih =>
    refine (ih _).trans ?_
    rw [h, Option.or_assoc]
    congr 1
    rcases hreport : report timed.1 <;> simp [hreport]

/-- The evidence is the highest of the one at the start and those reported. -/
theorem runAll_evidence :
    (state.runAll sections).evidence ∈ state.evidence :: reportedEvidence sections ∧
      ∀ evidence ∈ state.evidence :: reportedEvidence sections,
        rank evidence ≤ rank (state.runAll sections).evidence := by
  induction sections generalizing state with
  | nil => simp [runAll, reportedEvidence]
  | cons timed sections ih =>
    change ((timed.1.apply timed.2 state).runAll sections).evidence ∈ _ ∧ ∀ evidence ∈ _,
      rank evidence ≤ rank ((timed.1.apply timed.2 state).runAll sections).evidence
    obtain ⟨hmem, hmax⟩ := ih (timed.1.apply timed.2 state)
    have hstep := timed.1.apply_evidence timed.2 state
    rcases hreported : timed.1.evidence? with _ | reported
    · have hsame : reportedEvidence (timed :: sections) = reportedEvidence sections := by
        simp [reportedEvidence, hreported]
      simp only [hreported] at hstep
      rw [hsame, ← hstep]
      exact ⟨hmem, hmax⟩
    · have hcons : reportedEvidence (timed :: sections) =
          reported :: reportedEvidence sections := by
        simp [reportedEvidence, hreported]
      simp only [hreported] at hstep
      rw [hcons]
      have hhead := hmax _ mem_cons_self
      split at hstep <;> rw [hstep] at hmem hhead
      all_goals
        refine ⟨?_, ?_⟩
        · rcases mem_cons.mp hmem with h | h <;> simp [h]
        · exact forall_mem_cons.mpr ⟨by omega,
            forall_mem_cons.mpr ⟨by omega, (forall_mem_cons.mp hmax).2⟩⟩

end AttemptState

/-! ## One attempt -/

def closingState (log : TrackerLog) : AttemptState :=
  ({} : AttemptState).runAll (before log)

variable {attempt' : TrackedAttempt}

namespace TrackedAttempt

/-- The facts of a close at `nowMs`. -/
def builtFacts (requestId : String) (attempt : TrackedAttempt) (nowMs : ℤ) : AttemptFacts :=
  attemptFacts requestId { attempt.tracker with state := closingState attempt.log } nowMs

/-- Where a closed attempt can be, and what it has submitted there. -/
def Past (attempt : TrackedAttempt) (facts : AttemptFacts) : Prop :=
  (attempt.stage = .built facts (closingState attempt.log).executionOutcome ∧ attempt.facts = []) ∨
    (attempt.stage = .noted facts ∧ attempt.facts = []) ∨
    (attempt.stage = .submitted ∧ attempt.facts = [facts]) ∨
    (attempt.stage = .lost ∧ attempt.facts = [])

/-- An attempt has submitted nothing but the facts of its first close. -/
structure Sound (requestId : String) (attempt : TrackedAttempt) : Prop where
  opened : stoppedAt attempt.log = none →
    attempt.tracker.state = closingState attempt.log ∧ attempt.stage = .opened ∧
      attempt.facts = [] ∧ attempt.dropped = false
  closed : ∀ nowMs, stoppedAt attempt.log = some nowMs →
    attempt.tracker.state.closed = true ∧ attempt.Past (attempt.builtFacts requestId nowMs)

variable {requestId : String} {attempt : TrackedAttempt}

theorem closingState_closed (log : TrackerLog) : (closingState log).closed = false :=
  AttemptState.runAll_closed {} _

section

variable (h : attempt.Sound requestId)

include h

theorem stoppedAt_eq_none_iff :
    stoppedAt attempt.log = none ↔ attempt.tracker.state.closed = false := by
  rcases hlog : stoppedAt attempt.log with _ | nowMs
  · simp [(h.opened hlog).1, closingState_closed]
  · simp [(h.closed nowMs hlog).1]

theorem Sound.run (timed : TimedSection) : (attempt.run timed).Sound requestId := by
  have hat : stoppedAt (attempt.run timed).log = stoppedAt attempt.log :=
    stoppedAt_append_run timed
  constructor
  · intro hnone
    rw [hat] at hnone
    obtain ⟨hstate, hrest⟩ := h.opened hnone
    refine ⟨?_, hrest⟩
    simp only [TrackedAttempt.run, closingState]
    rw [before_append_run_of_running hnone, AttemptState.runAll, foldl_append, hstate]
    rfl
  · intro nowMs hsome
    rw [hat] at hsome
    obtain ⟨hclosed, hpast⟩ := h.closed nowMs hsome
    have hstate : closingState (attempt.run timed).log = closingState attempt.log := by
      simp only [TrackedAttempt.run, closingState]
      rw [before_append_run_of_stopped hsome]
    refine ⟨(timed.1.apply_closed timed.2 _).trans hclosed, ?_⟩
    rw [Past, builtFacts, hstate]
    exact hpast

theorem Sound.close (nowMs : ℤ) : (attempt.close requestId nowMs).Sound requestId := by
  have hstate : closingState (attempt.log ++ [.stop nowMs]) = closingState attempt.log := by
    rw [closingState, before_append_stop, closingState]
  rcases hlog : stoppedAt attempt.log with _ | closed
  · obtain ⟨htracker, -, hfacts, -⟩ := h.opened hlog
    have hopen : attempt.tracker.state.closed = false := by
      rw [htracker, closingState_closed]
    refine ⟨fun hnone => ?_, fun at_ hsome => ?_⟩
    · simp [TrackedAttempt.close, hlog] at hnone
    · obtain rfl : nowMs = at_ := by simpa [TrackedAttempt.close, hlog] using hsome
      simp only [Past, builtFacts, TrackedAttempt.close, AttemptTracker.close, hopen, hstate]
      refine ⟨rfl, .inl ⟨?_, hfacts⟩⟩
      simp [← htracker]
  · obtain ⟨hclosed, hpast⟩ := h.closed closed hlog
    refine ⟨fun hnone => ?_, fun at_ hsome => ?_⟩
    · simp [TrackedAttempt.close, hlog] at hnone
    · obtain rfl : closed = at_ := by simpa [TrackedAttempt.close, hlog] using hsome
      simp only [Past, builtFacts, TrackedAttempt.close, AttemptTracker.close, hclosed, hstate]
      exact ⟨hclosed, hpast⟩

/-- An attempt that is past its close stays sound with another stage of the close. -/
theorem Sound.of_past
    (htracker : attempt'.tracker = attempt.tracker) (hlog : attempt'.log = attempt.log)
    (hclosed : attempt.stage ≠ .opened)
    (hpast : ∀ facts, attempt.Past facts → attempt'.Past facts) : attempt'.Sound requestId := by
  constructor
  · intro hnone
    rw [hlog] at hnone
    exact absurd (h.opened hnone).2.1 hclosed
  · intro nowMs hsome
    rw [hlog] at hsome
    obtain ⟨hstate, hat⟩ := h.closed nowMs hsome
    refine ⟨htracker ▸ hstate, ?_⟩
    rw [builtFacts, htracker, hlog]
    exact hpast _ hat

theorem Sound.drop (nowMs : ℤ) : (attempt.drop requestId nowMs).Sound requestId := by
  unfold TrackedAttempt.drop
  split
  · next hclosed =>
      have hne : attempt.stage ≠ .opened := by
        rcases hlog : stoppedAt attempt.log with _ | closed
        · simp [(stoppedAt_eq_none_iff h).mp hlog] at hclosed
        · rcases (h.closed closed hlog).2 with h | h | h | h <;> simp [h.1]
      exact h.of_past rfl rfl hne fun _ hpast => hpast
  · have hsound := (h.run (.dropping, nowMs)).close nowMs
    -- The close leaves an attempt that is closed, where the flag does not matter.
    constructor
    · intro hnone
      have : stoppedAt ((attempt.run (.dropping, nowMs)).close requestId nowMs).log =
        none := hnone
      simp [TrackedAttempt.close] at this
    · exact hsound.closed

end

end TrackedAttempt

variable {logical logical' : LogicalState} {attempt : TrackedAttempt}

theorem TrackingRun.noteAttempt_eq_some
    (h : noteAttempt logical attempt = some (logical', attempt')) :
    ∃ facts execution, attempt.stage = .built facts execution ∧
      logical' = logical.noteFinalAttempt attempt.tracker.attemptId attempt.tracker.sequence
        execution ∧
      attempt' = { attempt with stage := .noted facts } := by
  unfold noteAttempt at h
  split at h
  · next facts execution hstage =>
      cases h
      exact ⟨facts, execution, hstage, rfl, rfl⟩
  · cases h

theorem TrackingRun.countAttempt_eq_some
    (h : countAttempt logical attempt = some (logical', attempt')) :
    (∃ quotaAtoms quotaDispatched quotaHasCompleteCost quotaAttempts, logical' =
        { logical with quotaAtoms, quotaDispatched, quotaHasCompleteCost, quotaAttempts }) ∧
      ∃ facts, attempt.stage = .noted facts ∧
        (attempt' = { attempt with stage := .submitted, facts := attempt.facts ++ [facts] } ∨
          (logical.noteQuotaResult facts = none ∧ attempt' = { attempt with stage := .lost })) := by
  unfold countAttempt at h
  split at h
  · next facts hstage =>
      split at h
      · next hnote =>
          cases h
          exact ⟨LogicalState.noteQuotaResult_eq_some hnote, facts, hstage, .inl rfl⟩
      · next hnote =>
          cases h
          exact ⟨⟨_, _, _, _, rfl⟩, facts, hstage, .inr ⟨hnote, rfl⟩⟩
  · cases h

namespace TrackedAttempt

variable {requestId : String} {attempt attempt' : TrackedAttempt} {logical logical' : LogicalState}

theorem Sound.note (h : attempt.Sound requestId)
    (hnote : TrackingRun.noteAttempt logical attempt = some (logical', attempt')) :
    attempt'.Sound requestId := by
  obtain ⟨_, _, hstage, -, rfl⟩ := TrackingRun.noteAttempt_eq_some hnote
  refine h.of_past rfl rfl (by simp [hstage]) fun built hpast => ?_
  rcases hpast with ⟨hbuilt, hfacts⟩ | h | h | h
  · rw [hstage] at hbuilt
    cases hbuilt
    exact .inr (.inl ⟨rfl, hfacts⟩)
  all_goals simp [hstage] at h

theorem Sound.count (h : attempt.Sound requestId)
    (hcount : TrackingRun.countAttempt logical attempt = some (logical', attempt')) :
    attempt'.Sound requestId := by
  obtain ⟨-, facts, hstage, hcase⟩ := TrackingRun.countAttempt_eq_some hcount
  have hpast : ∀ built, attempt.Past built → built = facts ∧ attempt.facts = [] := by
    rintro built (h | h | h | h)
    · simp [hstage] at h
    · rw [hstage] at h
      exact ⟨by simpa using h.1.symm, h.2⟩
    all_goals simp [hstage] at h
  rcases hcase with rfl | ⟨-, rfl⟩
  · refine h.of_past rfl rfl (by simp [hstage]) fun built hbuilt => ?_
    obtain ⟨rfl, hfacts⟩ := hpast built hbuilt
    exact .inr (.inr (.inl ⟨rfl, by simp [hfacts]⟩))
  · refine h.of_past rfl rfl (by simp [hstage]) fun built hbuilt => ?_
    exact .inr (.inr (.inr ⟨rfl, (hpast built hbuilt).2⟩))

end TrackedAttempt

/-! ## The request -/

namespace RecordCall

def execution? : RecordCall → Option ExecutionOutcome
  | .execution outcome => some outcome
  | _ => none

def delivery? : RecordCall → Option DeliveryOutcome
  | .delivery outcome => some outcome
  | _ => none

end RecordCall

def firstExecution (records : List RecordCall) : Option ExecutionOutcome :=
  records.findSome? RecordCall.execution?

def firstDelivery (records : List RecordCall) : Option DeliveryOutcome :=
  records.findSome? RecordCall.delivery?

/-- The outcomes and the finish of a request are the same in both states. -/
structure LogicalState.SameRecords (logical logical' : LogicalState) : Prop where
  finished : logical'.finished = logical.finished
  execution : logical'.execution = logical.execution
  delivery : logical'.delivery = logical.delivery

def logicalTerminal (start : LogicalRequestStart) (state : LogicalState) (nowMs : ℤ) :
    LogicalRequestTerminal :=
  let execution := (state.execution.or state.finalAttemptExecution).getD .eofWithoutSuccessTerminal
  let delivery := state.delivery.getD .unknown
  { requestId := start.requestId
    completedAtMs := nowMs
    status := mergeLogicalTerminal execution delivery
    execution := some execution
    delivery := some delivery
    finalAttemptId := state.finalAttemptId
    tracking := (state.startGap.map TrackingState.gap).getD .complete
    stateVersion := 1 }

theorem LogicalState.finish_of_unfinished {state : LogicalState} (start : LogicalRequestStart)
    (nowMs : ℤ) (h : state.finished = false) :
    (state.finish start nowMs).1.map Terminal.terminal = some (logicalTerminal start state nowMs) ∧
      (state.finish start nowMs).2.finished = true := by
  simp [LogicalState.finish, h, logicalTerminal]

namespace TrackingRun

variable {s : TrackingRun} {start : LogicalRequestStart} {catalog : Option CatalogSnapshot}

/-- What a terminal takes from the records before the finish. -/
structure TerminalOf (records : List RecordCall) (terminal : LogicalRequestTerminal) : Prop where
  execution : ∀ outcome ∈ firstExecution records, terminal.execution = some outcome
  delivery : terminal.delivery = some ((firstDelivery records).getD .unknown)

/-- A request that nobody has finished has its first outcomes and no terminal; a finished one has
the terminal of its first finish. -/
structure RequestSound (s : TrackingRun) : Prop where
  unfinished : s.logical.finished = false →
    stoppedAt s.log = none ∧ s.terminals = [] ∧ s.released = false ∧
      s.logical.execution = firstExecution (before s.log) ∧
      s.logical.delivery = firstDelivery (before s.log)
  finished : s.logical.finished = true →
    (∃ nowMs, stoppedAt s.log = some nowMs) ∧
      ∃ terminal, s.terminals = [terminal] ∧ TerminalOf (before s.log) terminal

theorem RequestSound.of_same {s' : TrackingRun} (h : s.RequestSound)
    (hlogical : s.logical.SameRecords s'.logical) (hlog : s'.log = s.log)
    (hterminals : s'.terminals = s.terminals) (hover : s'.released = s.released) :
    s'.RequestSound := by
  constructor
  · intro hfinished
    rw [hlogical.finished] at hfinished
    rw [hlog, hterminals, hover, hlogical.execution, hlogical.delivery]
    exact h.unfinished hfinished
  · intro hfinished
    rw [hlogical.finished] at hfinished
    rw [hlog, hterminals]
    exact h.finished hfinished

theorem requestSound_record_logical (logical : LogicalState) (call : RecordCall) :
    let logical' := match call with
      | .execution outcome => logical.recordExecution outcome
      | .delivery outcome => logical.recordDelivery outcome
    logical'.finished = logical.finished ∧
      logical'.execution = logical.execution.or call.execution? ∧
      logical'.delivery = logical.delivery.or call.delivery? := by
  cases call with
  | execution =>
    rcases h : logical.execution with _ | known <;>
      simp [LogicalState.recordExecution, h, RecordCall.execution?, RecordCall.delivery?]
  | delivery =>
    rcases h : logical.delivery with _ | known <;>
      simp [LogicalState.recordDelivery, h, RecordCall.execution?, RecordCall.delivery?]

theorem RequestSound.record (h : s.RequestSound) (call : RecordCall) :
    (s.record call).RequestSound := by
  obtain ⟨hfinished, hexecution, hdelivery⟩ := requestSound_record_logical s.logical call
  constructor
  · intro hopen
    obtain ⟨hlog, hterminals, hover, hfirst, hfirst'⟩ := h.unfinished (hfinished ▸ hopen)
    have hbefore : before (s.record call).log = before s.log ++ [call] :=
      before_append_run_of_running hlog call
    refine ⟨(stoppedAt_append_run call).trans hlog, hterminals, hover, ?_, ?_⟩
    · rw [hbefore, firstExecution, List.findSome?_append]
      refine hexecution.trans ?_
      rw [hfirst]
      rcases call with _ | _ <;> rfl
    · rw [hbefore, firstDelivery, List.findSome?_append]
      refine hdelivery.trans ?_
      rw [hfirst']
      rcases call with _ | _ <;> rfl
  · intro hdone
    obtain ⟨⟨nowMs, hlog⟩, hterminal⟩ := h.finished (hfinished ▸ hdone)
    have hbefore : before (s.record call).log = before s.log :=
      before_append_run_of_stopped hlog call
    refine ⟨⟨nowMs, (stoppedAt_append_run call).trans hlog⟩, ?_⟩
    rw [hbefore]
    exact hterminal

theorem RequestSound.finish (h : s.RequestSound) (start : LogicalRequestStart) (nowMs : ℤ) :
    (s.finish start nowMs).RequestSound ∧ (s.finish start nowMs).logical.finished = true := by
  have hbefore : before (s.finish start nowMs).log = before s.log :=
    before_append_stop nowMs
  have hstopped : stoppedAt (s.finish start nowMs).log =
    (stoppedAt s.log).or (some nowMs) := stoppedAt_append_stop nowMs
  cases hfinished : s.logical.finished with
  | true =>
    obtain ⟨⟨first, hlog⟩, terminal, hterminals, hof⟩ := h.finished hfinished
    have hsame : (s.finish start nowMs).logical = s.logical ∧
        (s.finish start nowMs).terminals = s.terminals := by
      simp [TrackingRun.finish, LogicalState.finish, hfinished]
    refine ⟨⟨fun hopen => ?_, fun _ => ⟨⟨first, ?_⟩, terminal, ?_, ?_⟩⟩, ?_⟩
    · simp [hsame.1, hfinished] at hopen
    · simp [hstopped, hlog]
    · rw [hsame.2, hterminals]
    · rwa [hbefore]
    · rw [hsame.1, hfinished]
  | false =>
    obtain ⟨hlog, hterminals, -, hexecution, hdelivery⟩ := h.unfinished hfinished
    obtain ⟨hterminal, hdone⟩ := LogicalState.finish_of_unfinished start nowMs hfinished
    refine ⟨⟨fun hopen => ?_, fun _ => ⟨⟨nowMs, ?_⟩, logicalTerminal start s.logical nowMs, ?_,
      ?_, ?_⟩⟩, hdone⟩
    · exact absurd (hdone.symm.trans hopen) (by simp)
    · simp [hstopped, hlog]
    · simp [TrackingRun.finish, hterminals, hterminal]
    · intro outcome houtcome
      rw [hbefore, ← hexecution] at houtcome
      simp [logicalTerminal, Option.mem_def.mp houtcome]
    · rw [hbefore, ← hdelivery]
      rfl

/-! ## Every step -/

structure Inv (requestId : String) (s : TrackingRun) : Prop where
  attempts : ∀ attempt ∈ s.attempts, attempt.Sound requestId
  request : s.RequestSound
  released : s.released = true → s.logical.finished = true ∧
    ∀ attempt ∈ s.attempts, attempt.dropped = true ∧ attempt.idle = true

theorem inv_begun (h : Begun start logical) : Inv start.requestId { logical } := by
  have hfields : logical.finished = false ∧ logical.execution = none ∧ logical.delivery = none := by
    cases h <;> exact ⟨rfl, rfl, rfl⟩
  obtain ⟨hfinished, hexecution, hdelivery⟩ := hfields
  refine ⟨by simp, ⟨fun _ => ?_, fun hdone => ?_⟩, by simp⟩
  · exact ⟨rfl, rfl, rfl, hexecution, hdelivery⟩
  · simp [hfinished] at hdone

variable {requestId : String}

theorem onAttempt_eq (index : ℕ)
    (f : LogicalState → TrackedAttempt → Option (LogicalState × TrackedAttempt)) :
    s.onAttempt index f = s ∨ ∃ attempt logical' attempt',
      s.attempts[index]? = some attempt ∧ f s.logical attempt = some (logical', attempt') ∧
        s.onAttempt index f =
          { s with logical := logical', attempts := s.attempts.set index attempt' } := by
  unfold onAttempt
  rcases hattempt : s.attempts[index]? with _ | attempt
  · exact .inl rfl
  · rcases hf : f s.logical attempt with _ | ⟨logical', attempt'⟩
    · simp [hf]
    · exact .inr ⟨attempt, logical', attempt', rfl, hf, by simp [hf]⟩

theorem eq_of_unless {c : Bool} {a b : LogicalState × TrackedAttempt}
    (h : (if c then none else some a) = some b) : c = false ∧ a.1 = b.1 ∧ a.2 = b.2 := by
  cases c <;> cases h
  exact ⟨rfl, rfl, rfl⟩

/-- What is done with one attempt keeps the invariant if it keeps the attempt sound, leaves the
outcomes alone and cannot happen to an attempt that is dropped and idle. -/
theorem Inv.onAttempt (h : s.Inv requestId) (index : ℕ)
    {f : LogicalState → TrackedAttempt → Option (LogicalState × TrackedAttempt)}
    (hf : ∀ logical attempt logical' attempt', attempt.Sound requestId →
      f logical attempt = some (logical', attempt') →
        attempt'.Sound requestId ∧ logical.SameRecords logical' ∧
          (attempt.dropped = false ∨ attempt.idle = false)) :
    (s.onAttempt index f).Inv requestId := by
  rcases s.onAttempt_eq index f with heq | ⟨attempt, logical', attempt', hattempt, hresult, heq⟩
  · rwa [heq]
  · have hmem : attempt ∈ s.attempts := mem_of_getElem? hattempt
    obtain ⟨hsound, hsame, hbusy⟩ := hf _ _ _ _ (h.attempts attempt hmem) hresult
    rw [heq]
    refine ⟨fun other hother => ?_, h.request.of_same hsame rfl rfl rfl, fun hover => ?_⟩
    · rcases mem_or_eq_of_mem_set hother with hother | rfl
      · exact h.attempts other hother
      · exact hsound
    · obtain ⟨hdropped, hidle⟩ := (h.released hover).2 attempt hmem
      rcases hbusy with hbusy | hbusy
      · simp [hdropped] at hbusy
      · simp [hidle] at hbusy

theorem Inv.note (h : s.Inv requestId) (index : ℕ) :
    (s.onAttempt index noteAttempt).Inv requestId := by
  refine h.onAttempt index fun logical attempt logical' attempt' hsound hnote => ?_
  refine ⟨hsound.note hnote, ?_⟩
  obtain ⟨_, _, hstage, rfl, -⟩ := noteAttempt_eq_some hnote
  refine ⟨?_, .inr (by simp [TrackedAttempt.idle, hstage])⟩
  unfold LogicalState.noteFinalAttempt
  split <;> exact ⟨rfl, rfl, rfl⟩

theorem Inv.count (h : s.Inv requestId) (index : ℕ) :
    (s.onAttempt index countAttempt).Inv requestId := by
  refine h.onAttempt index fun logical attempt logical' attempt' hsound hcount => ?_
  refine ⟨hsound.count hcount, ?_⟩
  obtain ⟨⟨_, _, _, _, rfl⟩, _, hstage, -⟩ := countAttempt_eq_some hcount
  exact ⟨⟨rfl, rfl, rfl⟩, .inr (by simp [TrackedAttempt.idle, hstage])⟩

theorem Inv.drop (h : s.Inv requestId) (nowMs : ℤ)
    (hall : ∀ attempt ∈ s.attempts, attempt.dropped = true ∧ attempt.idle = true) :
    (s.drop start nowMs).Inv requestId := by
  unfold TrackingRun.drop
  split
  · next hfinished =>
      refine ⟨h.attempts, ⟨fun hopen => ?_, h.request.finished⟩, fun _ => ⟨hfinished, hall⟩⟩
      simp [hfinished] at hopen
  · obtain ⟨hsound, hfinished⟩ := (h.request.record (.delivery .clientDrop)).finish start nowMs
    refine ⟨h.attempts, ⟨fun hopen => ?_, hsound.finished⟩, fun _ => ⟨hfinished, hall⟩⟩
    exact absurd (hfinished.symm.trans hopen) (by simp)

theorem Inv.unless {c : Prop} [Decidable c] {s' : TrackingRun} (h : s.Inv requestId)
    (h' : ¬c → s'.Inv requestId) : (if c then s else s').Inv requestId :=
  iteInduction (fun _ => h) h'

theorem Inv.step (h : s.Inv start.requestId) (event : TrackingStep) :
    (s.step start catalog event).Inv start.requestId := by
  cases event with
  | openAttempt =>
    refine h.unless fun hover => ⟨forall_mem_append.mpr ⟨h.attempts, forall_mem_singleton.mpr ?_⟩,
      h.request.of_same ⟨rfl, rfl, rfl⟩ rfl rfl rfl, fun hdone => absurd hdone hover⟩
    exact ⟨fun _ => ⟨rfl, rfl, rfl, rfl⟩, by simp [stoppedAt]⟩
  | run index timed =>
    rw [TrackingRun.step]
    refine h.onAttempt index fun logical attempt logical' attempt' hsound hrun => ?_
    obtain ⟨hdropped, rfl, rfl⟩ := eq_of_unless hrun
    exact ⟨hsound.run timed, ⟨rfl, rfl, rfl⟩, .inl hdropped⟩
  | close index nowMs =>
    rw [TrackingRun.step]
    refine h.onAttempt index fun logical attempt logical' attempt' hsound hclose => ?_
    obtain ⟨hdropped, rfl, rfl⟩ := eq_of_unless hclose
    exact ⟨hsound.close nowMs, ⟨rfl, rfl, rfl⟩, .inl hdropped⟩
  | note index => exact h.note index
  | count index => exact h.count index
  | dropAttempt index nowMs =>
    rw [TrackingRun.step]
    refine h.onAttempt index fun logical attempt logical' attempt' hsound hdrop => ?_
    obtain ⟨hdropped, rfl, rfl⟩ := eq_of_unless hdrop
    exact ⟨hsound.drop nowMs, ⟨rfl, rfl, rfl⟩, .inl (Bool.or_eq_false_iff.mp hdropped).1⟩
  | markQuotaDispatched =>
    exact h.unless fun hover => ⟨h.attempts, h.request.of_same ⟨rfl, rfl, rfl⟩ rfl rfl rfl,
      fun hdone => absurd hdone hover⟩
  | record call =>
    exact h.unless fun hover =>
      ⟨h.attempts, h.request.record call, fun hdone => absurd hdone hover⟩
  | finish nowMs =>
    exact h.unless fun hover =>
      ⟨h.attempts, (h.request.finish start nowMs).1, fun hdone => absurd hdone hover⟩
  | dropRequest nowMs =>
    refine h.unless fun hguard => h.drop nowMs fun attempt hattempt => ?_
    simp only [Bool.or_eq_true, not_or, any_eq_true, not_exists, not_and] at hguard
    simpa using hguard.2 attempt hattempt

theorem Inv.run (h : s.Inv start.requestId) (events : List TrackingStep) :
    (events.foldl (TrackingRun.step start catalog) s).Inv start.requestId := by
  induction events generalizing s with
  | nil => exact h
  | cons event _ ih => exact ih (h.step event)

end TrackingRun

/-! ## Costs that cannot be counted -/

/-- The total of complete costs has room for the attempt's, if it has a complete cost. -/
def LogicalState.Fits (logical : LogicalState) (facts : AttemptFacts) : Prop :=
  facts.dispatchEvidence.isConfirmedDispatch = true →
    facts.cost.status = .completeForObservedCatalogComponents →
      (logical.quotaAtoms.checkedAdd facts.cost.totalKnown).isSome = true

instance (logical : LogicalState) (facts : AttemptFacts) : Decidable (logical.Fits facts) :=
  inferInstanceAs (Decidable (_ → _ → _))

theorem LogicalState.noteQuotaResult_eq_none_iff {facts : AttemptFacts} :
    logical.noteQuotaResult facts = none ↔ ¬logical.Fits facts := by
  unfold LogicalState.noteQuotaResult LogicalState.Fits
  cases facts.dispatchEvidence.isConfirmedDispatch <;>
    by_cases hcomplete : facts.cost.status = .completeForObservedCatalogComponents <;>
      simp [hcomplete]

namespace TrackingRun

variable {s : TrackingRun} {start : LogicalRequestStart} {catalog : Option CatalogSnapshot}
  {requestId : String}

/-- A count finds room for the cost. -/
def Fits (s : TrackingRun) : TrackingStep → Prop
  | .count index => ∀ attempt, s.attempts[index]? = some attempt →
      ∀ facts, attempt.stage = .noted facts → s.logical.Fits facts
  | _ => True

/-- Every count of the run finds room. -/
def FittingRun (start : LogicalRequestStart) (catalog : Option CatalogSnapshot) (s : TrackingRun) :
    List TrackingStep → Prop
  | [] => True
  | event :: events => s.Fits event ∧ FittingRun start catalog (s.step start catalog event) events

/-- The facts of some attempt are lost. -/
def Losing (s : TrackingRun) : Prop := ∃ attempt ∈ s.attempts, attempt.stage = .lost

/-- What is done with one attempt loses facts only if it loses those of the attempt. -/
theorem losing_onAttempt (h : s.Inv requestId) (index : ℕ)
    {f : LogicalState → TrackedAttempt → Option (LogicalState × TrackedAttempt)}
    (hf : ∀ logical' attempt attempt', s.attempts[index]? = some attempt →
      attempt.Sound requestId → f s.logical attempt = some (logical', attempt') →
        (attempt.stage = .lost ↔ attempt'.stage = .lost)) :
    (s.onAttempt index f).Losing ↔ s.Losing := by
  rcases s.onAttempt_eq index f with heq | ⟨attempt, logical', attempt', hattempt, hresult, heq⟩
  · rw [heq]
  · rw [heq]
    refine Slots.exists_set_congr hattempt (hf logical' attempt attempt' hattempt ?_ hresult)
    exact h.attempts attempt (mem_of_getElem? hattempt)

theorem close_stage_lost (nowMs : ℤ) (h : attempt.Sound requestId) :
    attempt.stage = .lost ↔ (attempt.close requestId nowMs).stage = .lost := by
  rcases hlog : stoppedAt attempt.log with _ | closed
  · obtain ⟨hstate, hstage, -⟩ := h.opened hlog
    simp [TrackedAttempt.close, AttemptTracker.close, hstate, TrackedAttempt.closingState_closed,
      hstage]
  · simp [TrackedAttempt.close, AttemptTracker.close, (h.closed closed hlog).1]

/-- A count loses facts if and only if the cost has no room. -/
theorem losing_count (h : s.Inv requestId) (index : ℕ) :
    (s.onAttempt index countAttempt).Losing ↔ s.Losing ∨ ¬s.Fits (.count index) := by
  by_cases hfits : s.Fits (.count index)
  · rw [losing_onAttempt h index]
    · simp [hfits]
    · intro logical' attempt attempt' hattempt _ hcount
      obtain ⟨-, facts, hstage, rfl | ⟨hnone, -⟩⟩ := countAttempt_eq_some hcount
      · simp [hstage]
      · exact absurd (hfits attempt hattempt facts hstage)
          (LogicalState.noteQuotaResult_eq_none_iff.mp hnone)
  · simp only [hfits, not_false_eq_true, or_true, iff_true]
    simp only [Fits, not_forall] at hfits
    obtain ⟨attempt, hattempt, _, hstage, hnot⟩ := hfits
    have hnone := LogicalState.noteQuotaResult_eq_none_iff.mpr hnot
    have hlength : index < s.attempts.length := (List.getElem?_eq_some_iff.mp hattempt).1
    refine ⟨{ attempt with stage := .lost }, ?_, rfl⟩
    simp only [onAttempt, hattempt, countAttempt, hstage, hnone]
    exact mem_set hlength _

/-- Facts are lost by a count that finds no room, and by nothing else. -/
theorem losing_step (h : s.Inv start.requestId) (event : TrackingStep) :
    (s.step start catalog event).Losing ↔ s.Losing ∨ ¬s.Fits event := by
  rcases event with _ | _ | ⟨index, nowMs⟩ | index | index | ⟨index, nowMs⟩ | _ | _ | _ | _
  case count => exact losing_count h index
  all_goals simp only [step, Fits, not_true_eq_false, or_false]
  case openAttempt =>
    split
    · exact Iff.rfl
    · simp [Losing, or_and_right, exists_or]
  case run =>
    refine losing_onAttempt h _ fun logical' attempt attempt' _ _ hrun => ?_
    obtain ⟨-, -, rfl⟩ := eq_of_unless hrun
    exact Iff.rfl
  case close =>
    refine losing_onAttempt h index fun logical' attempt attempt' _ hsound hclose => ?_
    obtain ⟨-, -, rfl⟩ := eq_of_unless hclose
    exact close_stage_lost nowMs hsound
  case note =>
    refine losing_onAttempt h index fun logical' attempt attempt' _ _ hnote => ?_
    obtain ⟨_, _, hstage, -, rfl⟩ := noteAttempt_eq_some hnote
    simp [hstage]
  case dropAttempt =>
    refine losing_onAttempt h index fun logical' attempt attempt' _ hsound hdrop => ?_
    obtain ⟨-, -, rfl⟩ := eq_of_unless hdrop
    unfold TrackedAttempt.drop
    split
    · exact Iff.rfl
    · exact close_stage_lost nowMs (hsound.run (.dropping, nowMs))
  case dropRequest =>
    split
    · exact Iff.rfl
    · unfold TrackingRun.drop
      split <;> exact Iff.rfl
  all_goals split <;> exact Iff.rfl

theorem losing_run (h : s.Inv start.requestId) (events : List TrackingStep) :
    (events.foldl (TrackingRun.step start catalog) s).Losing ↔
      s.Losing ∨ ¬FittingRun start catalog s events := by
  induction events generalizing s with
  | nil => simp [FittingRun]
  | cons event _ ih =>
    rw [foldl_cons, ih (h.step event), losing_step h event, FittingRun, not_and_or, or_assoc]

end TrackingRun

/-! ## Exactly once -/

/-- The facts of an attempt that was closed after these sections: they are built by the close,
with the first usage and model that were recorded and the highest evidence that was reported. -/
structure FactsOf (requestId : String) (tracker : AttemptTracker) (sections : List TimedSection)
    (nowMs : ℤ) (facts : AttemptFacts) : Prop where
  usage : ∃ state : AttemptState, state.rawUsage = firstUsage sections ∧
    facts = attemptFacts requestId { tracker with state } nowMs
  model : facts.providerReportedModel = firstModel sections
  evidence : facts.dispatchEvidence ∈ .notInvoked :: reportedEvidence sections
  evidence_max : ∀ evidence ∈ reportedEvidence sections,
    rank evidence ≤ rank facts.dispatchEvidence

theorem TrackedAttempt.factsOf_builtFacts (requestId : String) (attempt : TrackedAttempt)
    (nowMs : ℤ) :
    FactsOf requestId attempt.tracker (before attempt.log) nowMs
      (attempt.builtFacts requestId nowMs) := by
  obtain ⟨hmem, hmax⟩ :=
    AttemptState.runAll_evidence ({} : AttemptState) (before attempt.log)
  refine ⟨⟨closingState attempt.log, ?_, rfl⟩, ?_, hmem, fun evidence hevidence => ?_⟩
  · exact (AttemptState.runAll_first _ _ AttemptSection.apply_rawUsage).trans Option.none_or
  · exact (AttemptState.runAll_first _ _ AttemptSection.apply_providerReportedModel).trans
      Option.none_or
  · exact hmax evidence (mem_cons_of_mem _ hevidence)

namespace TrackedAttempt

variable {requestId : String} {attempt : TrackedAttempt}

/-- A sound attempt has submitted the facts of its first close, or nothing. -/
theorem Sound.facts (h : attempt.Sound requestId) :
    attempt.facts = [] ∨ ∃ nowMs, stoppedAt attempt.log = some nowMs ∧
      attempt.facts = [attempt.builtFacts requestId nowMs] := by
  rcases hlog : stoppedAt attempt.log with _ | nowMs
  · exact .inl (h.opened hlog).2.2.1
  · rcases (h.closed nowMs hlog).2 with h | h | h | h
    · exact .inl h.2
    · exact .inl h.2
    · exact .inr ⟨nowMs, rfl, h.2⟩
    · exact .inl h.2

/-- An attempt that is over has submitted its facts unless they are lost. -/
theorem Sound.length_eq_one_iff (h : attempt.Sound requestId) (hdropped : attempt.dropped = true)
    (hidle : attempt.idle = true) : attempt.facts.length = 1 ↔ attempt.stage ≠ .lost := by
  rcases hlog : stoppedAt attempt.log with _ | nowMs
  · simp [(h.opened hlog).2.2.2] at hdropped
  · rcases (h.closed nowMs hlog).2 with h | h | h | h
    · simp [idle, h.1] at hidle
    · simp [idle, h.1] at hidle
    · simp [h.1, h.2]
    · simp [h.1, h.2]

end TrackedAttempt

/-- In every interleaving of the calls on a request and its attempts, each attempt submits at most
one set of facts, that of its first close, and the request at most one terminal, that of its first
finish; what runs afterwards changes neither.  Once everything is dropped there is exactly one
terminal, and exactly one set of facts for every attempt if and only if every count found room
for its cost. -/
theorem facts_emitted_once {start : LogicalRequestStart} {logical : LogicalState}
    (hbegun : Begun start logical) (catalog : Option CatalogSnapshot) (events : List TrackingStep) :
    let s := events.foldl (TrackingRun.step start catalog) { logical }
    (∀ attempt ∈ s.attempts, attempt.facts.length ≤ 1 ∧ ∀ facts ∈ attempt.facts,
        ∃ before nowMs after, attempt.log = before.map .run ++ .stop nowMs :: after ∧
          FactsOf start.requestId attempt.tracker before nowMs facts) ∧
      (s.terminals.length ≤ 1 ∧ ∀ terminal ∈ s.terminals,
        ∃ before nowMs after, s.log = before.map .run ++ .stop nowMs :: after ∧
          TrackingRun.TerminalOf before terminal) ∧
      (s.released = true → s.terminals.length = 1 ∧
        ((∀ attempt ∈ s.attempts, attempt.facts.length = 1) ↔
          TrackingRun.FittingRun start catalog { logical } events)) := by
  intro s
  have hbegin := TrackingRun.inv_begun hbegun
  have hinv : s.Inv start.requestId := hbegin.run events
  refine ⟨fun attempt hattempt => ?_, ?_, fun hover => ?_⟩
  · rcases (hinv.attempts attempt hattempt).facts with hfacts | ⟨nowMs, hlog, hfacts⟩
    · simp [hfacts]
    · obtain ⟨after, heq⟩ := eq_of_stoppedAt hlog
      rw [hfacts, forall_mem_singleton]
      exact ⟨le_rfl, _, nowMs, after, heq, attempt.factsOf_builtFacts start.requestId nowMs⟩
  · cases hfinished : s.logical.finished with
    | false => simp [(hinv.request.unfinished hfinished).2.1]
    | true =>
      obtain ⟨⟨nowMs, hlog⟩, terminal, hone, hof⟩ := hinv.request.finished hfinished
      obtain ⟨after, heq⟩ := eq_of_stoppedAt hlog
      rw [hone, forall_mem_singleton]
      exact ⟨le_rfl, _, nowMs, after, heq, hof⟩
  · obtain ⟨hfinished, hall⟩ := hinv.released hover
    refine ⟨?_, ?_⟩
    · obtain ⟨-, _, hterminal, -⟩ := hinv.request.finished hfinished
      simp [hterminal]
    · have hlosing : s.Losing ↔ ({ logical } : TrackingRun).Losing ∨
          ¬TrackingRun.FittingRun start catalog { logical } events :=
        TrackingRun.losing_run hbegin events
      have hnone : ¬({ logical } : TrackingRun).Losing := by simp [TrackingRun.Losing]
      rw [or_iff_right hnone] at hlosing
      rw [← not_iff_not, ← hlosing, not_forall]
      refine exists_congr fun attempt => ?_
      rw [Classical.not_imp]
      refine and_congr_right fun hattempt => ?_
      obtain ⟨hdropped, hidle⟩ := hall attempt hattempt
      rw [(hinv.attempts attempt hattempt).length_eq_one_iff hdropped hidle, not_not]

/-- An attempt that opens a stream, reads usage from it and closes, then is dropped. -/
def streamedAttempt (index : ℕ) (spec : AttemptSpec) : List TrackingStep :=
  [.openAttempt spec 1, .run index (.advance .responseObserved, 2),
    .run index (.usage (some { input := some (.lit 1 (Eq.refl true)) }), 3), .close index 3,
    .note index, .count index, .dropAttempt index 4]

/-- The run of a request with these attempts, one after the other, up to its drop. -/
def streamedRun (specs : List AttemptSpec) : List TrackingStep :=
  (specs.zipIdx.flatMap fun (spec, index) => streamedAttempt index spec) ++ [.dropRequest 5]

def streamedEnd (specs : List AttemptSpec) : TrackingRun :=
  (streamedRun specs).foldl (TrackingRun.step sampleStart none) { logical := {} }

/-- One attempt whose price is unknown. -/
theorem facts_emitted_once_streamed :
    (streamedEnd [sampleSpec]).released = true ∧ (streamedEnd [sampleSpec]).terminals.length = 1 ∧
      ((∀ attempt ∈ (streamedEnd [sampleSpec]).attempts, attempt.facts.length = 1) ↔
        TrackingRun.FittingRun sampleStart none { logical := {} } (streamedRun [sampleSpec])) := by
  have hover : (streamedEnd [sampleSpec]).released = true := by decide
  exact ⟨hover, (facts_emitted_once (.plain none) none (streamedRun [sampleSpec])).2.2 hover⟩

/-- A token costs `10 ^ 38` atoms at this price. -/
def costlySpec : AttemptSpec := uncachedSpec "1000000000000000000000000000000"

/-- Two attempts of one token each: the second count panics and its facts are never submitted. -/
theorem second_attempt_lost :
    (streamedEnd [costlySpec, costlySpec]).released = true ∧
      (streamedEnd [costlySpec, costlySpec]).terminals.length = 1 ∧
      (streamedEnd [costlySpec, costlySpec]).attempts.map (fun attempt => attempt.facts.length) =
        [1, 0] := by
  decide

end ProviderCore.Usage
