import ProviderCore.Usage.TrackingOnce

/-!
# The attempt that served the response

`note_final_attempt` keeps the highest-numbered attempt it has heard of, whatever the order of the
closes.  Over every run of `TrackingRun` the request therefore knows the number, the id and the
outcome of a noted attempt that no other noted attempt outranks (`TrackingRun.FinalSound`), and
this is what its terminal says.  An attempt is noted by its close; one whose close is still on
its way to the request when it finishes has not closed before the finish.
-/

namespace ProviderCore.Usage

open List StopLog

/-! ## What a close proves -/

/-- What the attempt proved by its close. -/
def TrackedAttempt.execution (attempt : TrackedAttempt) : ExecutionOutcome :=
  (closingState attempt.log).executionOutcome

/-- The sections before the close report that the call was sent. -/
def TrackedAttempt.Confirmed (attempt : TrackedAttempt) : Prop :=
  ∃ evidence ∈ reportedEvidence (before attempt.log), evidence.isConfirmedDispatch = true

/-- The sections before the close report a successful terminal. -/
def TrackedAttempt.Succeeded (attempt : TrackedAttempt) : Prop :=
  ∃ timed ∈ before attempt.log, timed.1 = .successTerminal

theorem AttemptSection.apply_successTerminal (section_ : AttemptSection) (nowMs : ℤ)
    (state : AttemptState) :
    (section_.apply nowMs state).successTerminal = true ↔
      state.successTerminal = true ∨ section_ = .successTerminal := by
  cases section_ <;>
    simp [AttemptSection.apply, AttemptState.advance, AttemptState.recordUsage,
      apply_ite AttemptState.successTerminal]

theorem AttemptState.runAll_successTerminal (state : AttemptState) (sections : List TimedSection) :
    (state.runAll sections).successTerminal = true ↔
      state.successTerminal = true ∨ ∃ timed ∈ sections, timed.1 = .successTerminal := by
  induction sections generalizing state with
  | nil => simp [runAll]
  | cons timed sections ih =>
    change ((timed.1.apply timed.2 state).runAll sections).successTerminal = true ↔ _
    rw [ih, timed.1.apply_successTerminal, or_assoc, exists_mem_cons_iff]

/-- Only a call that was sent and whose stream reached its successful terminal is a success. -/
theorem TrackedAttempt.execution_eq_success {attempt : TrackedAttempt}
    (h : attempt.execution = .stableSuccessTerminal) : attempt.Confirmed ∧ attempt.Succeeded := by
  unfold TrackedAttempt.execution AttemptState.executionOutcome at h
  split at h
  · cases h
  · next hsent =>
      split at h
      · next hsuccess =>
          constructor
          · have hmem := (AttemptState.runAll_evidence ({} : AttemptState)
              (before attempt.log)).1
            have hconfirmed : (closingState attempt.log).evidence.isConfirmedDispatch = true := by
              simpa using hsent
            rcases mem_cons.mp hmem with hnone | hreported
            · rw [closingState, hnone] at hconfirmed
              cases hconfirmed
            · exact ⟨_, hreported, hconfirmed⟩
          · rcases (AttemptState.runAll_successTerminal _ _).mp hsuccess with hfalse | hreported
            · cases hfalse
            · exact hreported
      · cases h

/-! ## The highest-numbered attempt -/

/-- What the request keeps of an attempt. -/
structure FinalKey where
  sequence : U32
  attemptId : String
  execution : ExecutionOutcome

def TrackedAttempt.key (attempt : TrackedAttempt) : FinalKey :=
  ⟨attempt.tracker.sequence, attempt.tracker.attemptId, attempt.execution⟩

variable {logical : LogicalState}

namespace TrackingRun

variable {s : TrackingRun} {start : LogicalRequestStart} {catalog : Option CatalogSnapshot}
  {requestId : String}

/-- Some noted attempt has this key. -/
def Noted (s : TrackingRun) (key : FinalKey) : Prop :=
  ∃ attempt ∈ s.attempts, attempt.isNoted = true ∧ attempt.key = key

/-- The request keeps a noted attempt that no other outranks, if any attempt is noted. -/
def FinalOf (noted : FinalKey → Prop) (logical : LogicalState) : Prop :=
  ((∀ key, ¬noted key) ∧ logical.finalAttemptSequence = none ∧ logical.finalAttemptId = none ∧
      logical.finalAttemptExecution = none) ∨
    ∃ final, noted final ∧ (∀ key, noted key → key.sequence.val ≤ final.sequence.val) ∧
      logical.finalAttemptSequence = some final.sequence ∧
      logical.finalAttemptId = some final.attemptId ∧
      logical.finalAttemptExecution = some final.execution

def FinalSound (s : TrackingRun) : Prop := FinalOf s.Noted s.logical

/-- The fields of the final attempt are the same in both states. -/
structure SameFinal (logical logical' : LogicalState) : Prop where
  sequence : logical'.finalAttemptSequence = logical.finalAttemptSequence
  attemptId : logical'.finalAttemptId = logical.finalAttemptId
  execution : logical'.finalAttemptExecution = logical.finalAttemptExecution

theorem FinalOf.congr {noted noted' : FinalKey → Prop} {logical' : LogicalState}
    (h : FinalOf noted logical) (hnoted : ∀ key, noted' key ↔ noted key)
    (hsame : SameFinal logical logical') : FinalOf noted' logical' := by
  obtain rfl : noted' = noted := funext fun key => propext (hnoted key)
  unfold FinalOf
  rw [hsame.sequence, hsame.attemptId, hsame.execution]
  exact h

/-- Noting one more attempt. -/
theorem FinalOf.noteFinalAttempt {noted : FinalKey → Prop}
    (h : FinalOf noted logical) (key : FinalKey) :
    FinalOf (fun other => other = key ∨ noted other)
      (logical.noteFinalAttempt key.attemptId key.sequence key.execution) := by
  unfold LogicalState.noteFinalAttempt
  rcases h with ⟨hnone, hsequence, -, -⟩ | ⟨final, hfinal, hmax, hsequence, hrest⟩
  · simp only [hsequence, Option.all_none, if_true]
    refine .inr ⟨key, .inl rfl, fun other hother => ?_, rfl, rfl, rfl⟩
    rcases hother with rfl | hother
    · exact le_refl _
    · exact absurd hother (hnone other)
  · simp only [hsequence, Option.all_some, decide_eq_true_eq]
    split
    · next hlt =>
        refine .inr ⟨key, .inl rfl, fun other hother => ?_, rfl, rfl, rfl⟩
        rcases hother with rfl | hother
        · exact le_refl _
        · exact (hmax other hother).trans hlt.le
    · next hge =>
        refine .inr ⟨final, .inr hfinal, fun other hother => ?_, hsequence, hrest⟩
        rcases hother with rfl | hother
        · exact not_lt.mp hge
        · exact hmax other hother

end TrackingRun

/-! ## Every step -/

/-- The request sees the same of both attempts. -/
structure TrackedAttempt.SameKey (attempt attempt' : TrackedAttempt) : Prop where
  isNoted : attempt'.isNoted = attempt.isNoted
  key : attempt.isNoted = true → attempt'.key = attempt.key

namespace TrackedAttempt

variable {requestId : String} {attempt : TrackedAttempt}

theorem Sound.sameKey_run (h : attempt.Sound requestId) (timed : TimedSection) :
    attempt.SameKey (attempt.run timed) := by
  refine ⟨rfl, fun hnoted => ?_⟩
  rcases hlog : stoppedAt attempt.log with _ | nowMs
  · simp [isNoted, (h.opened hlog).2.1] at hnoted
  · have hbefore : before (attempt.run timed).log = before attempt.log :=
      before_append_run_of_stopped hlog timed
    rw [key, execution, closingState, hbefore]
    rfl

theorem Sound.sameKey_close (h : attempt.Sound requestId) (nowMs : ℤ) :
    attempt.SameKey (attempt.close requestId nowMs) := by
  have hkey : (attempt.close requestId nowMs).key = attempt.key := by
    have hbefore : before (attempt.close requestId nowMs).log =
      before attempt.log := before_append_stop nowMs
    rw [key, execution, closingState, hbefore]
    simp only [TrackedAttempt.close, AttemptTracker.close]
    split <;> rfl
  refine ⟨?_, fun _ => hkey⟩
  rcases hlog : stoppedAt attempt.log with _ | closed
  · obtain ⟨hstate, hstage, -⟩ := h.opened hlog
    simp [isNoted, TrackedAttempt.close, AttemptTracker.close, hstate, closingState_closed, hstage]
  · simp [isNoted, TrackedAttempt.close, AttemptTracker.close, (h.closed closed hlog).1]

theorem SameKey.trans {attempt' attempt'' : TrackedAttempt} (h : attempt.SameKey attempt')
    (h' : attempt'.SameKey attempt'') : attempt.SameKey attempt'' :=
  ⟨h'.isNoted.trans h.isNoted,
    fun hnoted => (h'.key (h.isNoted.trans hnoted)).trans (h.key hnoted)⟩

theorem Sound.sameKey_drop (h : attempt.Sound requestId) (nowMs : ℤ) :
    attempt.SameKey (attempt.drop requestId nowMs) := by
  unfold TrackedAttempt.drop
  split
  · exact ⟨rfl, fun _ => rfl⟩
  · have hclosed := (h.sameKey_run (.dropping, nowMs)).trans
      ((h.run (.dropping, nowMs)).sameKey_close nowMs)
    exact ⟨hclosed.isNoted, hclosed.key⟩

end TrackedAttempt

namespace TrackingRun

variable {s : TrackingRun} {start : LogicalRequestStart} {catalog : Option CatalogSnapshot}
  {requestId : String}

theorem FinalSound.of_same {s' : TrackingRun} (h : s.FinalSound)
    (hattempts : s'.attempts = s.attempts) (hsame : SameFinal s.logical s'.logical) :
    s'.FinalSound := by
  refine FinalOf.congr h (fun key => ?_) hsame
  rw [Noted, hattempts, Noted]

/-- What is done with one attempt keeps the final one if the request sees the same of the
attempt. -/
theorem FinalSound.onAttempt (h : s.FinalSound) (hinv : s.Inv requestId) (index : ℕ)
    {f : LogicalState → TrackedAttempt → Option (LogicalState × TrackedAttempt)}
    (hf : ∀ logical' attempt attempt', attempt.Sound requestId →
      f s.logical attempt = some (logical', attempt') →
        attempt.SameKey attempt' ∧ SameFinal s.logical logical') :
    (s.onAttempt index f).FinalSound := by
  rcases s.onAttempt_eq index f with heq | ⟨attempt, logical', attempt', hattempt, hresult, heq⟩
  · rwa [heq]
  · rw [heq]
    have hsound := hinv.attempts attempt (mem_of_getElem? hattempt)
    obtain ⟨hkey, hsame⟩ := hf logical' attempt attempt' hsound hresult
    refine FinalOf.congr h (fun key => ?_) hsame
    refine Slots.exists_set_congr hattempt ?_
    rw [hkey.isNoted]
    refine and_congr_right fun hnoted => ?_
    rw [hkey.key hnoted]

theorem FinalSound.note (h : s.FinalSound) (hinv : s.Inv requestId) (index : ℕ) :
    (s.onAttempt index noteAttempt).FinalSound := by
  rcases s.onAttempt_eq index noteAttempt with
    heq | ⟨attempt, logical', attempt', hattempt, hresult, heq⟩
  · rwa [heq]
  · rw [heq]
    have hsound := hinv.attempts attempt (mem_of_getElem? hattempt)
    obtain ⟨facts, execution, hstage, rfl, rfl⟩ := noteAttempt_eq_some hresult
    -- the outcome that travels with the facts is the one the close proved
    have hexecution : execution = attempt.execution := by
      rcases hlog : stoppedAt attempt.log with _ | nowMs
      · simp [(hsound.opened hlog).2.1] at hstage
      · rcases (hsound.closed nowMs hlog).2 with hpast | hpast | hpast | hpast
        · rw [hstage] at hpast
          exact (Stage.built.inj hpast.1).2
        all_goals simp [hstage] at hpast
    have hnoted := FinalOf.noteFinalAttempt h attempt.key
    refine hnoted.congr (fun key => ?_) ?_
    · rw [show (key = attempt.key ∨ s.Noted key) ↔
        (true = true ∧ attempt.key = key) ∨ s.Noted key by simp [eq_comm]]
      exact Slots.exists_set_of_not hattempt (by simp [TrackedAttempt.isNoted, hstage])
    · rw [hexecution]
      exact ⟨rfl, rfl, rfl⟩

theorem FinalSound.count (h : s.FinalSound) (hinv : s.Inv requestId) (index : ℕ) :
    (s.onAttempt index countAttempt).FinalSound := by
  refine h.onAttempt hinv index fun logical' attempt attempt' _ hcount => ?_
  obtain ⟨⟨_, _, _, _, rfl⟩, _, hstage, rfl | ⟨-, rfl⟩⟩ := countAttempt_eq_some hcount
  all_goals exact ⟨⟨by simp [TrackedAttempt.isNoted, hstage], fun _ => rfl⟩, rfl, rfl, rfl⟩

theorem sameFinal_record (s : TrackingRun) (call : RecordCall) :
    SameFinal s.logical (s.record call).logical := by
  cases call with
  | execution =>
    simp only [record, LogicalState.recordExecution]
    split <;> exact ⟨rfl, rfl, rfl⟩
  | delivery =>
    simp only [record, LogicalState.recordDelivery]
    split <;> exact ⟨rfl, rfl, rfl⟩

theorem sameFinal_finish (s : TrackingRun) (start : LogicalRequestStart) (nowMs : ℤ) :
    SameFinal s.logical (s.finish start nowMs).logical := by
  simp only [finish, LogicalState.finish]
  split <;> exact ⟨rfl, rfl, rfl⟩

theorem FinalSound.step (h : s.FinalSound) (hinv : s.Inv start.requestId) (event : TrackingStep) :
    (s.step start catalog event).FinalSound := by
  cases event with
  | openAttempt =>
    simp only [TrackingRun.step]
    split
    · exact h
    · refine FinalOf.congr h (fun key => ?_) ⟨rfl, rfl, rfl⟩
      simp [Noted, or_and_right, exists_or, TrackedAttempt.isNoted]
  | run index timed =>
    refine h.onAttempt hinv index fun logical' attempt attempt' hsound hrun => ?_
    obtain ⟨-, rfl, rfl⟩ := eq_of_unless hrun
    exact ⟨hsound.sameKey_run timed, rfl, rfl, rfl⟩
  | close index nowMs =>
    refine h.onAttempt hinv index fun logical' attempt attempt' hsound hclose => ?_
    obtain ⟨-, rfl, rfl⟩ := eq_of_unless hclose
    exact ⟨hsound.sameKey_close nowMs, rfl, rfl, rfl⟩
  | note index => exact h.note hinv index
  | count index => exact h.count hinv index
  | dropAttempt index nowMs =>
    refine h.onAttempt hinv index fun logical' attempt attempt' hsound hdrop => ?_
    obtain ⟨-, rfl, rfl⟩ := eq_of_unless hdrop
    exact ⟨hsound.sameKey_drop nowMs, rfl, rfl, rfl⟩
  | markQuotaDispatched =>
    simp only [TrackingRun.step]
    split
    · exact h
    · exact h.of_same rfl ⟨rfl, rfl, rfl⟩
  | record call =>
    simp only [TrackingRun.step]
    split
    · exact h
    · exact h.of_same rfl (s.sameFinal_record call)
  | finish nowMs =>
    simp only [TrackingRun.step]
    split
    · exact h
    · exact h.of_same rfl (s.sameFinal_finish start nowMs)
  | dropRequest nowMs =>
    simp only [TrackingRun.step]
    split
    · exact h
    · unfold drop
      split
      · exact h
      · have hrecorded : (s.record (.delivery .clientDrop)).FinalSound :=
          h.of_same rfl (s.sameFinal_record _)
        have hfinished : ((s.record (.delivery .clientDrop)).finish start nowMs).FinalSound :=
          hrecorded.of_same rfl (sameFinal_finish _ start nowMs)
        exact hfinished

theorem FinalSound.run (h : s.FinalSound) (hinv : s.Inv start.requestId)
    (events : List TrackingStep) :
    (events.foldl (TrackingRun.step start catalog) s).FinalSound := by
  induction events generalizing s with
  | nil => exact h
  | cons event _ ih => exact ih (h.step hinv event) (hinv.step event)

/-! ## The terminal -/

theorem finalSound_begun (h : Begun start logical) : FinalSound { logical } := by
  refine .inl ⟨fun key => by simp [Noted], ?_⟩
  cases h <;> exact ⟨rfl, rfl, rfl⟩

variable {terminal : LogicalRequestTerminal}

/-- A finish that submits a terminal is that of an unfinished request. -/
theorem finish_submits {nowMs : ℤ}
    (h : (s.finish start nowMs).terminals = s.terminals ++ [terminal]) :
    s.logical.finished = false ∧ terminal = logicalTerminal start s.logical nowMs := by
  simp only [finish, append_cancel_left_eq] at h
  cases hfinished : s.logical.finished with
  | true => simp [LogicalState.finish, hfinished] at h
  | false =>
    rw [(LogicalState.finish_of_unfinished start nowMs hfinished).1] at h
    exact ⟨rfl, by simpa using h.symm⟩

/-- The step that submits a terminal builds it from a state with the same attempts, which is the
one before or differs from it by the delivery that the destructor records. -/
theorem step_submits (hinv : s.Inv start.requestId) {event : TrackingStep}
    (h : (s.step start catalog event).terminals = s.terminals ++ [terminal]) :
    ∃ (s₀ : TrackingRun) (nowMs : ℤ), s₀.logical.finished = false ∧ s₀.RequestSound ∧
      SameFinal s.logical s₀.logical ∧ terminal = logicalTerminal start s₀.logical nowMs ∧
      before (s.step start catalog event).log = before s₀.log := by
  have hquiet : ∀ s' : TrackingRun, s'.terminals = s.terminals →
      s'.terminals ≠ s.terminals ++ [terminal] := by
    intro s' hsame heq
    simp [hsame] at heq
  have honAttempt : ∀ index f, (s.onAttempt index f).terminals = s.terminals := by
    intro index f
    rcases s.onAttempt_eq index f with heq | ⟨_, _, _, _, _, heq⟩ <;> rw [heq]
  cases event with
  | openAttempt =>
    refine absurd h (hquiet _ ?_)
    simp only [TrackingRun.step]
    split <;> rfl
  | run index timed | close index nowMs | note index | count index | dropAttempt index nowMs =>
    exact absurd h (hquiet _ (honAttempt index _))
  | markQuotaDispatched | record call =>
    refine absurd h (hquiet _ ?_)
    simp only [TrackingRun.step]
    split <;> rfl
  | finish nowMs =>
    simp only [TrackingRun.step] at h ⊢
    split at h
    · exact absurd h (hquiet s rfl)
    · next hover =>
        obtain ⟨hfinished, rfl⟩ := finish_submits h
        refine ⟨s, nowMs, hfinished, hinv.request, ⟨rfl, rfl, rfl⟩, rfl, ?_⟩
        rw [if_neg hover]
        exact before_append_stop nowMs
  | dropRequest nowMs =>
    simp only [TrackingRun.step] at h ⊢
    split at h
    · exact absurd h (hquiet s rfl)
    · next hguard =>
        rw [if_neg hguard]
        unfold drop at h ⊢
        split at h
        · exact absurd h (hquiet _ rfl)
        · next hopen =>
            obtain ⟨hfinished, rfl⟩ := finish_submits h
            refine ⟨s.record (.delivery .clientDrop), nowMs, hfinished,
              hinv.request.record _, s.sameFinal_record _, rfl, ?_⟩
            rw [if_neg hopen]
            exact before_append_stop nowMs

end TrackingRun

theorem mergeLogicalTerminal_eq_succeeded {execution : ExecutionOutcome}
    {delivery : DeliveryOutcome} (h : mergeLogicalTerminal execution delivery = .succeeded) :
    execution = .stableSuccessTerminal ∧ (delivery = .cleanEof ∨ delivery = .clientDrop) := by
  revert h
  cases execution <;> cases delivery <;> decide

/-- The terminal names the highest-numbered of the noted attempts and, unless an outcome was
recorded, has its outcome. -/
structure ServedBy (noted : List TrackedAttempt) (records : List RecordCall)
    (terminal : LogicalRequestTerminal) (final : TrackedAttempt) : Prop where
  mem : final ∈ noted
  highest : ∀ other ∈ noted, other.tracker.sequence.val ≤ final.tracker.sequence.val
  attemptId : terminal.finalAttemptId = some final.tracker.attemptId
  execution : firstExecution records = none → terminal.execution = some final.execution

/-- Along every interleaving of the calls on a request and its attempts, the terminal it submits
names the highest-numbered attempt that has closed, and carries its outcome unless one was
recorded.  It is a success only if success was recorded, or nothing was and that attempt was sent
and reached a successful terminal; and only if the response was delivered to its end or the client
left. -/
theorem terminal_describes_final_attempt {start : LogicalRequestStart} {logical : LogicalState}
    (hbegun : Begun start logical) (catalog : Option CatalogSnapshot)
    (events : List TrackingStep) (event : TrackingStep) (terminal : LogicalRequestTerminal) :
    let s := events.foldl (TrackingRun.step start catalog) { logical }
    let noted := s.attempts.filter TrackedAttempt.isNoted
    let records := before (s.step start catalog event).log
    (s.step start catalog event).terminals = s.terminals ++ [terminal] →
      (noted = [] → terminal.finalAttemptId = none) ∧
      (noted ≠ [] → ∃ final, ServedBy noted records terminal final) ∧
      (terminal.status = .succeeded →
        (terminal.delivery = some .cleanEof ∨ terminal.delivery = some .clientDrop) ∧
        (firstExecution records = some .stableSuccessTerminal ∨
          firstExecution records = none ∧ ∃ final, ServedBy noted records terminal final ∧
            final.Confirmed ∧ final.Succeeded)) := by
  intro s noted records hsubmits
  have hbegin := TrackingRun.inv_begun hbegun
  have hinv : s.Inv start.requestId := hbegin.run events
  have hfinal : s.FinalSound := (TrackingRun.finalSound_begun hbegun).run hbegin events
  obtain ⟨s₀, nowMs, hopen, hrequest, hsame, rfl, hrecords⟩ :=
    TrackingRun.step_submits hinv hsubmits
  obtain ⟨-, -, -, hexecution, -⟩ := hrequest.unfinished hopen
  have hexplicit : s₀.logical.execution = firstExecution records :=
    hexecution.trans (congrArg firstExecution hrecords.symm)
  have hfinal₀ := TrackingRun.FinalOf.congr hfinal (fun _ => Iff.rfl) hsame
  -- the noted attempts and their keys
  have hserved : noted ≠ [] → ∃ final,
      ServedBy noted records (logicalTerminal start s₀.logical nowMs) final := by
    intro hne
    rcases hfinal₀ with ⟨hnone, -⟩ | ⟨key, ⟨final, hmem, hnoted, rfl⟩, hmax, -, hid, hout⟩
    · obtain ⟨attempt, hattempt⟩ := exists_mem_of_ne_nil _ hne
      obtain ⟨hmem, hnoted⟩ := mem_filter.mp hattempt
      exact absurd ⟨attempt, hmem, hnoted, rfl⟩ (hnone attempt.key)
    · refine ⟨final, mem_filter.mpr ⟨hmem, hnoted⟩, fun other hother => ?_, hid, fun hnone => ?_⟩
      · obtain ⟨hmem', hnoted'⟩ := mem_filter.mp hother
        exact hmax other.key ⟨other, hmem', hnoted', rfl⟩
      · simp only [logicalTerminal, hexplicit, hnone, hout]
        rfl
  refine ⟨fun hnil => ?_, hserved, fun hstatus => ?_⟩
  · rcases hfinal₀ with ⟨-, -, hid, -⟩ | ⟨key, ⟨final, hmem, hnoted, -⟩, -⟩
    · exact hid
    · have : final ∈ noted := mem_filter.mpr ⟨hmem, hnoted⟩
      simp [hnil] at this
  · obtain ⟨hsuccess, hdelivery⟩ := mergeLogicalTerminal_eq_succeeded hstatus
    refine ⟨hdelivery.imp (congrArg some) (congrArg some), ?_⟩
    rw [hexplicit] at hsuccess
    rcases hfirst : firstExecution records with _ | outcome
    · rw [hfirst, Option.none_or] at hsuccess
      right
      by_cases hnil : noted = []
      · rcases hfinal₀ with ⟨-, -, -, hout⟩ | ⟨key, ⟨final, hmem, hnoted, -⟩, -⟩
        · rw [hout] at hsuccess
          cases hsuccess
        · have : final ∈ noted := mem_filter.mpr ⟨hmem, hnoted⟩
          simp [hnil] at this
      · obtain ⟨final, hby⟩ := hserved hnil
        have hout := hby.execution hfirst
        simp only [logicalTerminal, hexplicit, hfirst, Option.none_or, hsuccess,
          Option.some.injEq] at hout
        exact ⟨rfl, final, hby, TrackedAttempt.execution_eq_success hout.symm⟩
    · left
      rw [hfirst] at hsuccess
      exact congrArg some hsuccess

/-- The second attempt closes with success before the first, which it replaced, fails. -/
def replacedAttempt : List TrackingStep :=
  [.openAttempt sampleSpec 1, .openAttempt sampleSpec 2,
    .run 1 (.advance .responseObserved, 3), .run 1 (.successTerminal, 4), .close 1 5, .note 1,
    .run 0 (.advance .dispatchInvoked, 6), .run 0 (.failing none, 6), .close 0 6, .note 0,
    .record (.delivery .cleanEof)]

/-- The terminal of that request is the second attempt's success. -/
theorem terminal_describes_final_attempt_replaced :
    let s := replacedAttempt.foldl (TrackingRun.step sampleStart none) { logical := {} }
    let terminal := logicalTerminal sampleStart s.logical 7
    terminal.status = .succeeded ∧ terminal.finalAttemptId = some "request#2" ∧
      ∃ final, ServedBy (s.attempts.filter TrackedAttempt.isNoted)
        (before (s.step sampleStart none (.finish 7)).log) terminal final := by
  refine ⟨by decide, by decide, ?_⟩
  refine (terminal_describes_final_attempt (.plain none) none replacedAttempt (.finish 7) _
    ?_).2.1 ?_
  · decide
  · decide

end ProviderCore.Usage
