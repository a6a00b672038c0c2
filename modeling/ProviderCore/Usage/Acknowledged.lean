import ProviderCore.Usage.QuotaWriter
import ProviderCore.Usage.Writer

/-!
# What the writers' acknowledgements mean

`UsageWriter::drain` waits for an acknowledgement under a time limit and answers whether the wait
ended within the limit.  The wait also ends when the worker dies and drops the acknowledgement,
so the answer says that the drain was served only as long as no worker dies while a drain waits
(`acknowledged_work_done`); `unserved_drain_true` is a run in which one does.  The quota ledger
writer looks at the acknowledgement itself, and its answers hold in every run.
-/

namespace ProviderCore.Usage

open List

/-! ## The state of a drain -/

/-- The job that a flush is for. -/
def FlushFor.job : FlushFor → List (UsageWrite ⊕ ℕ)
  | .drain call => [.inr call]
  | .write | .exit => []

/-- What is left of the tally that was taken for a drain. -/
def FlushFor.remaining (purpose : FlushFor) (rows : List GapCount) (call : ℕ) :
    Option (List GapCount) :=
  if purpose = .drain call then some rows else none

/-- The job the worker is not done with. -/
def Worker.job : Worker → List (UsageWrite ⊕ ℕ)
  | .applying write | .gapping write _ => [.inl write]
  | .taking purpose | .flushing purpose _ _ => purpose.job
  | .waiting | .stopped => []

/-- What is left of the tally that was taken for a drain. -/
def Worker.remaining : Worker → ℕ → Option (List GapCount)
  | .flushing purpose row rest => purpose.remaining (row :: rest)
  | .applying _ | .gapping _ _ | .taking _ | .waiting | .stopped => fun _ => none

/-- The facts that were queued before the drain are applied, and the tally that was taken for it
is flushed: the repository has answered for each of its rows. -/
structure DrainCall.Done (applied : List UsageWrite) (call : DrainCall) : Prop where
  facts : call.before <+: applied
  tally : call.taken = some call.flushed

/-- The call has answered so, or does when it is polled now. -/
def DrainCall.Answers (call : DrainCall) (answer : Bool) : Prop :=
  call.returned = some answer ∨
    call.returned = none ∧ ∃ elapsed, call.answer elapsed = some answer

/-- A drain waits as long as its flush is among the jobs, and is acknowledged when it is done. -/
structure CallState (marks : List ℕ) (remaining : ℕ → Option (List GapCount))
    (applied : List UsageWrite) (position : ℕ) (call : DrainCall) : Prop where
  waiting : call.ack = .pending ↔ position ∈ marks
  taken : call.ack = .pending → call.taken = (remaining position).map (call.flushed ++ ·)
  sent : call.ack = .sent → call.Done applied

structure Serving (alive : Prop) (queued applied : List UsageWrite) (jobs : List (UsageWrite ⊕ ℕ))
    (remaining : ℕ → Option (List GapCount)) (drains : List DrainCall) : Prop where
  ordered : Channel.Ordered alive queued applied jobs (drains.map DrainCall.before)
  calls : Slots.All (CallState (Channel.markers jobs) remaining applied) drains
  inHand : ∀ position, (remaining position).isSome → position ∈ Channel.markers jobs

theorem DrainCall.Done.mono {call : DrainCall} {applied : List UsageWrite} (h : call.Done applied)
    (write : UsageWrite) : call.Done (applied ++ [write]) :=
  ⟨h.facts.trans (prefix_append _ _), h.tally⟩

namespace Serving

variable {alive alive' : Prop} {queued applied : List UsageWrite} {jobs : List (UsageWrite ⊕ ℕ)}
  {remaining : ℕ → Option (List GapCount)} {drains : List DrainCall} {call : ℕ}

section

variable (h : Serving alive queued applied jobs remaining drains)

include h

theorem imp (himp : alive' → alive) : Serving alive' queued applied jobs remaining drains :=
  ⟨h.ordered.imp himp, h.calls, h.inHand⟩

theorem not_mem_length : drains.length ∉ Channel.markers jobs := by
  intro hmem
  have hlt := h.ordered.lt_length hmem
  rw [length_map] at hlt
  exact Nat.lt_irrefl _ hlt

theorem putWrite (write : UsageWrite) :
    Serving alive (queued ++ [write]) applied (jobs ++ [.inl write]) remaining drains := by
  have hmarkers : Channel.markers (jobs ++ [.inl write]) = Channel.markers jobs := by simp
  refine ⟨h.ordered.putItem write, ?_, ?_⟩
  · rw [hmarkers]
    exact h.calls
  · rw [hmarkers]
    exact h.inHand

theorem putFlush (halive : alive) :
    Serving alive queued applied (jobs ++ [.inr drains.length]) remaining
      (drains ++ [{ before := queued }]) := by
  have hmarkers : Channel.markers (jobs ++ [.inr drains.length]) =
      Channel.markers jobs ++ [drains.length] := by simp
  have hnone : remaining drains.length = none := by
    rw [← Option.not_isSome_iff_eq_none]
    exact fun hsome => h.not_mem_length (h.inHand _ hsome)
  refine ⟨?_, ?_, ?_⟩
  · have hput := h.ordered.putMarker halive
    rw [length_map] at hput
    rw [map_append]
    exact hput
  · rw [hmarkers]
    refine Slots.All.append (fun position call hcall => ?_) ?_
    · have hstate := h.calls position call hcall
      have hne : position ≠ drains.length :=
        Nat.ne_of_lt (List.getElem?_eq_some_iff.mp hcall).1
      refine ⟨?_, hstate.taken, hstate.sent⟩
      rw [hstate.waiting, mem_append, mem_singleton, or_iff_left hne]
    · exact ⟨by simp, fun _ => by rw [hnone]; rfl, (by cases ·)⟩
  · rw [hmarkers]
    exact fun position hsome => mem_append_left _ (h.inHand position hsome)

/-- A drain that finds the worker gone. -/
theorem refuse (call : DrainCall) (hdropped : call.ack = .dropped) :
    Serving alive queued applied jobs remaining (drains ++ [call]) := by
  refine ⟨?_, ?_, h.inHand⟩
  · rw [map_append]
    exact h.ordered.extend _
  · refine h.calls.append ⟨?_, fun hpending => ?_, fun hsent => ?_⟩
    · exact iff_of_false (by simp [hdropped]) h.not_mem_length
    · simp [hdropped] at hpending
    · simp [hdropped] at hsent

end

theorem ordered_modify (h : Channel.Ordered alive queued applied jobs (drains.map DrainCall.before))
    {f : DrainCall → DrainCall} (hf : ∀ call, (f call).before = call.before) :
    Channel.Ordered alive queued applied jobs ((drains.modify call f).map DrainCall.before) := by
  rw [Slots.map_modify_eq hf]
  exact h

/-- Changing what a drain answered. -/
theorem answer (h : Serving alive queued applied jobs remaining drains)
    (f : DrainCall → Option Bool) :
    Serving alive queued applied jobs remaining
      (drains.modify call fun call => { call with returned := f call }) := by
  refine ⟨?_, ?_, h.inHand⟩
  · exact ordered_modify h.ordered fun _ => rfl
  · exact h.calls.modify (fun _ _ _ hstate => hstate) fun _ _ hstate =>
      ⟨hstate.waiting, hstate.taken,
        fun hsent => ⟨(hstate.sent hsent).facts, (hstate.sent hsent).tally⟩⟩

theorem apply {write : UsageWrite}
    (h : Serving alive queued applied (.inl write :: jobs) remaining drains) :
    Serving alive queued (applied ++ [write]) jobs remaining drains :=
  ⟨h.ordered.see,
    h.calls.mono fun _ _ hstate =>
      ⟨hstate.waiting, hstate.taken, fun hsent => (hstate.sent hsent).mono write⟩,
    h.inHand⟩

/-- The tally of the drain at the head changes: what is left of it follows what is flushed. -/
theorem flush {f : DrainCall → DrainCall} {rows : List GapCount}
    (h : Serving alive queued applied (.inr call :: jobs) remaining drains)
    (hbefore : ∀ call, (f call).before = call.before) (hack : ∀ call, (f call).ack = call.ack)
    (hnone : ∀ position, position ≠ call → remaining position = none)
    (htaken : ∀ other, other.taken = (remaining call).map (other.flushed ++ ·) →
      (f other).taken = some ((f other).flushed ++ rows)) :
    Serving alive queued applied (.inr call :: jobs) ((FlushFor.drain call).remaining rows)
      (drains.modify call f) := by
  have hmem : call ∈ Channel.markers (.inr call :: jobs) := mem_cons_self
  refine ⟨ordered_modify h.ordered hbefore, ?_, fun position hsome => ?_⟩
  · refine h.calls.modify (fun position other hne hstate => ?_) fun other _ hstate => ?_
    · refine ⟨hstate.waiting, fun hpending => ?_, hstate.sent⟩
      rw [hstate.taken hpending, hnone position hne, FlushFor.remaining,
        if_neg (by simpa using Ne.symm hne)]
    · have hpending := hstate.waiting.mpr hmem
      refine ⟨by rw [hack, hstate.waiting], fun _ => ?_, fun hsent => ?_⟩
      · rw [FlushFor.remaining, if_pos rfl]
        exact htaken other (hstate.taken hpending)
      · cases hpending.symm.trans ((hack other).symm.trans hsent)
  · rw [FlushFor.remaining, Option.isSome_ite] at hsome
    cases hsome
    exact hmem

theorem take (h : Serving alive queued applied (.inr call :: jobs) (fun _ => none) drains)
    (rows : List GapCount) :
    Serving alive queued applied (.inr call :: jobs) ((FlushFor.drain call).remaining rows)
      (drains.modify call ({ · with taken := some rows, flushed := [] })) :=
  h.flush (fun _ => rfl) (fun _ => rfl) (fun _ _ => rfl) fun _ _ => rfl

/-- The repository has answered for a row of a drain's tally. -/
theorem settleRow {row : GapCount} {rest : List GapCount}
    (h : Serving alive queued applied (.inr call :: jobs)
      ((FlushFor.drain call).remaining (row :: rest)) drains) :
    Serving alive queued applied (.inr call :: jobs) ((FlushFor.drain call).remaining rest)
      (drains.modify call fun call => { call with flushed := call.flushed ++ [row] }) := by
  refine h.flush (fun _ => rfl) (fun _ => rfl) (fun position hne => ?_) fun other htaken => ?_
  · exact if_neg (by simpa using Ne.symm hne)
  · simpa [FlushFor.remaining] using htaken

/-- The tally of a drain is flushed: it is done, and acknowledged. -/
theorem finish
    (h : Serving alive queued applied (.inr call :: jobs) ((FlushFor.drain call).remaining [])
      drains) :
    Serving alive queued applied jobs (fun _ => none)
      (drains.modify call ({ · with ack := .sent })) := by
  have hnodup := h.ordered.nodup
  rw [Channel.markers_inr, nodup_cons] at hnodup
  refine ⟨?_, ?_, fun _ hsome => by cases hsome⟩
  · exact ordered_modify h.ordered.pass fun _ => rfl
  · refine h.calls.modify (fun position other hne hstate => ?_) fun other hother hstate => ?_
    · refine ⟨?_, fun hpending => ?_, hstate.sent⟩
      · rw [hstate.waiting, Channel.markers_inr, mem_cons, or_iff_right hne]
      · rw [hstate.taken hpending, FlushFor.remaining, if_neg (by simpa using Ne.symm hne)]
    · refine ⟨iff_of_false (by simp) hnodup.1, (by cases ·), fun _ => ⟨?_, ?_⟩⟩
      · -- The flush is at the head, so what was queued before it is what was applied.
        have hseen := h.ordered.seen_eq
        rw [List.getElem?_map, hother] at hseen
        rw [Option.some.inj hseen]
      · have htaken := hstate.taken (hstate.waiting.mpr mem_cons_self)
        rw [FlushFor.remaining, if_pos rfl] at htaken
        simpa using htaken

theorem die (h : Serving alive queued applied jobs remaining drains) (hdead : ¬alive') :
    Serving alive' queued applied [] (fun _ => none)
      (drains.map fun call => { call with ack := call.ack.abandon }) := by
  refine ⟨.lost _ _ _ hdead, ?_, fun _ hsome => by cases hsome⟩
  refine h.calls.map fun _ call hstate => ?_
  have hgone : call.ack.abandon ≠ .pending := by cases call.ack <;> decide
  refine ⟨iff_of_false hgone (not_mem_nil), fun hpending => absurd hpending hgone, fun hsent => ?_⟩
  have hdone := hstate.sent (Ack.abandon_eq_sent.mp hsent)
  exact ⟨hdone.facts, hdone.tally⟩

/-- A drain that waits is not done, as long as the flush has rows left. -/
theorem not_done (h : Serving alive queued applied jobs remaining drains)
    (hrest : ∀ position, remaining position ≠ some []) {position : ℕ} {call : DrainCall}
    (hcall : drains[position]? = some call) (hpending : call.ack = .pending) :
    ¬call.Done applied := by
  intro hdone
  have htaken := (h.calls position call hcall).taken hpending
  rw [hdone.tally] at htaken
  obtain ⟨rows, hrows, hflushed⟩ := Option.map_eq_some_iff.mp htaken.symm
  obtain rfl : rows = [] := append_right_eq_self.mp hflushed
  exact hrest position hrows

end Serving

/-! ## Drains over whole runs -/

/-- A step of the writer, or the death of its worker. -/
inductive WriterEvent
  | step (step : WriterStep)
  | die

namespace UsageWriter

section

variable (s : UsageWriter)

/-- The worker task ends early and drops the queue with every acknowledgement that is not sent. -/
def die : UsageWriter :=
  { s with
    worker := .stopped
    queue := []
    drains := s.drains.map fun call => { call with ack := call.ack.abandon } }

def event : WriterEvent → UsageWriter
  | .step step => s.step step
  | .die => s.die

def runEvents (events : List WriterEvent) : UsageWriter := events.foldl event s

/-- What the worker is not done with, in order. -/
def jobs : List (UsageWrite ⊕ ℕ) := s.worker.job ++ s.queue.map Job.view

def Orderly : Prop :=
  Serving (s.worker ≠ .stopped) s.queued s.applied s.jobs s.worker.remaining s.drains

end

variable {s : UsageWriter}

theorem orderly_spawn (capacity : ℕ) : (spawn capacity).Orderly :=
  ⟨.nil _, Slots.all_nil, fun _ hsome => by cases hsome⟩

theorem jobs_push (s : UsageWriter) (job : Job) :
    s.jobs ++ [job.view] = s.worker.job ++ (s.queue ++ [job]).map Job.view := by
  simp [jobs]

section

variable (h : s.Orderly)

include h

theorem Orderly.submit (write : UsageWrite) : (s.submit write).Orderly := by
  unfold UsageWriter.submit
  split_ifs
  · exact h
  · have hput := h.putWrite write
    rw [show s.jobs ++ [.inl write] = _ from s.jobs_push (.write write)] at hput
    exact hput
  · exact h

theorem Orderly.tally (submission : ℕ) : (s.tally submission).Orderly := by
  unfold UsageWriter.tally
  split <;> exact h

theorem Orderly.drain : s.drain.Orderly := by
  unfold UsageWriter.drain
  split_ifs with hclosed hstopped hroom
  · exact h
  · exact h.refuse _ rfl
  · have hput := h.putFlush hstopped
    rw [show s.jobs ++ [.inr s.drains.length] = _ from s.jobs_push (.flush _)] at hput
    exact hput
  · exact h

theorem Orderly.close : s.close.Orderly := by
  unfold UsageWriter.close
  split_ifs <;> exact h

theorem Orderly.move {old worker : Worker} {queue : List Job} (hworker : s.worker = old)
    (hjobs : worker.job ++ queue.map Job.view = old.job ++ s.queue.map Job.view)
    (hremaining : worker.remaining = old.remaining) (hstop : old ≠ .stopped) :
    ({ s with worker, queue } : UsageWriter).Orderly := by
  subst hworker
  have hserving := h.imp fun _ : worker ≠ .stopped => hstop
  rw [jobs, ← hjobs, ← hremaining] at hserving
  exact hserving

theorem Orderly.recv : s.recv.Orderly := by
  unfold UsageWriter.recv
  split
  case h_1 write queue hworker hqueue => exact h.move hworker (by rw [hqueue]; rfl) rfl nofun
  case h_2 call queue hworker hqueue => exact h.move hworker (by rw [hqueue]; rfl) rfl nofun
  case h_3 hworker hqueue =>
    split_ifs
    · exact h.move hworker rfl rfl nofun
    · exact h
  case h_4 => exact h

/-- The worker is done with a fact and goes on to the tally. -/
theorem Orderly.apply {old : Worker} {write : UsageWrite} (hworker : s.worker = old)
    (hjob : old.job = [.inl write]) (hremaining : old.remaining = fun _ => none)
    (hstop : old ≠ .stopped) :
    Serving True s.queued (s.applied ++ [write]) (s.queue.map Job.view) (fun _ => none)
      s.drains := by
  subst hworker
  have hserving : Serving True _ _ _ _ _ := h.imp fun _ => hstop
  rw [jobs, hjob, hremaining] at hserving
  exact hserving.apply

theorem Orderly.answered (recorded : Bool)
    (completed : Option LogicalWriteOutcome) : (s.answered recorded completed).Orderly := by
  unfold UsageWriter.answered
  split
  case h_1 write hworker =>
    split
    · exact (h.apply hworker rfl rfl nofun).imp fun _ => trivial
    · exact h.move hworker rfl rfl nofun
  case h_2 => exact h

theorem Orderly.gapAnswered (written : Bool) : (s.gapAnswered written).Orderly := by
  unfold UsageWriter.gapAnswered
  split
  case h_1 write reason hworker =>
    have happly := h.apply hworker rfl rfl nofun
    cases written <;> exact happly.imp fun _ => trivial
  case h_2 => exact h

end

variable {purpose : FlushFor}

/-- The loop over the rows that are left of a flush. -/
theorem orderly_flushRows {rows : List GapCount}
    (h : Serving True s.queued s.applied (purpose.job ++ s.queue.map Job.view)
      (purpose.remaining rows) s.drains) : (s.flushRows purpose rows).Orderly := by
  cases rows with
  | cons => exact h.imp fun _ => trivial
  | nil =>
    cases purpose with
    | write | exit => exact h.imp fun _ => trivial
    | drain => exact h.finish.imp fun _ => trivial

theorem Orderly.take (h : s.Orderly) (rows : List GapCount) : (s.take rows).Orderly := by
  unfold UsageWriter.take
  split
  case h_1 purpose hworker =>
    split_ifs
    · have hserving : Serving True _ _ _ _ _ := h.imp fun _ => by simp [hworker]
      rw [jobs, hworker] at hserving
      refine orderly_flushRows ?_
      cases purpose with
      | write | exit => exact hserving
      | drain => exact hserving.take rows
    · exact h
  case h_2 => exact h

theorem settle_eq (row : GapCount) (written : Bool) :
    ∃ shed gaps, s.settle row written = { s with shed, gaps } := by
  cases written with
  | true => exact ⟨s.shed, s.gaps ++ [row], rfl⟩
  | false => exact ⟨s.shed.giveUp row.2, s.gaps, rfl⟩

theorem Orderly.rowAnswered (h : s.Orderly) (written : Bool) : (s.rowAnswered written).Orderly := by
  unfold UsageWriter.rowAnswered
  split
  case h_1 purpose row rest hworker =>
    have hserving : Serving True _ _ _ _ _ := h.imp fun _ => by simp [hworker]
    rw [jobs, hworker] at hserving
    obtain ⟨_, _, hsettle⟩ := s.settle_eq row written
    rw [hsettle]
    refine orderly_flushRows ?_
    cases purpose with
    | write | exit => exact hserving
    | drain => exact hserving.settleRow
  case h_2 => exact h

theorem Orderly.event (h : s.Orderly) (event : WriterEvent) : (s.event event).Orderly := by
  cases event with
  | die => exact h.die (absurd rfl)
  | step step =>
    cases step with
    | submit write => exact h.submit write
    | tally submission => exact h.tally submission
    | drain => exact h.drain
    | returnDrain => exact h.answer _
    | close => exact h.close
    | recv => exact h.recv
    | answered recorded completed => exact h.answered recorded completed
    | gapAnswered written => exact h.gapAnswered written
    | take rows => exact h.take rows
    | rowAnswered written => exact h.rowAnswered written

theorem Orderly.runEvents (h : s.Orderly) (events : List WriterEvent) :
    (s.runEvents events).Orderly := by
  induction events generalizing s with
  | nil => exact h
  | cons event _ ih => exact ih (h.event event)

theorem runEvents_append (events : List WriterEvent) (event : WriterEvent) :
    s.runEvents (events ++ [event]) = (s.runEvents events).event event := by
  rw [UsageWriter.runEvents, foldl_append]
  rfl

/-! ## Honest answers -/

/-- A drain that answers `true` is done. -/
def Honest (s : UsageWriter) : Prop :=
  ∀ call ∈ s.drains, call.Answers true → call.Done s.applied

/-- Every drain that has not returned is acknowledged or knows that it will not be. -/
def NoDrainWaits (s : UsageWriter) : Prop :=
  ∀ call ∈ s.drains, call.returned = none → call.ack ≠ .pending

/-- No drain that waits lost its acknowledgement, and none answered `true` without it. -/
structure Trusted (call : DrainCall) : Prop where
  returned : call.returned = some true → call.ack = .sent
  waiting : call.returned = none → call.ack ≠ .dropped

def Spared (s : UsageWriter) : Prop := Slots.All (fun _ => Trusted) s.drains

/-- The defect of `drain`: the wait ends in time with an acknowledgement that was dropped. -/
theorem answer_eq_true {call : DrainCall} {elapsed : Bool} :
    call.answer elapsed = some true ↔ call.ack ≠ .pending := by
  unfold DrainCall.answer
  cases call.ack <;> cases elapsed <;> decide

theorem Spared.onDrain (h : s.Spared) {f : DrainCall → DrainCall}
    (hf : ∀ call, Trusted call → Trusted (f call)) : (s.onDrain purpose f).Spared := by
  cases purpose with
  | drain => exact Slots.All.modify h (fun _ _ _ kept => kept) fun other _ kept => hf other kept
  | write | exit => exact h

theorem Spared.flushRows (h : s.Spared) (purpose : FlushFor) (rows : List GapCount) :
    (s.flushRows purpose rows).Spared := by
  cases rows with
  | cons => exact h
  | nil =>
    cases purpose with
    | write | exit => exact h
    | drain => exact h.onDrain fun _ _ => ⟨fun _ => rfl, fun _ => by simp⟩

theorem Spared.returnDrain (h : s.Spared) (drain : ℕ) (elapsed : Bool) :
    (s.returnDrain drain elapsed).Spared := by
  refine Slots.All.modify h (fun _ _ _ kept => kept) fun call _ kept =>
    ⟨fun htrue => ?_, fun hnone => ?_⟩
  · rcases hreturned : call.returned with _ | answer
    · simp only [hreturned, Option.none_or] at htrue
      exact Ack.eq_sent (answer_eq_true.mp htrue) (kept.waiting hreturned)
    · simp only [hreturned, Option.some_or] at htrue
      exact kept.returned (hreturned.trans htrue)
  · exact kept.waiting (Option.or_eq_none_iff.mp hnone).1

theorem Spared.step (h : s.Spared) (step : WriterStep) : (s.step step).Spared := by
  cases step with
  | submit write =>
    simp only [UsageWriter.step, UsageWriter.submit]
    split_ifs <;> exact h
  | tally submission =>
    simp only [UsageWriter.step, UsageWriter.tally]
    split <;> exact h
  | drain =>
    simp only [UsageWriter.step, UsageWriter.drain]
    split_ifs
    · exact h
    · exact Slots.All.append h ⟨by simp, by simp⟩
    · exact Slots.All.append h ⟨by simp, by simp⟩
    · exact h
  | returnDrain drain elapsed => exact h.returnDrain drain elapsed
  | close =>
    simp only [UsageWriter.step, UsageWriter.close]
    split_ifs <;> exact h
  | recv =>
    simp only [UsageWriter.step, UsageWriter.recv]
    split <;> first | exact h | (split_ifs <;> exact h)
  | answered recorded completed =>
    simp only [UsageWriter.step, UsageWriter.answered]
    split
    · split <;> exact h
    · exact h
  | gapAnswered written =>
    simp only [UsageWriter.step, UsageWriter.gapAnswered]
    split
    · cases written <;> exact h
    · exact h
  | take rows =>
    simp only [UsageWriter.step, UsageWriter.take]
    split
    · split_ifs
      · refine Spared.flushRows (Spared.onDrain ?_ ?_) _ _
        · exact h
        · exact fun _ kept => ⟨kept.returned, kept.waiting⟩
      · exact h
    · exact h
  | rowAnswered written =>
    simp only [UsageWriter.step, UsageWriter.rowAnswered]
    split
    · refine Spared.flushRows (Spared.onDrain ?_ ?_) _ _
      · cases written <;> exact h
      · exact fun _ kept => ⟨kept.returned, kept.waiting⟩
    · exact h

theorem Spared.event (h : s.Spared) {event : WriterEvent} (hdie : event = .die → s.NoDrainWaits) :
    (s.event event).Spared := by
  cases event with
  | step step => exact h.step step
  | die =>
    intro position call hcall
    have hmapped : (s.drains.map fun call => { call with ack := call.ack.abandon })[position]? =
      some call := hcall
    rw [List.getElem?_map] at hmapped
    obtain ⟨old, hold, rfl⟩ := Option.map_eq_some_iff.mp hmapped
    have kept := h position old hold
    refine ⟨fun htrue => Ack.abandon_eq_sent.mpr (kept.returned htrue), fun hnone => ?_⟩
    have hack := hdie rfl old (mem_of_getElem? hold) hnone
    have hkept := kept.waiting hnone
    show old.ack.abandon ≠ .dropped
    rw [Ack.eq_sent hack hkept]
    decide

theorem Spared.honest (h : s.Spared) (horderly : s.Orderly) : s.Honest := by
  intro call hcall htrue
  obtain ⟨position, hposition⟩ := getElem?_of_mem hcall
  have kept := h position call hposition
  have hstate := horderly.calls position call hposition
  rcases htrue with hreturned | ⟨hreturned, elapsed, hanswer⟩
  · exact hstate.sent (kept.returned hreturned)
  · exact hstate.sent (Ack.eq_sent (answer_eq_true.mp hanswer) (kept.waiting hreturned))

theorem remaining_ne_nil (worker : Worker) (position : ℕ) :
    worker.remaining position ≠ some [] := by
  cases worker with
  | flushing =>
    rw [Worker.remaining, FlushFor.remaining]
    split <;> simp
  | waiting | applying | gapping | taking | stopped => simp [Worker.remaining]

/-- A drain that waits when the worker dies answers `true` without having been served. -/
theorem NoDrainWaits.of_honest_die (horderly : s.Orderly) (h : s.die.Honest) : s.NoDrainWaits := by
  intro call hcall hreturned hpending
  obtain ⟨_, hposition⟩ := getElem?_of_mem hcall
  have hdropped : call.ack.abandon = .dropped := by rw [hpending]; rfl
  have hmem : { call with ack := call.ack.abandon } ∈ s.die.drains := mem_map_of_mem hcall
  have hanswer : DrainCall.Answers { call with ack := call.ack.abandon } true := by
    refine .inr ⟨hreturned, false, answer_eq_true.mpr ?_⟩
    simp [hdropped]
  have hdone := h _ hmem hanswer
  exact horderly.not_done (remaining_ne_nil _) hposition hpending ⟨hdone.facts, hdone.tally⟩

theorem spared_spawn (capacity : ℕ) : (spawn capacity).Spared := Slots.all_nil

/-- Along a run in which no worker dies while a drain waits. -/
theorem Spared.runEvents (h : s.Spared) (events : List WriterEvent)
    (hdie : ∀ past, past ++ [.die] <+: events → (s.runEvents past).NoDrainWaits) :
    (s.runEvents events).Spared := by
  induction events using List.reverseRecOn with
  | nil => exact h
  | append_singleton events _ ih =>
    have hpast := ih fun past hpast => hdie past (hpast.trans (prefix_append _ _))
    rw [runEvents_append]
    refine hpast.event fun heq => ?_
    subst heq
    exact hdie events prefix_rfl

/-- The answers of `drain` are honest throughout a run just when no worker dies in it while a
drain waits. -/
theorem honest_iff (capacity : ℕ) (events : List WriterEvent) :
    (∀ past, past <+: events → ((spawn capacity).runEvents past).Honest) ↔
      ∀ past, past ++ [.die] <+: events → ((spawn capacity).runEvents past).NoDrainWaits := by
  have horderly := fun past => (orderly_spawn capacity).runEvents past
  constructor
  · intro honest past hpast
    have hdied := honest _ hpast
    rw [runEvents_append] at hdied
    exact NoDrainWaits.of_honest_die (horderly past) hdied
  · intro hdie past hpast
    have hspared := (spared_spawn capacity).runEvents past fun earlier hearlier =>
      hdie earlier (hearlier.trans hpast)
    exact hspared.honest (horderly past)

end UsageWriter

/-- A positive acknowledgement means the work is done.  For the quota ledger writer: a receipt
that answered `true` belongs to an entry that the repository accepted with its attempts, and so
do the submissions before a drain that answered `true`.  For the usage writer: a drain that
answers `true` is done, in exactly the runs in which no worker dies while a drain waits. -/
theorem acknowledged_work_done (capacity : ℕ) :
    (∀ steps : List QuotaWriterStep,
      let s := (QuotaLedgerWriter.spawn capacity).run steps
      (∀ position receipt, s.receipts[position]? = some receipt → receipt.returned = some true →
        (position, receipt.entry) ∈ s.accepted ∧
          ∀ attempt ∈ receipt.entry.attempts, (position, attempt) ∈ s.recorded) ∧
      ∀ call ∈ s.drains, call.returned = some true →
        call.before <+: s.accepted ∧
          ∀ submission ∈ call.before, ∀ attempt ∈ submission.2.attempts,
            (submission.1, attempt) ∈ s.recorded) ∧
    ∀ events : List WriterEvent,
      (∀ past, past <+: events → ((UsageWriter.spawn capacity).runEvents past).Honest) ↔
        ∀ past, past ++ [.die] <+: events →
          ((UsageWriter.spawn capacity).runEvents past).NoDrainWaits := by
  refine ⟨fun steps => ?_, UsageWriter.honest_iff capacity⟩
  have h := (QuotaLedgerWriter.kept_spawn capacity).run steps
  have hattempts : ∀ submission ∈ ((QuotaLedgerWriter.spawn capacity).run steps).accepted,
      ∀ attempt ∈ submission.2.attempts,
        (submission.1, attempt) ∈ ((QuotaLedgerWriter.spawn capacity).run steps).recorded := by
    intro submission hsubmission attempt hattempt
    exact (h.accepted submission hsubmission attempt hattempt).resolve_left not_mem_nil
  constructor
  · intro position receipt hreceipt htrue
    have kept := h.receipts position receipt hreceipt
    have haccepted := kept.sent (kept.returned htrue)
    exact ⟨haccepted, hattempts _ haccepted⟩
  · intro call hcall htrue
    obtain ⟨position, hposition⟩ := getElem?_of_mem hcall
    have kept := h.drains position call hposition
    have hbefore := kept.sent (kept.returned htrue)
    exact ⟨hbefore, fun submission hsubmission => hattempts submission (hbefore.subset hsubmission)⟩

/-- A fact is queued, a drain waits for it, and the worker dies: the drain answers `true` in time,
although the fact was never applied and no tally was taken. -/
theorem unserved_drain_true :
    let write : UsageWrite := ⟨"ada", 0, .gap .observationLost⟩
    let s := (UsageWriter.spawn 2).runEvents
      [.step (.submit write), .step .drain, .die, .step (.returnDrain 0 false)]
    s.drains = [⟨[write], none, [], .dropped, some true⟩] ∧ s.applied = [] := by
  decide

end ProviderCore.Usage
