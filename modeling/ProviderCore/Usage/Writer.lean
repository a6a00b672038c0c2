import ProviderCore.Lib.Channel
import ProviderCore.Lib.Tally
import ProviderCore.Usage.Facts

/-!
# The usage writer

The writer of `provider-usage/src/writer.rs`: submissions enter a bounded queue or are shed into
a tally of gaps, and one worker applies the queue in order and flushes the tally after each job.
`UsageWriter.step` interleaves the submitting threads with the worker, which stops at every call
of the repository; the repository's answers are the steps' own data.

A shed submission takes two steps, since the queue may have room again before the tally is
locked.  `take` receives the drained rows in any order, as the hash map gives them.  Times are
wall-clock milliseconds; counters do not wrap.

`facts_accounted` is the conservation law: the fact of every `submit` call is accepted, counted as
a gap, counted as unrecorded, still with the writer, or in the tally.
-/

namespace ProviderCore.Usage

open List Channel

inductive UsageFact
  | attempt (facts : AttemptFacts)
  | logicalTerminal (terminal : LogicalRequestTerminal)
  /-- A gap the caller already knows about. -/
  | gap (reason : TrackingGapReason)
deriving DecidableEq

/-- One fact to persist, with the identity and time needed to attribute a failure. -/
structure UsageWrite where
  ownerUserId : String
  atMs : ℤ
  fact : UsageFact
deriving DecidableEq

def gapBucketMs : ℤ := 60000

def maxPendingGapKeys : ℕ := 4096

def gapBucket (atMs : ℤ) : ℤ := atMs - atMs % gapBucketMs

/-- Owner, reason and bucket. -/
abbrev GapKey := String × TrackingGapReason × ℤ

/-- A row of the tally, and a gap as the repository records it. -/
abbrev GapCount := GapKey × ℕ

/-! ## The tally -/

/-- Shed facts, aggregated per owner, reason and minute so they need no queue. -/
structure ShedGaps where
  counts : Tally GapKey := .empty
  unrecorded : ℕ := 0

namespace ShedGaps

def giveUp (shed : ShedGaps) (count : ℕ) : ShedGaps :=
  { shed with unrecorded := shed.unrecorded + count }

/-- Only new keys are refused at the cap. -/
def tally (shed : ShedGaps) (key : GapKey) : ShedGaps :=
  if maxPendingGapKeys ≤ shed.counts.rows.length ∧ shed.counts.find? key = none then
    shed.giveUp 1
  else { shed with counts := Tally.add shed.counts key 1 }

/-- The counts still in the tally. -/
def tallied (shed : ShedGaps) : ℕ := shed.counts.sum Prod.snd

variable {shed : ShedGaps}

/-- A shed fact is counted once, in the tally or as unrecorded. -/
theorem tally_counts (key : GapKey) :
    (shed.tally key).tallied + (shed.tally key).unrecorded =
      shed.tallied + shed.unrecorded + 1 := by
  unfold tally
  split
  · exact (Nat.add_assoc _ _ _).symm
  · simp only [tallied, Tally.sum_add]
    omega

/-- The tally keeps to its cap. -/
theorem length_tally_le (key : GapKey) (h : shed.counts.rows.length ≤ maxPendingGapKeys) :
    (shed.tally key).counts.rows.length ≤ maxPendingGapKeys := by
  unfold tally
  split
  case isTrue => exact h
  case isFalse hroom =>
    rcases hkey : shed.counts.find? key with _ | row
    · have hbelow : ¬maxPendingGapKeys ≤ shed.counts.rows.length := fun hfull => hroom ⟨hfull, hkey⟩
      rw [Tally.length_add_of_new hkey]
      omega
    · rwa [Tally.length_add_of_mem hkey]

end ShedGaps

/-! ## The queue and the worker -/

/-- What the queue carries; a flush names the drain that waits for it. -/
inductive Job
  | write (submission : UsageWrite)
  | flush (call : ℕ)
deriving DecidableEq

/-- A job as an item or a marker of the queue. -/
def Job.view : Job → UsageWrite ⊕ ℕ
  | .write submission => .inl submission
  | .flush call => .inr call

/-- Why the worker flushes the tally: after a write, for a drain, or on its way out. -/
inductive FlushFor
  | write
  | drain (call : ℕ)
  | exit
deriving DecidableEq

inductive Worker
  /-- At `recv`. -/
  | waiting
  /-- The fact is with the repository. -/
  | applying (write : UsageWrite)
  /-- The gap in place of the fact is with the repository. -/
  | gapping (write : UsageWrite) (reason : TrackingGapReason)
  /-- About to take the tally. -/
  | taking (purpose : FlushFor)
  /-- One taken row is with the repository, the others follow. -/
  | flushing (purpose : FlushFor) (row : GapCount) (rest : List GapCount)
  | stopped
deriving DecidableEq

/-- The facts that the worker holds, in itself or as taken counts. -/
def Worker.inHand : Worker → ℕ
  | .applying _ | .gapping _ _ => 1
  | .flushing _ row rest => row.2 + (rest.map Prod.snd).sum
  | .waiting | .taking _ | .stopped => 0

structure DrainCall where
  /-- The facts that were queued before it. -/
  before : List UsageWrite
  /-- The tally that was taken for it. -/
  taken : Option (List GapCount) := none
  /-- What the repository has answered for of that tally. -/
  flushed : List GapCount := []
  ack : Ack := .pending
  returned : Option Bool := none
deriving DecidableEq

/-- What `drain` answers: whether the wait ended in time. -/
def DrainCall.answer (call : DrainCall) (elapsed : Bool) : Option Bool :=
  (Ack.timeout elapsed call.ack.poll).map fun result => result.isOk

structure UsageWriter where
  capacity : ℕ
  queue : List Job := []
  worker : Worker := .waiting
  shed : ShedGaps := {}
  /-- The last handle is dropped. -/
  closed : Bool := false
  /-- Submissions that did not fit and are about to be tallied. -/
  shedding : List UsageWrite := []
  drains : List DrainCall := []
  /-- The facts that entered the queue. -/
  queued : List UsageWrite := []
  /-- Those the worker is done with. -/
  applied : List UsageWrite := []
  /-- Those the repository accepted. -/
  accepted : List UsageWrite := []
  /-- The gaps the repository recorded. -/
  gaps : List GapCount := []

/-- Why a fact is a gap: its own reason, or the repository did not accept it. -/
def UsageFact.failure (recorded : Bool) (completed : Option LogicalWriteOutcome) :
    UsageFact → Option TrackingGapReason
  | .attempt _ => if recorded then none else some .writeFailed
  | .logicalTerminal _ =>
    match completed with
    | some .missingRequest | none => some .writeFailed
    | some .written | some .alreadyKnown => none
  | .gap reason => some reason

def UsageFact.shedReason : UsageFact → TrackingGapReason
  | .gap reason => reason
  | .attempt _ | .logicalTerminal _ => .writerSaturated

def UsageWrite.gapKey (write : UsageWrite) (reason : TrackingGapReason) : GapKey :=
  (write.ownerUserId, reason, gapBucket write.atMs)

/-- The steps of the submitting threads and of the worker.  Those of the worker carry what the
repository answered; a failed call answers `false` or `none`. -/
inductive WriterStep
  | submit (write : UsageWrite)
  | tally (submission : ℕ)
  | drain
  | returnDrain (drain : ℕ) (elapsed : Bool)
  | close
  | recv
  | answered (recorded : Bool) (completed : Option LogicalWriteOutcome)
  | gapAnswered (written : Bool)
  | take (rows : List GapCount)
  | rowAnswered (written : Bool)

namespace UsageWriter

def spawn (capacity : ℕ) : UsageWriter := { capacity }

section

variable (s : UsageWriter)

def hasRoom : Bool :=
  decide (s.worker ≠ .stopped) && decide (s.queue.length < max s.capacity 1)

def push (job : Job) : UsageWriter := { s with queue := s.queue ++ [job] }

/-- The first half of `submit`. -/
def submit (write : UsageWrite) : UsageWriter :=
  if s.closed then s
  else if s.hasRoom then
    { s.push (.write write) with queued := s.queued ++ [write] }
  else { s with shedding := s.shedding ++ [write] }

/-- The second half of a submission that did not fit. -/
def tally (submission : ℕ) : UsageWriter :=
  match s.shedding[submission]? with
  | none => s
  | some write =>
    { s with
      shedding := s.shedding.eraseIdx submission
      shed := s.shed.tally (write.gapKey write.fact.shedReason) }

/-- The send of `drain`, which waits for room and fails when the worker is gone. -/
def drain : UsageWriter :=
  if s.closed then s
  else if s.worker = .stopped then
    { s with
      drains := s.drains ++ [{ before := s.queued, ack := .dropped, returned := some false }] }
  else if s.hasRoom then
    { s.push (.flush s.drains.length) with drains := s.drains ++ [{ before := s.queued }] }
  else s

/-- The rest of `drain`. -/
def returnDrain (drain : ℕ) (elapsed : Bool) : UsageWriter :=
  { s with
    drains := s.drains.modify drain fun call =>
      { call with returned := call.returned.or (call.answer elapsed) } }

/-- The last handle is dropped; no submission is under way then. -/
def close : UsageWriter :=
  if s.shedding = [] then { s with closed := true } else s

/-- The worker receives a job, or leaves when the queue is empty and closed. -/
def recv : UsageWriter :=
  match s.worker, s.queue with
  | .waiting, .write write :: queue => { s with queue, worker := .applying write }
  | .waiting, .flush drain :: queue => { s with queue, worker := .taking (.drain drain) }
  | .waiting, [] => if s.closed then { s with worker := .taking .exit } else s
  | _, _ => s

/-- The repository has answered for the fact of `apply`. -/
def answered (recorded : Bool) (completed : Option LogicalWriteOutcome) : UsageWriter :=
  match s.worker with
  | .applying write =>
    match write.fact.failure recorded completed with
    | none =>
      { s with
        worker := .taking .write
        applied := s.applied ++ [write]
        accepted := s.accepted ++ [write] }
    | some reason => { s with worker := .gapping write reason }
  | _ => s

/-- The repository has answered for a gap, which is counted when it was not written. -/
def settle (row : GapCount) (written : Bool) : UsageWriter :=
  if written then { s with gaps := s.gaps ++ [row] } else { s with shed := s.shed.giveUp row.2 }

/-- The repository has answered for the gap of `apply`. -/
def gapAnswered (written : Bool) : UsageWriter :=
  match s.worker with
  | .gapping write reason =>
    { s.settle (write.gapKey reason, 1) written with
      worker := .taking .write
      applied := s.applied ++ [write] }
  | _ => s

/-- Change the drain that the worker flushes for. -/
def onDrain (purpose : FlushFor) (f : DrainCall → DrainCall) : UsageWriter :=
  match purpose with
  | .drain drain => { s with drains := s.drains.modify drain f }
  | .write | .exit => s

/-- What follows a flush: the next job, an acknowledgement, or the end. -/
def finishFlush (purpose : FlushFor) : UsageWriter :=
  match purpose with
  | .write => { s with worker := .waiting }
  | .drain _ => { s.onDrain purpose ({ · with ack := .sent }) with worker := .waiting }
  | .exit => { s with worker := .stopped }

/-- The loop of `flush_shed` with the rows that are left. -/
def flushRows (purpose : FlushFor) : List GapCount → UsageWriter
  | [] => s.finishFlush purpose
  | row :: rest => { s with worker := .flushing purpose row rest }

/-- The start of `flush_shed`. -/
def take (rows : List GapCount) : UsageWriter :=
  match s.worker with
  | .taking purpose =>
    if rows.Perm s.shed.counts.rows then
      flushRows
        ({ s with shed := { s.shed with counts := .empty } }.onDrain purpose
          ({ · with taken := some rows, flushed := [] })) purpose rows
    else s
  | _ => s

/-- The repository has answered for a row of the taken tally. -/
def rowAnswered (written : Bool) : UsageWriter :=
  match s.worker with
  | .flushing purpose row rest =>
    flushRows
      ((s.settle row written).onDrain purpose fun call =>
        { call with flushed := call.flushed ++ [row] }) purpose rest
  | _ => s

def step : WriterStep → UsageWriter
  | .submit write => s.submit write
  | .tally submission => s.tally submission
  | .drain => s.drain
  | .returnDrain drain elapsed => s.returnDrain drain elapsed
  | .close => s.close
  | .recv => s.recv
  | .answered recorded completed => s.answered recorded completed
  | .gapAnswered written => s.gapAnswered written
  | .take rows => s.take rows
  | .rowAnswered written => s.rowAnswered written

def run (steps : List WriterStep) : UsageWriter := steps.foldl step s

/-- The calls of `submit` that a step makes: one, while there is a handle to make it on. -/
def calls : WriterStep → ℕ
  | .submit _ => if s.closed then 0 else 1
  | _ => 0

/-- The calls of `submit` in a run. -/
def submitCalls (s : UsageWriter) : List WriterStep → ℕ
  | [] => 0
  | step :: steps => s.calls step + submitCalls (s.step step) steps

end

/-! ## Conservation -/

/-- The sum of the recorded gap counts. -/
def recordedGaps (s : UsageWriter) : ℕ := (s.gaps.map Prod.snd).sum

def queuedFacts (s : UsageWriter) : List UsageWrite := Channel.items (s.queue.map Job.view)

/-- The facts of `n` calls are accepted, recorded or unrecorded gaps, queued, held, tallied or
about to be tallied. -/
def Balanced (s : UsageWriter) (n held : ℕ) : Prop :=
  n =
    s.accepted.length + s.recordedGaps + s.shed.unrecorded + (s.queuedFacts.length + held) +
      s.shed.tallied + s.shedding.length

/-- The facts of `n` calls balance with what the worker holds, and the tally keeps to its cap. -/
structure Accounted (s : UsageWriter) (n : ℕ) : Prop where
  balanced : s.Balanced n s.worker.inHand
  capped : s.shed.counts.rows.length ≤ maxPendingGapKeys

variable {s : UsageWriter} {n : ℕ}

theorem accounted_spawn (capacity : ℕ) : (spawn capacity).Accounted 0 := ⟨rfl, Nat.zero_le _⟩

section

variable (h : s.Accounted n)

include h

/-- The worker moves on with what it holds. -/
theorem Accounted.move {worker : Worker}
    (hsame : worker.inHand = s.worker.inHand) : ({ s with worker } : UsageWriter).Accounted n := by
  refine ⟨?_, h.capped⟩
  show s.Balanced n worker.inHand
  rw [hsame]
  exact h.balanced

theorem Accounted.submit (write : UsageWrite) :
    (s.submit write).Accounted (n + if s.closed then 0 else 1) := by
  have hbalanced := h.balanced
  unfold UsageWriter.submit
  split_ifs
  · exact h
  · refine ⟨?_, h.capped⟩
    simp only [Balanced, recordedGaps, queuedFacts, push, Job.view, map_append, map_cons, map_nil,
      items_append, items_inl, items_nil, length_append, length_singleton] at hbalanced ⊢
    omega
  · refine ⟨?_, h.capped⟩
    simp only [Balanced, recordedGaps, queuedFacts, length_append, length_singleton] at hbalanced ⊢
    omega

theorem Accounted.tally (submission : ℕ) : (s.tally submission).Accounted n := by
  unfold UsageWriter.tally
  split
  · exact h
  case h_2 write hwrite =>
    refine ⟨?_, ShedGaps.length_tally_le _ h.capped⟩
    have hbalanced := h.balanced
    have hcounts : (s.shed.tally (write.gapKey write.fact.shedReason)).tallied + _ = _ :=
      ShedGaps.tally_counts _
    have herased : (s.shedding.eraseIdx submission).length + 1 = s.shedding.length :=
      length_eraseIdx_add_one (List.getElem?_eq_some_iff.mp hwrite).1
    simp only [Balanced, recordedGaps, queuedFacts] at hbalanced ⊢
    omega

theorem Accounted.drain : s.drain.Accounted n := by
  unfold UsageWriter.drain
  split_ifs
  · exact h
  · exact ⟨h.balanced, h.capped⟩
  · refine ⟨?_, h.capped⟩
    simpa only [Balanced, recordedGaps, queuedFacts, push, Job.view, map_append, map_cons, map_nil,
      items_append, items_inr, items_nil, append_nil] using h.balanced
  · exact h

theorem Accounted.close : s.close.Accounted n := by
  unfold UsageWriter.close
  split_ifs
  · exact ⟨h.balanced, h.capped⟩
  · exact h

theorem Accounted.recv : s.recv.Accounted n := by
  have hbalanced := h.balanced
  unfold UsageWriter.recv
  split
  case h_1 write queue hworker hqueue =>
    refine ⟨?_, h.capped⟩
    simp only [Balanced, recordedGaps, queuedFacts, hworker, hqueue, Worker.inHand, Job.view,
      map_cons, items_inl, length_cons] at hbalanced ⊢
    omega
  case h_2 call queue hworker hqueue =>
    refine ⟨?_, h.capped⟩
    simpa only [Balanced, recordedGaps, queuedFacts, hworker, hqueue, Worker.inHand, Job.view,
      map_cons, items_inr] using hbalanced
  case h_3 hworker hqueue =>
    split_ifs
    · exact h.move (by rw [hworker]; rfl)
    · exact h
  case h_4 => exact h

theorem Accounted.answered (recorded : Bool)
    (completed : Option LogicalWriteOutcome) : (s.answered recorded completed).Accounted n := by
  unfold UsageWriter.answered
  split
  case h_1 write hworker =>
    split
    · refine ⟨?_, h.capped⟩
      have hbalanced := h.balanced
      simp only [Balanced, recordedGaps, queuedFacts, hworker, Worker.inHand, length_append,
        length_singleton] at hbalanced ⊢
      omega
    · exact h.move (by rw [hworker]; rfl)
  case h_2 => exact h

end

/-- An answered gap moves its count into the gap rows or to the unrecorded facts. -/
theorem Balanced.settle {row : GapCount} {held : ℕ} (h : s.Balanced n (row.2 + held))
    (written : Bool) : (s.settle row written).Balanced n held := by
  cases written with
  | true =>
    simp only [Balanced, UsageWriter.settle, recordedGaps, queuedFacts, if_true, map_append,
      sum_append, map_cons, map_nil, sum_singleton] at h ⊢
    omega
  | false =>
    simp only [Balanced, UsageWriter.settle, recordedGaps, queuedFacts, Bool.false_eq_true,
      if_false, ShedGaps.giveUp, ShedGaps.tallied] at h ⊢
    omega

theorem settle_counts (row : GapCount) (written : Bool) :
    (s.settle row written).shed.counts = s.shed.counts := by
  cases written <;> rfl

theorem balanced_onDrain (purpose : FlushFor) (f : DrainCall → DrainCall) (held : ℕ) :
    (s.onDrain purpose f).Balanced n held ↔ s.Balanced n held := by
  cases purpose <;> rfl

theorem onDrain_shed (purpose : FlushFor) (f : DrainCall → DrainCall) :
    (s.onDrain purpose f).shed = s.shed := by
  cases purpose <;> rfl

theorem Accounted.gapAnswered (h : s.Accounted n) (written : Bool) :
    (s.gapAnswered written).Accounted n := by
  unfold UsageWriter.gapAnswered
  split
  case h_1 write reason hworker =>
    have hbalanced := h.balanced
    rw [hworker] at hbalanced
    have hsettled : (s.settle (write.gapKey reason, 1) written).Balanced n 0 :=
      Balanced.settle hbalanced written
    refine ⟨hsettled, ?_⟩
    show (s.settle (write.gapKey reason, 1) written).shed.counts.rows.length ≤ _
    rw [settle_counts]
    exact h.capped
  case h_2 => exact h

/-- The rows that are left are in the worker's hands. -/
theorem accounted_flushRows (purpose : FlushFor) {rows : List GapCount}
    (h : s.Balanced n (rows.map Prod.snd).sum)
    (hcapped : s.shed.counts.rows.length ≤ maxPendingGapKeys) :
    (s.flushRows purpose rows).Accounted n := by
  cases rows with
  | nil => cases purpose <;> exact ⟨h, hcapped⟩
  | cons =>
    exact ⟨h, hcapped⟩

theorem Accounted.take (h : s.Accounted n) (rows : List GapCount) : (s.take rows).Accounted n := by
  unfold UsageWriter.take
  split
  case h_1 purpose hworker =>
    split_ifs with hperm
    · have hrows : (rows.map Prod.snd).sum = s.shed.tallied := (hperm.map Prod.snd).sum_eq
      refine accounted_flushRows purpose ((balanced_onDrain _ _ _).mpr ?_) ?_
      · have hbalanced := h.balanced
        rw [hworker] at hbalanced
        simp only [Balanced, recordedGaps, queuedFacts, Worker.inHand, hrows] at hbalanced ⊢
        have hempty : (⟨.empty, s.shed.unrecorded⟩ : ShedGaps).tallied = 0 := rfl
        omega
      · rw [onDrain_shed]
        exact Nat.zero_le _
    · exact h
  case h_2 => exact h

theorem Accounted.rowAnswered (h : s.Accounted n) (written : Bool) :
    (s.rowAnswered written).Accounted n := by
  unfold UsageWriter.rowAnswered
  split
  case h_1 purpose row rest hworker =>
    have hbalanced := h.balanced
    rw [hworker] at hbalanced
    refine accounted_flushRows purpose ((balanced_onDrain _ _ _).mpr (hbalanced.settle written)) ?_
    rw [onDrain_shed, settle_counts]
    exact h.capped
  case h_2 => exact h

theorem Accounted.step (h : s.Accounted n) (step : WriterStep) :
    (s.step step).Accounted (n + s.calls step) := by
  cases step with
  | submit write => exact h.submit write
  | tally submission => exact h.tally submission
  | drain => exact h.drain
  | returnDrain => exact ⟨h.balanced, h.capped⟩
  | close => exact h.close
  | recv => exact h.recv
  | answered recorded completed => exact h.answered recorded completed
  | gapAnswered written => exact h.gapAnswered written
  | take rows => exact h.take rows
  | rowAnswered written => exact h.rowAnswered written

theorem Accounted.run (h : s.Accounted n) (steps : List WriterStep) :
    (s.run steps).Accounted (n + s.submitCalls steps) := by
  induction steps generalizing s n with
  | nil => exact h
  | cons step steps ih =>
    rw [submitCalls, ← Nat.add_assoc]
    exact ih (h.step step)

end UsageWriter

end ProviderCore.Usage
