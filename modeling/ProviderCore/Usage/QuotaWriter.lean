import ProviderCore.Lib.Channel
import ProviderCore.Lib.Slots
import ProviderCore.Usage.Facts

/-!
# The quota ledger writer

The unsheddable writer of `provider-usage/src/writer.rs`.  A caller reserves a place in the queue
and submits an entry through it; the worker records the entry's attempts and then the entry, and
starts over after every failure until the repository has accepted them all.  Each entry carries
an acknowledgement, its receipt; a drain queues an acknowledgement of its own.

The worker may die at any time, which drops the queue and every acknowledgement in it.  An entry
that is submitted through a place reserved before stays in the channel and nobody takes it out.

`QuotaLedgerWriter.Kept` is the invariant of every run: an acknowledgement is sent only for work
that the repository has accepted.
-/

namespace ProviderCore.Usage

open List Channel

/-- An entry with the number of its receipt. -/
abbrev QuotaSubmission := ℕ × QuotaLedgerEntry

inductive QuotaJob
  | entry (submission : QuotaSubmission)
  | flush (call : ℕ)
deriving DecidableEq

/-- A job as an item or a marker of the queue. -/
def QuotaJob.view : QuotaJob → QuotaSubmission ⊕ ℕ
  | .entry submission => .inl submission
  | .flush call => .inr call

/-- Where the worker task stands. -/
inductive QuotaWorker
  /-- At `recv`. -/
  | waiting
  /-- The next of the remaining attempts, or the entry after them, is with the repository. -/
  | recording (submission : QuotaSubmission) (remaining : List AttemptFacts)
  /-- Waiting to try the entry again. -/
  | sleeping (submission : QuotaSubmission)
  | stopped
deriving DecidableEq

/-- The submission the worker is not done with. -/
def QuotaWorker.job : QuotaWorker → List (QuotaSubmission ⊕ ℕ)
  | .recording submission _ | .sleeping submission => [.inl submission]
  | .waiting | .stopped => []

structure QuotaLedgerReceipt where
  entry : QuotaLedgerEntry
  ack : Ack := .pending
  returned : Option Bool := none
deriving DecidableEq

/-- `QuotaLedgerReceipt::persisted`. -/
def QuotaLedgerReceipt.persisted (receipt : QuotaLedgerReceipt) : Option Bool :=
  receipt.ack.poll.map fun result => result.isOk

structure QuotaDrainCall where
  /-- What was submitted before it. -/
  before : List QuotaSubmission
  ack : Ack := .pending
  returned : Option Bool := none
deriving DecidableEq

def QuotaDrainCall.answer (call : QuotaDrainCall) : Option Bool :=
  call.ack.poll.map fun result => result.isOk

structure QuotaLedgerWriter where
  capacity : ℕ
  queue : List QuotaJob := []
  worker : QuotaWorker := .waiting
  healthy : Bool := true
  pending : ℕ := 0
  /-- The places that are reserved and not used. -/
  permits : ℕ := 0
  /-- The writer and every reserved place are dropped. -/
  closed : Bool := false
  receipts : List QuotaLedgerReceipt := []
  drains : List QuotaDrainCall := []
  submitted : List QuotaSubmission := []
  /-- The entries that `record_quota_ledger_entry` accepted. -/
  accepted : List QuotaSubmission := []
  /-- The attempts that `record_attempt` accepted, each for its submission. -/
  recorded : List (ℕ × AttemptFacts) := []

inductive QuotaWriterStep
  | reserve
  | release
  | submit (entry : QuotaLedgerEntry)
  | returnReceipt (receipt : ℕ)
  | drain
  | returnDrain (call : ℕ)
  | close
  | recv
  | answered (accepted : Bool)
  | wake
  | die
deriving DecidableEq

namespace QuotaLedgerWriter

def spawn (capacity : ℕ) : QuotaLedgerWriter := { capacity }

section

variable (s : QuotaLedgerWriter)

def hasRoom : Bool :=
  decide (s.queue.length + s.permits < max s.capacity 1)

def reserve : QuotaLedgerWriter :=
  if s.closed || !s.healthy then s
  else if s.worker = .stopped then { s with healthy := false }
  else if s.hasRoom then { s with permits := s.permits + 1 }
  else s

/-- `QuotaLedgerPermit::submit`. -/
def submit (entry : QuotaLedgerEntry) : QuotaLedgerWriter :=
  if s.permits = 0 then s
  else
    { s with
      permits := s.permits - 1
      pending := s.pending + 1
      queue := s.queue ++ [.entry (s.receipts.length, entry)]
      receipts := s.receipts ++ [{ entry }]
      submitted := s.submitted ++ [(s.receipts.length, entry)] }

def returnReceipt (receipt : ℕ) : QuotaLedgerWriter :=
  { s with
    receipts := s.receipts.modify receipt fun receipt =>
      { receipt with returned := receipt.returned.or receipt.persisted } }

/-- The send of `drain`, which waits for room and fails when the worker is gone. -/
def drain : QuotaLedgerWriter :=
  if s.closed then s
  else if s.worker = .stopped then
    { s with
      drains := s.drains ++ [{ before := s.submitted, ack := .dropped, returned := some false }] }
  else if s.hasRoom then
    { s with
      queue := s.queue ++ [.flush s.drains.length]
      drains := s.drains ++ [{ before := s.submitted }] }
  else s

def returnDrain (call : ℕ) : QuotaLedgerWriter :=
  { s with
    drains := s.drains.modify call fun call =>
      { call with returned := call.returned.or call.answer } }

def close : QuotaLedgerWriter :=
  if s.permits = 0 then { s with closed := true } else s

/-- The worker receives a job.  A flush is acknowledged at once. -/
def recv : QuotaLedgerWriter :=
  match s.worker, s.queue with
  | .waiting, .entry submission :: queue =>
    { s with queue, worker := .recording submission submission.2.attempts }
  | .waiting, .flush call :: queue =>
    { s with queue, drains := s.drains.modify call ({ · with ack := .sent }) }
  | .waiting, [] => if s.closed then { s with worker := .stopped } else s
  | _, _ => s

/-- The repository has answered for the attempt or for the entry. -/
def answered (accepted : Bool) : QuotaLedgerWriter :=
  match s.worker with
  | .recording submission remaining =>
    if !accepted then { s with worker := .sleeping submission, healthy := false }
    else match remaining with
      | attempt :: remaining =>
        { s with
          worker := .recording submission remaining
          recorded := s.recorded ++ [(submission.1, attempt)] }
      | [] =>
        { s with
          worker := .waiting
          healthy := true
          pending := s.pending - 1
          accepted := s.accepted ++ [submission]
          receipts := s.receipts.modify submission.1 ({ · with ack := .sent }) }
  | _ => s

/-- The delay before another try is over. -/
def wake : QuotaLedgerWriter :=
  match s.worker with
  | .sleeping submission => { s with worker := .recording submission submission.2.attempts }
  | _ => s

def die : QuotaLedgerWriter :=
  { s with
    worker := .stopped
    queue := []
    receipts := s.receipts.map fun receipt => { receipt with ack := receipt.ack.abandon }
    drains := s.drains.map fun call => { call with ack := call.ack.abandon } }

def step : QuotaWriterStep → QuotaLedgerWriter
  | .reserve => s.reserve
  | .release => { s with permits := s.permits - 1 }
  | .submit entry => s.submit entry
  | .returnReceipt receipt => s.returnReceipt receipt
  | .drain => s.drain
  | .returnDrain call => s.returnDrain call
  | .close => s.close
  | .recv => s.recv
  | .answered accepted => s.answered accepted
  | .wake => s.wake
  | .die => s.die

def run (steps : List QuotaWriterStep) : QuotaLedgerWriter :=
  steps.foldl step s

end

/-! ## What an acknowledgement means -/

/-- What the worker is not done with, in order. -/
def jobs (s : QuotaLedgerWriter) : List (QuotaSubmission ⊕ ℕ) :=
  s.worker.job ++ s.queue.map QuotaJob.view

/-- The attempts of the entry are recorded for its submission, apart from the remaining ones. -/
def RecordedBut (s : QuotaLedgerWriter) (submission : QuotaSubmission)
    (remaining : List AttemptFacts) : Prop :=
  ∀ attempt ∈ submission.2.attempts, attempt ∈ remaining ∨ (submission.1, attempt) ∈ s.recorded

/-- A receipt is acknowledged only for an accepted entry, and answers for its acknowledgement. -/
structure ReceiptKept (s : QuotaLedgerWriter) (position : ℕ) (receipt : QuotaLedgerReceipt) :
    Prop where
  sent : receipt.ack = .sent → (position, receipt.entry) ∈ s.accepted
  returned : receipt.returned = some true → receipt.ack = .sent

/-- A drain is acknowledged only when what was submitted before it is accepted. -/
structure DrainKept (s : QuotaLedgerWriter) (call : QuotaDrainCall) : Prop where
  sent : call.ack = .sent → call.before <+: s.accepted
  returned : call.returned = some true → call.ack = .sent

structure Kept (s : QuotaLedgerWriter) : Prop where
  ordered : Channel.Ordered (s.worker ≠ .stopped) s.submitted s.accepted s.jobs
    (s.drains.map QuotaDrainCall.before)
  entries : ∀ submission ∈ items s.jobs,
    (s.receipts.map QuotaLedgerReceipt.entry)[submission.1]? = some submission.2
  accepted : ∀ submission ∈ s.accepted, s.RecordedBut submission []
  recording : ∀ submission remaining, s.worker = .recording submission remaining →
    s.RecordedBut submission remaining
  receipts : Slots.All s.ReceiptKept s.receipts
  drains : Slots.All (fun _ => s.DrainKept) s.drains

variable {s : QuotaLedgerWriter}

theorem kept_spawn (capacity : ℕ) : (spawn capacity).Kept where
  ordered := .nil _
  entries _ h := by cases h
  accepted _ h := by cases h
  recording _ _ h := by cases h
  receipts := Slots.all_nil
  drains := Slots.all_nil

theorem jobs_push (s : QuotaLedgerWriter) (job : QuotaJob) :
    s.jobs ++ [job.view] = s.worker.job ++ (s.queue ++ [job]).map QuotaJob.view := by
  simp [jobs]

variable {submission : QuotaSubmission}

/-- An attempt is recorded: it is not among the remaining ones any more. -/
theorem RecordedBut.record {attempt : AttemptFacts}
    {remaining : List AttemptFacts} (h : s.RecordedBut submission (attempt :: remaining)) :
    ({ s with recorded := s.recorded ++ [(submission.1, attempt)] } : QuotaLedgerWriter).RecordedBut
      submission remaining := by
  intro other hother
  rcases h other hother with hmem | hmem
  · rcases mem_cons.mp hmem with rfl | hmem
    · exact .inr (mem_append_right _ mem_cons_self)
    · exact .inl hmem
  · exact .inr (mem_append_left _ hmem)

section

variable (h : s.Kept)

include h

/-- The worker's place, the health and the reserved places may change, and attempts be recorded. -/
theorem Kept.frame {old worker : QuotaWorker} {recorded : List (ℕ × AttemptFacts)}
    (hworker : s.worker = old) (hjob : worker.job = old.job)
    (hstop : worker ≠ .stopped → old ≠ .stopped)
    (hrecorded : s.recorded ⊆ recorded) (healthy closed : Bool) (permits : ℕ)
    (hrecording : ∀ submission remaining, worker = .recording submission remaining →
      ({ s with recorded } : QuotaLedgerWriter).RecordedBut submission remaining) :
    ({ s with worker, healthy, closed, permits, recorded } : QuotaLedgerWriter).Kept := by
  subst hworker
  have hordered := h.ordered
  have hentries := h.entries
  rw [jobs, ← hjob] at hordered hentries
  exact
    { ordered := hordered.imp hstop
      entries := hentries
      accepted := fun submission hsubmission attempt hattempt =>
        (h.accepted submission hsubmission attempt hattempt).imp_right (hrecorded ·)
      recording := hrecording
      receipts := h.receipts.mono fun _ _ kept => ⟨kept.sent, kept.returned⟩
      drains := h.drains.mono fun _ _ kept => ⟨kept.sent, kept.returned⟩ }

/-- The worker stays where it is. -/
theorem Kept.still (healthy closed : Bool) (permits : ℕ) :
    ({ s with healthy, closed, permits } : QuotaLedgerWriter).Kept :=
  h.frame rfl rfl id (List.Subset.refl _) healthy closed permits h.recording

/-- What was accepted and recorded stays, and the worker stays where it is. -/
theorem Kept.of_same {s' : QuotaLedgerWriter}
    (hsame : (s'.accepted, s'.recorded, s'.worker) = (s.accepted, s.recorded, s.worker))
    (hordered : Channel.Ordered (s.worker ≠ .stopped) s'.submitted s.accepted s'.jobs
      (s'.drains.map QuotaDrainCall.before))
    (hentries : ∀ submission ∈ items s'.jobs,
      (s'.receipts.map QuotaLedgerReceipt.entry)[submission.1]? = some submission.2)
    (hreceipts : Slots.All s.ReceiptKept s'.receipts)
    (hdrains : Slots.All (fun _ => s.DrainKept) s'.drains) : s'.Kept := by
  obtain ⟨_, _, _, _, _, _, _, _, _, _, accepted, recorded⟩ := s'
  cases hsame
  exact ⟨hordered, hentries, h.accepted, h.recording,
    hreceipts.mono fun _ _ kept => ⟨kept.sent, kept.returned⟩,
    hdrains.mono fun _ _ kept => ⟨kept.sent, kept.returned⟩⟩

theorem Kept.reserve : s.reserve.Kept := by
  unfold QuotaLedgerWriter.reserve
  split_ifs
  · exact h
  · exact h.still false s.closed s.permits
  · exact h.still s.healthy s.closed (s.permits + 1)
  · exact h

theorem Kept.close : s.close.Kept := by
  unfold QuotaLedgerWriter.close
  split_ifs
  · exact h.still s.healthy true s.permits
  · exact h

theorem Kept.wake : s.wake.Kept := by
  unfold QuotaLedgerWriter.wake
  split
  case h_1 submission hworker =>
    refine h.frame hworker (by rfl) nofun (List.Subset.refl _) _ _ _ ?_
    rintro _ _ ⟨⟩ _ hattempt
    exact .inl hattempt
  case h_2 => exact h

theorem Kept.submit (entry : QuotaLedgerEntry) : (s.submit entry).Kept := by
  unfold QuotaLedgerWriter.submit
  split_ifs
  · exact h
  have hjobs : s.jobs ++ [.inl (s.receipts.length, entry)] = _ := s.jobs_push (.entry _)
  refine h.of_same rfl ?_ ?_ (h.receipts.append ⟨(by cases ·), (by cases ·)⟩) h.drains
  · have hput := h.ordered.putItem (s.receipts.length, entry)
    rw [hjobs] at hput
    exact hput
  · intro submission hsubmission
    have hmem : submission ∈ items (s.jobs ++ [.inl (s.receipts.length, entry)]) :=
      hjobs ▸ hsubmission
    rw [items_append] at hmem
    rw [map_append]
    rcases mem_append.mp hmem with hold | hnew
    · have hentry := h.entries submission hold
      rwa [List.getElem?_append_left (List.getElem?_eq_some_iff.mp hentry).1]
    · obtain rfl := mem_singleton.mp hnew
      simp

theorem Kept.returnReceipt (receipt : ℕ) : (s.returnReceipt receipt).Kept := by
  have hentries : (s.returnReceipt receipt).receipts.map QuotaLedgerReceipt.entry =
      s.receipts.map QuotaLedgerReceipt.entry := Slots.map_modify_eq fun _ => rfl
  refine h.of_same rfl h.ordered ?_ (h.receipts.modify (fun _ _ _ kept => kept) fun _ _ kept =>
    ⟨kept.sent, Ack.sent_of_answer kept.returned⟩) h.drains
  rw [hentries]
  exact h.entries

theorem Kept.returnDrain (call : ℕ) : (s.returnDrain call).Kept := by
  have hbefore : (s.returnDrain call).drains.map QuotaDrainCall.before =
      s.drains.map QuotaDrainCall.before := Slots.map_modify_eq fun _ => rfl
  refine h.of_same rfl ?_ h.entries h.receipts (h.drains.modify (fun _ _ _ kept => kept)
    fun _ _ kept => ⟨kept.sent, Ack.sent_of_answer kept.returned⟩)
  rw [hbefore]
  exact h.ordered

theorem Kept.drain : s.drain.Kept := by
  unfold QuotaLedgerWriter.drain
  split_ifs with hclosed hstopped hroom
  · exact h
  · refine h.of_same rfl ?_ h.entries h.receipts (h.drains.append ⟨by simp, by simp⟩)
    rw [map_append]
    exact h.ordered.extend _
  · have hjobs : s.jobs ++ [.inr s.drains.length] = _ := s.jobs_push (.flush _)
    refine h.of_same rfl ?_ (fun submission hsubmission => ?_) h.receipts
      (h.drains.append ⟨by simp, by simp⟩)
    · have hput := h.ordered.putMarker hstopped
      rw [length_map, hjobs] at hput
      rw [map_append]
      exact hput
    · have hmem : submission ∈ items (s.jobs ++ [.inr s.drains.length]) :=
        hjobs ▸ hsubmission
      rw [items_append, items_inr, items_nil, append_nil] at hmem
      exact h.entries submission hmem
  · exact h

theorem Kept.recv : s.recv.Kept := by
  have hordered := h.ordered
  have hentries := h.entries
  unfold QuotaLedgerWriter.recv
  split
  case h_1 submission queue hworker hqueue =>
    have hjobs : s.jobs = .inl submission :: queue.map QuotaJob.view := by
      rw [jobs, hworker, hqueue]
      rfl
    rw [hjobs] at hordered hentries
    exact
      { ordered := hordered.imp fun _ => by simp [hworker]
        entries := hentries
        accepted := h.accepted
        recording := by
          rintro _ _ ⟨⟩ _ hattempt
          exact .inl hattempt
        receipts := h.receipts.mono fun _ _ kept => ⟨kept.sent, kept.returned⟩
        drains := h.drains.mono fun _ _ kept => ⟨kept.sent, kept.returned⟩ }
  case h_2 call queue hworker hqueue =>
    have hjobs : s.jobs = .inr call :: (s.worker.job ++ queue.map QuotaJob.view) := by
      rw [jobs, hworker, hqueue]
      rfl
    have hbefore : (s.drains.modify call ({ · with ack := .sent })).map QuotaDrainCall.before =
        s.drains.map QuotaDrainCall.before := Slots.map_modify_eq fun _ => rfl
    rw [hjobs] at hordered hentries
    refine h.of_same rfl ?_ hentries h.receipts
      (h.drains.modify (fun _ _ _ kept => kept) fun drain hdrain _ => ⟨fun _ => ?_, fun _ => rfl⟩)
    · rw [hbefore]
      exact hordered.pass
    · -- The flush is at the head, so what was submitted before it is what was accepted.
      have hseen := hordered.seen_eq
      rw [List.getElem?_map, hdrain] at hseen
      rw [Option.some.inj hseen]
  case h_3 hworker hqueue =>
    split_ifs
    · exact h.frame hworker (by rfl) (absurd rfl) (List.Subset.refl _) _ _ _ fun _ _ => nofun
    · exact h
  case h_4 => exact h

/-- The entry is accepted after its attempts, and its receipt acknowledged. -/
theorem Kept.accept
    (hworker : s.worker = .recording submission []) (healthy : Bool) (pending : ℕ) :
    ({ s with
      worker := .waiting
      healthy
      pending
      accepted := s.accepted ++ [submission]
      receipts := s.receipts.modify submission.1 ({ · with ack := .sent }) } :
      QuotaLedgerWriter).Kept := by
  have hjobs : s.jobs = .inl submission :: s.queue.map QuotaJob.view := by
    rw [jobs, hworker]
    rfl
  have hsame : (s.receipts.modify submission.1 ({ · with ack := .sent })).map
      QuotaLedgerReceipt.entry = s.receipts.map QuotaLedgerReceipt.entry :=
    Slots.map_modify_eq fun _ => rfl
  have hordered := h.ordered
  have hentries := h.entries
  rw [hjobs] at hordered hentries
  refine
    { ordered := hordered.see.imp fun _ => by simp [hworker]
      entries := fun other hother => ?_
      accepted := forall_mem_append.mpr
        ⟨h.accepted, forall_mem_singleton.mpr (h.recording _ _ hworker)⟩
      recording := fun _ _ => nofun
      receipts := h.receipts.modify
        (fun _ _ _ kept => ⟨fun hsent => mem_append_left _ (kept.sent hsent), kept.returned⟩)
        fun receipt hreceipt _ => ⟨fun _ => ?_, fun _ => rfl⟩
      drains := h.drains.mono fun _ _ kept =>
        ⟨fun hsent => (kept.sent hsent).trans (prefix_append _ _), kept.returned⟩ }
  · rw [hsame]
    exact hentries other (mem_cons_of_mem _ hother)
  · have hentry := hentries submission mem_cons_self
    rw [List.getElem?_map, hreceipt] at hentry
    refine mem_append_right _ (mem_singleton.mpr ?_)
    exact Prod.ext rfl (Option.some.inj hentry)

theorem Kept.answered (accepted : Bool) : (s.answered accepted).Kept := by
  unfold QuotaLedgerWriter.answered
  split
  case h_1 submission remaining hworker =>
    split
    · exact h.frame hworker (by rfl) nofun (List.Subset.refl _) _ _ _ fun _ _ => nofun
    · split
      case h_1 attempt remaining =>
        refine h.frame hworker (by rfl) nofun (subset_append_left _ _) _ _ _ ?_
        rintro _ _ ⟨⟩
        exact (h.recording _ _ hworker).record
      case h_2 => exact h.accept hworker _ _
  case h_2 => exact h

theorem Kept.die : s.die.Kept where
  ordered := .lost _ _ _ (absurd rfl)
  entries _ hmem := by cases hmem
  accepted := h.accepted
  recording _ _ := nofun
  receipts := h.receipts.map fun _ _ kept =>
    ⟨fun hsent => kept.sent (Ack.abandon_eq_sent.mp hsent),
      fun htrue => Ack.abandon_eq_sent.mpr (kept.returned htrue)⟩
  drains := h.drains.map fun _ _ kept =>
    ⟨fun hsent => kept.sent (Ack.abandon_eq_sent.mp hsent),
      fun htrue => Ack.abandon_eq_sent.mpr (kept.returned htrue)⟩

theorem Kept.step (step : QuotaWriterStep) : (s.step step).Kept := by
  cases step with
  | reserve => exact h.reserve
  | release => exact h.still s.healthy s.closed (s.permits - 1)
  | submit entry => exact h.submit entry
  | returnReceipt receipt => exact h.returnReceipt receipt
  | drain => exact h.drain
  | returnDrain call => exact h.returnDrain call
  | close => exact h.close
  | recv => exact h.recv
  | answered accepted => exact h.answered accepted
  | wake => exact h.wake
  | die => exact h.die

theorem Kept.run (steps : List QuotaWriterStep) : (s.run steps).Kept := by
  induction steps generalizing s with
  | nil => exact h
  | cons step _ ih => exact ih (h.step step)

end

/-! ## What the writer reports of itself -/

/-- What every run keeps of the order of the entries, the counter, the queue and the health. -/
structure Metered (s : QuotaLedgerWriter) : Prop where
  order : s.accepted <+: s.submitted
  pending : s.accepted.length + s.pending = s.submitted.length
  room : s.queue.length + s.permits ≤ max s.capacity 1
  retry : ∀ submission, s.worker = .sleeping submission → s.healthy = false

theorem Metered.recv (h : s.Metered) : s.recv.Metered := by
  have ⟨order, pending, room, _⟩ := h
  unfold QuotaLedgerWriter.recv
  split
  case h_1 hqueue | h_2 hworker hqueue =>
    rw [hqueue, length_cons] at room
    exact ⟨order, pending, by dsimp only; omega, by simp_all⟩
  case h_3 =>
    split_ifs
    · exact ⟨order, pending, room, nofun⟩
    · exact h
  case h_4 => exact h

theorem Metered.answered (h : s.Metered) (hkept : s.Kept) (accepted : Bool) :
    (s.answered accepted).Metered := by
  have ⟨order, pending, room, _⟩ := h
  unfold QuotaLedgerWriter.answered
  split
  case h_1 submission remaining hworker =>
    split_ifs
    · exact ⟨order, pending, room, fun _ _ => rfl⟩
    split
    · exact ⟨order, pending, room, nofun⟩
    · -- What is accepted next was submitted next.
      have hwhole := hkept.ordered.whole (by simp [hworker])
      rw [jobs, hworker] at hwhole
      have hnext : s.accepted ++ [submission] <+: s.submitted :=
        ⟨_, (append_assoc _ _ _).trans hwhole.symm⟩
      have hlength := hnext.length_le
      refine ⟨hnext, ?_, room, nofun⟩
      simp only [length_append, length_singleton] at hlength ⊢
      omega
  case h_2 => exact h

theorem Metered.step (h : s.Metered) (hkept : s.Kept) (step : QuotaWriterStep) :
    (s.step step).Metered := by
  have ⟨order, pending, room, retry⟩ := h
  cases step with
  | reserve =>
    simp only [QuotaLedgerWriter.step, reserve, hasRoom, decide_eq_true_eq]
    split_ifs with _ _ hroom
    · exact h
    · exact ⟨order, pending, room, fun _ _ => rfl⟩
    · exact ⟨order, pending, hroom, retry⟩
    · exact h
  | release => exact ⟨order, pending, (Nat.add_le_add_left (Nat.sub_le _ _) _).trans room, retry⟩
  | submit entry =>
    simp only [QuotaLedgerWriter.step, submit]
    split_ifs
    · exact h
    · refine ⟨order.trans (prefix_append _ _), ?_, ?_, retry⟩ <;>
        simp only [length_append, length_singleton] <;> omega
  | drain =>
    simp only [QuotaLedgerWriter.step, drain, hasRoom, decide_eq_true_eq]
    split_ifs with _ _ hroom
    · exact h
    · exact ⟨order, pending, room, retry⟩
    · exact ⟨order, pending, by simp only [length_append, length_singleton]; omega, retry⟩
    · exact h
  | close =>
    simp only [QuotaLedgerWriter.step, close]
    split_ifs <;> exact ⟨order, pending, room, retry⟩
  | recv => exact h.recv
  | answered accepted => exact h.answered hkept accepted
  | wake =>
    simp only [QuotaLedgerWriter.step, wake]
    split
    · exact ⟨order, pending, room, nofun⟩
    · exact h
  | die => exact ⟨order, pending, (Nat.add_le_add_right (Nat.zero_le _) _).trans room, nofun⟩
  | returnReceipt | returnDrain => exact ⟨order, pending, room, retry⟩

/-- The entry that a step submits, when it holds a permit. -/
def permitted (s : QuotaLedgerWriter) : QuotaWriterStep → List QuotaLedgerEntry
  | .submit entry => if s.permits = 0 then [] else [entry]
  | _ => []

def submissions (s : QuotaLedgerWriter) : List QuotaWriterStep → List QuotaLedgerEntry
  | [] => []
  | step :: steps => s.permitted step ++ submissions (s.step step) steps

theorem submitted_step (step : QuotaWriterStep) :
    (s.step step).submitted.map Prod.snd = s.submitted.map Prod.snd ++ s.permitted step := by
  cases step with
  | submit => simp only [QuotaLedgerWriter.step, submit, permitted]; split_ifs <;> simp
  | release | returnReceipt | returnDrain | die => exact (append_nil _).symm
  | _ =>
    simp only [QuotaLedgerWriter.step, reserve, drain, close, recv, answered, wake, permitted,
      append_nil]
    repeat' split
    all_goals rfl

theorem submitted_run (steps : List QuotaWriterStep) :
    (s.run steps).submitted.map Prod.snd = s.submitted.map Prod.snd ++ s.submissions steps := by
  induction steps generalizing s with
  | nil => exact (append_nil _).symm
  | cons step steps ih =>
    rw [submissions, ← append_assoc, ← submitted_step]
    exact ih

/-- In every run, the worker's death included, the accepted entries are the first of those
submitted, each once, and `pending` counts the others; the queue and the reserved places keep to
the capacity, and no place can be reserved while an entry waits for another try. -/
theorem pending_exact (capacity : ℕ) (steps : List QuotaWriterStep) :
    let s := (spawn capacity).run steps
    s.submitted.map Prod.snd = (spawn capacity).submissions steps ∧
    (∃ rest, s.submitted = s.accepted ++ rest ∧ s.pending = rest.length) ∧
      s.queue.length + s.permits ≤ max s.capacity 1 ∧
        ∀ submission, s.worker = .sleeping submission → s.reserve = s := by
  refine ⟨submitted_run steps, ?_⟩
  obtain ⟨-, ⟨rest, hrest⟩, pending, room, retry⟩ :
      ((spawn capacity).run steps).Kept ∧ ((spawn capacity).run steps).Metered := by
    refine foldlRecOn (motive := fun s => Kept s ∧ Metered s) steps _
      ⟨kept_spawn capacity, prefix_rfl, rfl, Nat.zero_le _, nofun⟩ ?_
    exact fun _ ⟨hkept, h⟩ step _ => ⟨hkept.step step, h.step hkept step⟩
  rw [← hrest, length_append] at pending
  refine ⟨⟨rest, hrest.symm, Nat.add_left_cancel pending⟩, room, fun submission hworker => ?_⟩
  simp [reserve, retry submission hworker]

end QuotaLedgerWriter

end ProviderCore.Usage
