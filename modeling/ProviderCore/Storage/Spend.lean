import ProviderCore.Lib.Fold
import ProviderCore.Storage.Postings
import ProviderCore.Usage.AttemptLife

/-!
# Spend is charged once

Every operation of the usage repository commits nothing or a sequence of postings, so the balance
of `Postings` holds over every run of operations, whatever is delivered again and wherever a
recovery interrupts.
-/

namespace ProviderCore.Storage

open Usage Auth Relation List

variable {claimed : String → Prop} {db db' : UsageDb}

/-! ## Operations as postings -/

variable {outcome : LogicalWriteOutcome} {start : LogicalRequestStart}

/-- Opening a request inserts its row, unless it is there. -/
theorem insertLogicalRequest_ok (h : insertLogicalRequest db start = .ok (outcome, db')) :
    db' = { db with requests := db.requests.insertNew (startRow start) } := by
  unfold insertLogicalRequest at h
  split at h
  · cases h
  · split at h
    · cases h
    · split at h
      · next row hrow =>
          have hsame : db.requests.insertNew (startRow start) = db.requests :=
            Table.insertNew_of_find? hrow
          cases h
          rw [hsame]
      · cases h
        rfl

/-- Opening a quota request inserts its row and its claim, unless they are there. -/
theorem beginQuotaRequest_ok (h : beginQuotaRequest db start = .ok (outcome, db')) :
    ∃ apiKeyId, db' =
      { db with
        requests := db.requests.insertNew (startRow start)
        ledger := db.ledger.insertNew (claimRow start apiKeyId) } := by
  unfold beginQuotaRequest at h
  split at h
  · cases h
  · next apiKeyId _ =>
      obtain ⟨⟨_, _⟩, hins, h⟩ := Fold.bind_eq_ok.mp h
      dsimp only at h
      split at h
      · cases h
      · split at h
        · cases h
        · cases h
          rw [insertLogicalRequest_ok hins]
          exact ⟨apiKeyId, rfl⟩

variable {atMs : ℤ}

theorem markQuotaRequestDispatched_posting {requestId : String}
    (h : markQuotaRequestDispatched db requestId atMs = .ok db') : Posting claimed db db' := by
  unfold markQuotaRequestDispatched at h
  split at h
  · cases h
  · next claim hclaim =>
      obtain ⟨-, rfl⟩ := Table.find?_eq_some.mp hclaim
      split at h
      · next hreserved =>
          cases h
          exact .dispatched claim atMs hclaim hreserved
      · cases h

/-- A recorded attempt is either known already or posted. -/
theorem recordAttempt_posting {facts : AttemptFacts} (h : recordAttempt db facts = .ok db') :
    db' = db ∨ Posting claimed db db' := by
  rcases hfound : db.attempts.find? facts.attemptId with _ | known
  · obtain ⟨-, revision, -, hchecks, -, hrequest, billable, -, hcharge⟩ :=
      (recordAttempt_eq_ok_of_fresh hfound).mp h
    exact .inr (.recorded ⟨attemptRow facts revision, hchecks⟩ (storableCost facts.cost) billable
      db' hfound hrequest rfl rfl hcharge)
  · exact .inl (recordAttempt_known (by simp [hfound]) h)

/-- A claim that waits to be resolved. -/
def Waiting (db : UsageDb) (claim : LedgerRow) : Prop :=
  db.ledger.find? claim.entryId = some claim ∧ claim.state = .reserved

/-- The claim is released, or settled and its key charged. -/
def Resolves (db : UsageDb) (claim : LedgerRow) (atMs : ℤ) (db' : UsageDb) : Prop :=
  db' = releaseClaim db claim.entryId atMs ∨
    ∃ atoms, addApiKeySpend
      { db with
        ledger := db.ledger.modify claim.entryId (·.settle atoms atMs)
          (·.settle_entryId atoms atMs) }
      claim.apiKeyId atoms = .ok db'

variable {claim : LedgerRow}

theorem settleClaim_resolves {atoms : String} {rejected : UsageRepositoryError}
    (h : settleClaim db claim.entryId claim.apiKeyId atoms atMs rejected = .ok db') :
    Resolves db claim atMs db' := by
  unfold settleClaim at h
  split at h
  · cases h
  · exact .inr ⟨atoms, h⟩

theorem Resolves.posting (hwait : Waiting db claim)
    (h : Resolves db claim atMs db') : Posting claimed db db' := by
  rcases h with rfl | ⟨atoms, h⟩
  · exact .released claim atMs hwait.1 hwait.2
  · exact .settled claim atoms atMs db' hwait.1 hwait.2 h

variable {entry : QuotaLedgerEntry}

/-- A ledger entry finds its claim resolved, or resolves it. -/
theorem recordQuotaLedgerEntry_ok (h : recordQuotaLedgerEntry db entry = .ok db') :
    db' = db ∨ ∃ claim, Waiting db claim ∧ Resolves db claim entry.resolvedAtMs db' := by
  unfold recordQuotaLedgerEntry at h
  split at h
  · cases h
  · next claim hclaim =>
      have hid : claim.entryId = entry.entryId := (Table.find?_eq_some.mp hclaim).2
      rw [← hid] at hclaim
      split at h
      · cases h
      · next hkey =>
          split at h
          · cases h
            exact .inl rfl
          · next hstate =>
              rw [ne_eq, not_not] at hkey hstate
              rw [← hid, ← hkey] at h
              refine .inr ⟨claim, ⟨hclaim, hstate⟩, ?_⟩
              split at h
              · split at h
                · cases h
                · exact settleClaim_resolves h
              · cases h
                exact .inl rfl

theorem recordQuotaLedgerEntry_posting
    (h : recordQuotaLedgerEntry db entry = .ok db') : db' = db ∨ Posting claimed db db' := by
  rcases recordQuotaLedgerEntry_ok h with rfl | ⟨claim, hwait, hresolves⟩
  · exact .inl rfl
  · exact .inr (hresolves.posting hwait)

/-! ## Recovery -/

variable {nowMs : ℤ}

/-- Recovering a claim releases it, or settles it and charges its key. -/
theorem recoverClaim_ok
    (h : recoverClaim nowMs db claim = .ok db') : Resolves db claim nowMs db' := by
  unfold recoverClaim at h
  split at h
  · cases h
  · split at h
    · cases h
      exact .inl rfl
    · obtain ⟨_, -, h⟩ := Fold.bind_eq_ok.mp h
      exact settleClaim_resolves h

theorem recoverClaim_posting (hwait : Waiting db claim)
    (h : recoverClaim nowMs db claim = .ok db') : Posting claimed db db' :=
  (recoverClaim_ok h).posting hwait

theorem recoverClaim_waiting {claim other : LedgerRow}
    (hne : claim.entryId ≠ other.entryId) (hwait : Waiting db other)
    (h : recoverClaim nowMs db claim = .ok db') : Waiting db' other := by
  refine ⟨?_, hwait.2⟩
  rcases recoverClaim_ok h with rfl | ⟨atoms, h⟩
  · exact (Table.find?_modify_of_ne (·.release_entryId nowMs) hne).trans hwait.1
  · rw [(addApiKeySpend_ok h).ledger]
    exact (Table.find?_modify_of_ne (·.settle_entryId atoms nowMs) hne).trans hwait.1

theorem mem_reservedClaims :
    claim ∈ reservedClaims db ↔ claim ∈ db.ledger.rows ∧ claim.state = .reserved := by
  simp [reservedClaims, mem_insertionSort]

theorem nodup_reservedClaims (db : UsageDb) :
    ((reservedClaims db).map LedgerRow.entryId).Nodup := by
  have hperm := (perm_insertionSort (fun a b : LedgerRow => a.entryId ≤ b.entryId)
    (db.ledger.rows.filter fun row => row.state = .reserved)).map LedgerRow.entryId
  refine hperm.nodup_iff.mpr ?_
  exact (filter_sublist.map LedgerRow.entryId).nodup db.ledger.nodup

section Induction

variable {P : UsageDb → Prop} {nowMs : ℤ}

section

variable (hstep : ∀ {db db' : UsageDb} {claim : LedgerRow}, P db → Waiting db claim →
  recoverClaim nowMs db claim = .ok db' → P db')

include hstep

/-- What recovering any waiting claim keeps, a transaction of recovery keeps. -/
theorem recoverClaims_induction
    {recovered : ℕ} (hdb : P db) (h : recoverClaims nowMs db = .ok (recovered, db')) : P db' := by
  obtain ⟨_, hfold, heq⟩ := Fold.bind_eq_ok.mp h
  cases heq
  -- The claims that are left have distinct ids and still wait.
  have hrun := Fold.ok_induction
    (fun (rest : List LedgerRow) (db : UsageDb) =>
      P db ∧ (rest.map LedgerRow.entryId).Nodup ∧ ∀ claim ∈ rest, Waiting db claim)
    (fun claim rest db db' hinv hone => ?_) ⟨hdb, ?_, fun claim hmem => ?_⟩ hfold
  · exact hrun.1
  · obtain ⟨hP, hnodup, hwait⟩ := hinv
    rw [map_cons, nodup_cons] at hnodup
    refine ⟨hstep hP (hwait claim mem_cons_self) hone, hnodup.2, fun other hother => ?_⟩
    refine recoverClaim_waiting ?_ (hwait other (mem_cons_of_mem _ hother)) hone
    intro he
    exact hnodup.1 (he ▸ mem_map_of_mem hother)
  · exact ((take_sublist _ _).map _).nodup (nodup_reservedClaims db)
  · obtain ⟨hrow, hstate⟩ := mem_reservedClaims.mp (mem_of_mem_take hmem)
    exact ⟨Table.find?_eq_some.mpr ⟨hrow, rfl⟩, hstate⟩

/-- What recovering any waiting claim keeps, a whole recovery keeps. -/
theorem recoverLoop_induction
    {fuel total : ℕ} (hdb : P db) : P (recoverLoop nowMs fuel total db).2 := by
  induction fuel generalizing db total with
  | zero => exact hdb
  | succ _ ih =>
    unfold recoverLoop
    split
    · exact hdb
    · next recovered db₁ hone =>
        split
        · exact hdb
        · split
          · exact recoverClaims_induction hstep hdb hone
          · exact ih (recoverClaims_induction hstep hdb hone)

end

end Induction

variable {fuel total : ℕ}

/-! ## Recovery does not touch what is resolved -/

/-- No claim of the key waits to be recovered. -/
def Resolved (apiKeyId : String) (db : UsageDb) : Prop :=
  ∀ claim ∈ db.ledger.rows, claim.apiKeyId = apiKeyId → claim.state ≠ .reserved

/-- The key's spend in `db'` is that in `db`, and it still has no waiting claim. -/
structure Untouched (apiKeyId : String) (db db' : UsageDb) : Prop where
  resolved : Resolved apiKeyId db'
  key : (db'.apiKeys.find? apiKeyId).isSome = (db.apiKeys.find? apiKeyId).isSome
  spent : spentOf db' apiKeyId = spentOf db apiKeyId

variable {apiKeyId : String}

theorem Untouched.refl (h : Resolved apiKeyId db) : Untouched apiKeyId db db :=
  ⟨h, rfl, rfl⟩

theorem Untouched.trans {db₁ db₂ db₃ : UsageDb}
    (h₁ : Untouched apiKeyId db₁ db₂) (h₂ : Untouched apiKeyId db₂ db₃) :
    Untouched apiKeyId db₁ db₃ :=
  ⟨h₂.resolved, h₂.key.trans h₁.key, h₂.spent.trans h₁.spent⟩

theorem Resolved.modify {apiKeyId entryId : String} {f : LedgerRow → LedgerRow}
    {hf : ∀ r, (f r).entryId = r.entryId} (h : Resolved apiKeyId db)
    (hstate : ∀ r, (f r).state ≠ .reserved) :
    Resolved apiKeyId { db with ledger := db.ledger.modify entryId f hf } := by
  intro claim hmem hkey
  obtain ⟨old, hold, rfl⟩ := (Table.mem_modify hf).mp hmem
  by_cases hid : old.entryId = entryId
  · simp only [hid, if_true]
    exact hstate old
  · simp only [hid, if_false] at hkey ⊢
    exact h old hold hkey

theorem recoverClaim_untouched
    (hkey : (db.apiKeys.find? apiKeyId).isSome) (hresolved : Resolved apiKeyId db)
    (hne : claim.apiKeyId ≠ apiKeyId) (h : recoverClaim nowMs db claim = .ok db') :
    Untouched apiKeyId db db' := by
  rcases recoverClaim_ok h with rfl | ⟨atoms, h⟩
  · exact ⟨hresolved.modify fun _ => by simp [LedgerRow.release], rfl, rfl⟩
  · have hpaid := addApiKeySpend_ok h
    refine ⟨?_, hpaid.keys apiKeyId, ?_⟩
    · unfold Resolved
      rw [hpaid.ledger]
      exact hresolved.modify fun _ => by simp [LedgerRow.settle]
    · have hspent := hpaid.spent apiKeyId hkey
      rw [if_neg hne] at hspent
      exact hspent

theorem recoverLoop_untouched
    (hkey : (db.apiKeys.find? apiKeyId).isSome) (hresolved : Resolved apiKeyId db) :
    Untouched apiKeyId db (recoverLoop nowMs fuel total db).2 := by
  refine recoverLoop_induction (fun hdb hwait hone => ?_) (.refl hresolved)
  obtain ⟨hrow, -⟩ := Table.find?_eq_some.mp hwait.1
  have hne := fun hid => hdb.resolved _ hrow hid hwait.2
  exact hdb.trans (recoverClaim_untouched (hdb.key ▸ hkey) hdb.resolved hne hone)

/-! ## Redelivery -/

/-- A redelivered ledger entry is refused or ignored. -/
theorem recordQuotaLedgerEntry_resolved
    (hclaim : db.ledger.find? entry.entryId = some claim) (hstate : claim.state ≠ .reserved)
    (h : recordQuotaLedgerEntry db entry = .ok db') : db' = db := by
  unfold recordQuotaLedgerEntry at h
  rw [hclaim] at h
  simp only [hstate, ne_eq, not_false_eq_true, if_true] at h
  split at h
  · cases h
  · cases h
    rfl

/-! ## Runs -/

/-- The operations that open, charge and settle requests.  `recoverClaims` is a recovery of which
only one transaction was committed before the process died. -/
inductive UsageOp
  | beginLogicalRequest (start : LogicalRequestStart)
  | beginQuotaRequest (start : LogicalRequestStart)
  | markQuotaRequestDispatched (requestId : String) (dispatchedAtMs : ℤ)
  | recordAttempt (facts : AttemptFacts)
  | recordQuotaLedgerEntry (entry : QuotaLedgerEntry)
  | recoverQuotaReservations (nowMs : ℤ)
  | recoverClaims (nowMs : ℤ)

/-- The database after a transaction: what it committed, or what was there. -/
def commit (db : UsageDb) : Except UsageRepositoryError UsageDb → UsageDb
  | .ok db' => db'
  | .error _ => db

def UsageOp.exec (db : UsageDb) : UsageOp → UsageDb
  | .beginLogicalRequest start => commit db ((Storage.beginLogicalRequest db start).map (·.2))
  | .beginQuotaRequest start => commit db ((Storage.beginQuotaRequest db start).map (·.2))
  | .markQuotaRequestDispatched requestId atMs =>
    commit db (Storage.markQuotaRequestDispatched db requestId atMs)
  | .recordAttempt facts => commit db (Storage.recordAttempt db facts)
  | .recordQuotaLedgerEntry entry => commit db (Storage.recordQuotaLedgerEntry db entry)
  | .recoverQuotaReservations nowMs => (Storage.recoverQuotaReservations db nowMs).2
  | .recoverClaims nowMs => commit db ((Storage.recoverClaims nowMs db).map (·.2))

/-- The effect of operations in the order given.  An operation that fails outside the model has
no effect and is one that is not in the list. -/
def runOps (db : UsageDb) (ops : List UsageOp) : UsageDb := ops.foldl UsageOp.exec db

/-- A request id is opened by the one begin operation its kind calls for. -/
def UsageOp.OpensBy (claimed : String → Prop) : UsageOp → Prop
  | .beginLogicalRequest start => ¬claimed start.requestId
  | .beginQuotaRequest start => claimed start.requestId
  | _ => True

theorem commit_induction {P : UsageDb → Prop} {result : Except UsageRepositoryError UsageDb}
    (hdb : P db) (h : ∀ db', result = .ok db' → P db') : P (commit db result) := by
  cases result with
  | error => exact hdb
  | ok db' => exact h db' rfl

theorem postings_of_eq_or (h : db' = db ∨ Posting claimed db db') :
    ReflTransGen (Posting claimed) db db' := by
  rcases h with rfl | h
  · exact .refl
  · exact .single h

/-- Dropping the outcome of a committed operation. -/
theorem exists_of_map_ok {ε α β : Type} {result : Except ε (α × β)} {b : β}
    (h : result.map (·.2) = .ok b) : ∃ a, result = .ok (a, b) := by
  cases result with
  | error => cases h
  | ok pair =>
    cases h
    exact ⟨pair.1, rfl⟩

theorem UsageOp.exec_postings {op : UsageOp} (hop : op.OpensBy claimed) :
    ReflTransGen (Posting claimed) db (op.exec db) := by
  cases op with
  | beginLogicalRequest =>
    refine commit_induction .refl fun db' h => ?_
    obtain ⟨_, h⟩ := exists_of_map_ok h
    rw [insertLogicalRequest_ok h]
    exact .single (.opened _ hop)
  | beginQuotaRequest =>
    refine commit_induction .refl fun db' h => ?_
    obtain ⟨_, h⟩ := exists_of_map_ok h
    obtain ⟨_, rfl⟩ := beginQuotaRequest_ok h
    exact .single (.claimOpened _ _ rfl hop rfl)
  | markQuotaRequestDispatched =>
    exact commit_induction .refl fun db' h => .single (markQuotaRequestDispatched_posting h)
  | recordAttempt =>
    exact commit_induction .refl fun db' h => postings_of_eq_or (recordAttempt_posting h)
  | recordQuotaLedgerEntry =>
    exact commit_induction .refl fun db' h => postings_of_eq_or (recordQuotaLedgerEntry_posting h)
  | recoverQuotaReservations =>
    exact recoverLoop_induction
      (fun hdb hwait hone => hdb.tail (recoverClaim_posting hwait hone)) .refl
  | recoverClaims =>
    refine commit_induction .refl fun db' h => ?_
    obtain ⟨_, h⟩ := exists_of_map_ok h
    exact recoverClaims_induction
      (fun hdb hwait hone => hdb.tail (recoverClaim_posting hwait hone)) .refl h

/-- What does not depend on requests and claims and is kept by charges is kept by every operation
that records no attempt. -/
theorem UsageOp.exec_induction {P : UsageDb → Prop} {op : UsageOp} (hdb : P db)
    (htables : ∀ {db : UsageDb} requests ledger, P db → P { db with requests, ledger })
    (hpaid : ∀ {db db' apiKeyId atoms}, addApiKeySpend db apiKeyId atoms = .ok db' → P db → P db')
    (hop : ∀ facts, op ≠ .recordAttempt facts) : P (op.exec db) := by
  have hresolves {db db' claim atMs} (h : Resolves db claim atMs db') (hdb : P db) : P db' := by
    rcases h with rfl | ⟨atoms, h⟩
    · exact htables _ _ hdb
    · exact hpaid h (htables _ _ hdb)
  cases op with
  | recordAttempt facts => exact absurd rfl (hop facts)
  | beginLogicalRequest =>
    refine commit_induction hdb fun db' h => ?_
    obtain ⟨_, h⟩ := exists_of_map_ok h
    rw [insertLogicalRequest_ok h]
    exact htables _ _ hdb
  | beginQuotaRequest =>
    refine commit_induction hdb fun db' h => ?_
    obtain ⟨_, h⟩ := exists_of_map_ok h
    obtain ⟨_, rfl⟩ := beginQuotaRequest_ok h
    exact htables _ _ hdb
  | markQuotaRequestDispatched =>
    refine commit_induction hdb fun db' h => ?_
    unfold Storage.markQuotaRequestDispatched at h
    split at h
    · cases h
    · split at h
      · cases h
        exact htables _ _ hdb
      · cases h
  | recordQuotaLedgerEntry =>
    refine commit_induction hdb fun db' h => ?_
    rcases recordQuotaLedgerEntry_ok h with rfl | ⟨claim, -, h⟩
    · exact hdb
    · exact hresolves h hdb
  | recoverQuotaReservations =>
    exact recoverLoop_induction (fun hdb _ hone => hresolves (recoverClaim_ok hone) hdb) hdb
  | recoverClaims =>
    refine commit_induction hdb fun db' h => ?_
    obtain ⟨_, h⟩ := exists_of_map_ok h
    exact recoverClaims_induction (fun hdb _ hone => hresolves (recoverClaim_ok hone) hdb) hdb h

theorem postings_invariant (hopen : WellOpened claimed db)
    (h : ReflTransGen (Posting claimed) db db') : WellOpened claimed db' ∧ Balanced db db' := by
  induction h with
  | refl => exact ⟨hopen, .refl db⟩
  | tail _ hlast ih => exact ⟨hlast.wellOpened ih.1, ih.2.trans (hlast.balanced ih.1)⟩

variable {ops : List UsageOp}

theorem runOps_invariant (hopen : WellOpened claimed db) (hops : ∀ op ∈ ops, op.OpensBy claimed) :
    WellOpened claimed (runOps db ops) ∧ Balanced db (runOps db ops) := by
  induction ops generalizing db with
  | nil => exact ⟨hopen, .refl db⟩
  | cons op _ ih =>
    obtain ⟨hopen₁, hbal₁⟩ := postings_invariant hopen (UsageOp.exec_postings (hops op (by simp)))
    obtain ⟨hopen₂, hbal₂⟩ := ih hopen₁ fun op' hop' => hops op' (by simp [hop'])
    exact ⟨hopen₂, hbal₁.trans hbal₂⟩

/-- Over a run, recorded attempts and resolved claims stay as they are. -/
theorem runOps_keeps (hops : ∀ op ∈ ops, op.OpensBy claimed) :
    (∀ attempt, db.attempts.find? attempt.id = some attempt →
        (runOps db ops).attempts.find? attempt.id = some attempt) ∧
      ∀ claim, db.ledger.find? claim.entryId = some claim → claim.state ≠ .reserved →
        (runOps db ops).ledger.find? claim.entryId = some claim := by
  have hpostings : ReflTransGen (Posting claimed) db (runOps db ops) := by
    induction ops generalizing db with
    | nil => exact .refl
    | cons op _ ih =>
      exact (UsageOp.exec_postings (hops op (by simp))).trans
        (ih fun op' hop' => hops op' (by simp [hop']))
  generalize runOps db ops = db' at hpostings
  induction hpostings with
  | refl => exact ⟨fun _ h => h, fun _ h _ => h⟩
  | tail _ hlast ih =>
    exact ⟨fun attempt h => hlast.find?_recorded (ih.1 attempt h),
      fun claim h hstate => hlast.find?_resolved (ih.2 claim h hstate) hstate⟩

/-- The key's spend moves by its charges and by nothing else: at any point of any run it is the
spend at the start plus what the ledger settled and what unclaimed attempts were recorded with
since.  What is charged is charged once: a recorded attempt and a resolved claim stay as they
are through whatever follows, and a redelivered attempt, a redelivered ledger entry and a
recovery of a key whose claims are resolved add nothing. -/
theorem spend_charged_once {ops : List UsageOp} {apiKeyId : String}
    (hopen : WellOpened claimed db) (hops : ∀ op ∈ ops, op.OpensBy claimed)
    (hkey : (db.apiKeys.find? apiKeyId).isSome) :
    spentOf (runOps db ops) apiKeyId + charged db apiKeyId =
        spentOf db apiKeyId + charged (runOps db ops) apiKeyId ∧
      (∀ attempt, db.attempts.find? attempt.id = some attempt →
        (runOps db ops).attempts.find? attempt.id = some attempt) ∧
      (∀ claim, db.ledger.find? claim.entryId = some claim → claim.state ≠ .reserved →
        (runOps db ops).ledger.find? claim.entryId = some claim) ∧
      (∀ facts : AttemptFacts, ((runOps db ops).attempts.find? facts.attemptId).isSome →
        (UsageOp.recordAttempt facts).exec (runOps db ops) = runOps db ops) ∧
      (∀ (entry : QuotaLedgerEntry) (claim : LedgerRow),
        (runOps db ops).ledger.find? entry.entryId = some claim → claim.state ≠ .reserved →
        (UsageOp.recordQuotaLedgerEntry entry).exec (runOps db ops) = runOps db ops) ∧
      ∀ nowMs : ℤ, Resolved apiKeyId (runOps db ops) →
        spentOf ((UsageOp.recoverQuotaReservations nowMs).exec (runOps db ops)) apiKeyId =
          spentOf (runOps db ops) apiKeyId := by
  obtain ⟨-, hbal⟩ := runOps_invariant hopen hops
  obtain ⟨hrecorded, hresolved⟩ := @runOps_keeps claimed db ops hops
  refine ⟨hbal.spent apiKeyId hkey, hrecorded, hresolved, fun facts hknown => ?_,
    fun entry claim hclaim hstate => ?_, fun nowMs hresolved => ?_⟩
  · cases h : recordAttempt (runOps db ops) facts with
    | error => simp [UsageOp.exec, h, commit]
    | ok => simpa [UsageOp.exec, h, commit] using recordAttempt_known hknown h
  · cases h : recordQuotaLedgerEntry (runOps db ops) entry with
    | error => simp [UsageOp.exec, h, commit]
    | ok =>
      simpa [UsageOp.exec, h, commit] using recordQuotaLedgerEntry_resolved hclaim hstate h
  · have hkey' : ((runOps db ops).apiKeys.find? apiKeyId).isSome := by
      rw [hbal.keys apiKeyId]
      exact hkey
    exact (recoverLoop_untouched hkey' hresolved).spent

def oneKeyDb (spentAtoms : String) : UsageDb where
  apiKeys := Table.empty.insertNew
    { id := "key", ownerUserId := "user", groupLabels := ["default"], label := "key"
      key := "digest", enabled := true, expiresAt := none, quotaLimitAtoms := some "100"
      spentAtoms := spentAtoms }
  ledger := .empty
  requests := .empty
  attempts := .empty
  billable := .empty

def keyStart (requestId : String) : LogicalRequestStart where
  requestId := requestId
  ownerUserId := "user"
  apiKeyId := some "key"
  apiKeyLabel := none
  apiKeyGroupLabels := none
  endpoint := some .responses
  clientModelRaw := none
  routingModel := none
  reasoningEffort := none
  startedAtMs := 0

/-- The first attempt of a request, answered. -/
def answeredFacts (requestId : String) : AttemptFacts :=
  let tracker := (({} : LogicalState).openAttempt (keyStart requestId) none sampleSpec 1).1
  attemptFacts requestId { tracker with state := { evidence := .responseObserved } } 2

/-- A claimed request with one attempt that is settled for seven atoms, with the attempt recorded
before, the entry delivered twice and a recovery afterwards. -/
def settledTwice : List UsageOp :=
  [ .beginQuotaRequest (keyStart "r1"), .markQuotaRequestDispatched "r1" 1,
    .recordAttempt (answeredFacts "r1"),
    .recordQuotaLedgerEntry ⟨"r1", "key", true, some "7", 2, [answeredFacts "r1"]⟩,
    .recordQuotaLedgerEntry ⟨"r1", "key", true, some "7", 2, [answeredFacts "r1"]⟩,
    .recoverQuotaReservations 3 ]

theorem spend_charged_once_settledTwice :
    spentOf (runOps (oneKeyDb "5") settledTwice) "key" + charged (oneKeyDb "5") "key" =
        spentOf (oneKeyDb "5") "key" + charged (runOps (oneKeyDb "5") settledTwice) "key" ∧
      spentOf (runOps (oneKeyDb "5") settledTwice) "key" = 12 ∧
      (runOps (oneKeyDb "5") settledTwice).attempts.rows.length = 1 := by
  have hopen : WellOpened (fun _ => True) (oneKeyDb "5") := by
    refine ⟨?_, ?_, ?_⟩ <;> simp [oneKeyDb, Table.empty]
  have hops : ∀ op ∈ settledTwice, op.OpensBy fun _ => True := by
    simp [settledTwice, UsageOp.OpensBy]
  exact ⟨(spend_charged_once hopen hops (by decide)).1, by decide, by decide⟩

end ProviderCore.Storage
