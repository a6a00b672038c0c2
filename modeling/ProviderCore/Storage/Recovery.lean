import Mathlib.Algebra.Order.BigOperators.Group.List
import ProviderCore.Lib.Batch
import ProviderCore.Storage.Spend
import ProviderCore.Usage.AttemptLife
import ProviderCore.Usage.CostSign
import ProviderCore.Usage.QuotaAccount

/-!
# Recovery against the live path

A finite-quota request is settled once: by the ledger entry its tracker builds, or, when the
process dies first, by `recover_quota_reservations` from the attempts recorded for it.  The live
path adds up the complete costs it holds in 128 bits; recovery adds up the recorded ones, and a
cost that does not fit the 64-bit column is recorded as unavailable.

`recoverLoop_recovered` says what a whole recovery does: it resolves every waiting claim and
charges each key, for each of its waiting claims, the complete costs recorded for it.
-/

namespace ProviderCore.Storage

open Usage Auth List

variable {db db' db₁ : UsageDb}

/-! ## One claim -/

def recoveredAmount (db : UsageDb) (requestId : String) : ℕ :=
  db.attempts.sum fun attempt =>
    if attempt.row.logicalRequestId = requestId then recordedCost attempt.row else 0

/-- Summed costs are worth their sum, and none is negative. -/
theorem sumCosts_ok {costs : List I64} {text : String} (h : sumCosts costs = .ok text) :
    atomsValue text = (costs.map (·.val.toNat)).sum := by
  have hsum := Fold.ok_induction
    (fun (rest : List I64) (settled : String) =>
      atomsValue settled + (rest.map (·.val.toNat)).sum = (costs.map (·.val.toNat)).sum)
    (fun cost rest settled next hinv hone => ?_) (by simp [atomsValue]; rfl) h
  · simpa using hsum
  · split at hone
    · next sum hadd =>
        cases hone
        obtain ⟨-, hcost, -, hvalue⟩ := addAtoms_eq_ok hadd
        have hnonneg := nonneg_of_validAtoms hcost
        rw [toString_of_nonneg hnonneg, atomsValue_toString] at hvalue
        rw [map_cons, sum_cons] at hinv
        omega
    · cases hone

theorem eq_map_some_of_mapM_id {α : Type} {l : List (Option α)} {values : List α}
    (h : l.mapM id = some values) : l = values.map some := by
  induction l generalizing values with
  | nil =>
    cases h
    rfl
  | cons _ _ ih =>
    simp only [mapM_cons, Option.bind_eq_bind, Option.bind_eq_some_iff, Option.pure_def,
      Option.some.injEq] at h
    obtain ⟨_, hx, _, hrest, rfl⟩ := h
    rw [ih hrest, map_cons]
    exact congrArg (· :: _) hx

variable {requestId : String}

/-- The costs recovery reads are the complete costs recorded for the request. -/
theorem sum_recordedCosts {costs : List I64}
    (h : (recordedCosts db requestId).mapM id = some costs) :
    (costs.map (·.val.toNat)).sum = recoveredAmount db requestId := by
  have hcosts : costs.map (·.val.toNat) = (recordedCosts db requestId).map fun cost =>
      (cost.map fun atoms => atoms.val.toNat).getD 0 := by
    rw [eq_map_some_of_mapM_id h, map_map]
    rfl
  rw [hcosts, recordedCosts, map_map, ((perm_insertionSort _ _).map _).sum_eq]
  unfold recoveredAmount Table.sum
  induction db.attempts.rows with
  | nil => rfl
  | cons attempt _ ih =>
    by_cases hrequest : attempt.row.logicalRequestId = requestId
    · by_cases hstatus : attempt.row.costStatus = "complete_for_observed_catalog_components" <;>
        simp_all [recordedCost]
    · simpa [hrequest] using ih

/-- What recovering one claim does: it resolves that claim and charges its key. -/
structure Recovered (db db' : UsageDb) (claims : List LedgerRow) : Prop where
  attempts : db'.attempts = db.attempts
  keys : ∀ k, (db'.apiKeys.find? k).isSome = (db.apiKeys.find? k).isSome
  waiting : ∀ claim, claim ∈ reservedClaims db' ↔ claim ∈ reservedClaims db ∧ claim ∉ claims
  spent : ∀ k, (db.apiKeys.find? k).isSome →
    spentOf db' k = spentOf db k +
      (claims.map fun claim =>
        if claim.apiKeyId = k then recoveredAmount db claim.entryId else 0).sum

theorem recoveredAmount_congr (h : db'.attempts = db.attempts) (requestId : String) :
    recoveredAmount db' requestId = recoveredAmount db requestId := by
  rw [recoveredAmount, recoveredAmount, h]

variable {claim : LedgerRow}

/-- Resolving a waiting claim leaves exactly the others waiting. -/
theorem reservedClaims_modify (hclaim : claim ∈ reservedClaims db)
    {f : LedgerRow → LedgerRow} (hf : ∀ r, (f r).entryId = r.entryId)
    (hstate : ∀ r, (f r).state ≠ .reserved)
    (hledger : db'.ledger = db.ledger.modify claim.entryId f hf) (other : LedgerRow) :
    other ∈ reservedClaims db' ↔ other ∈ reservedClaims db ∧ other ∉ [claim] := by
  obtain ⟨hrow, -⟩ := mem_reservedClaims.mp hclaim
  rw [mem_reservedClaims, mem_reservedClaims, hledger, Table.mem_modify hf, mem_singleton]
  constructor
  · rintro ⟨⟨old, hold, rfl⟩, hother⟩
    by_cases hid : old.entryId = claim.entryId
    · rw [if_pos hid] at hother
      exact absurd hother (hstate old)
    · rw [if_neg hid] at hother ⊢
      exact ⟨⟨hold, hother⟩, fun he => hid (congrArg LedgerRow.entryId he)⟩
  · rintro ⟨⟨hother, hstate⟩, hne⟩
    refine ⟨⟨other, hother, if_neg fun hid => hne ?_⟩, hstate⟩
    have hfind := Table.find?_eq_some.mpr ⟨hrow, rfl⟩
    have hfind' := Table.find?_eq_some.mpr ⟨hother, hid⟩
    exact Option.some.inj (hfind'.symm.trans hfind)

variable {nowMs : ℤ}

theorem recoverClaim_recovered (hclaim : claim ∈ reservedClaims db)
    (h : recoverClaim nowMs db claim = .ok db') : Recovered db db' [claim] := by
  unfold recoverClaim at h
  rcases hcosts : (recordedCosts db claim.entryId).mapM id with _ | costs
  · simp [hcosts] at h
  have hamount := sum_recordedCosts hcosts
  simp only [hcosts] at h
  by_cases hnil : costs = []
  · rw [if_pos hnil] at h
    cases h
    refine ⟨rfl, fun _ => rfl, reservedClaims_modify hclaim (·.release_entryId nowMs)
      (fun _ => by simp [LedgerRow.release]) rfl, fun k _ => ?_⟩
    have hzero : recoveredAmount db claim.entryId = 0 := by simpa [hnil] using hamount.symm
    simp [hzero, releaseClaim, spentOf]
  · rw [if_neg hnil, Fold.bind_eq_ok] at h
    obtain ⟨text, hsum, hsettle⟩ := h
    unfold settleClaim at hsettle
    split at hsettle
    · cases hsettle
    · have hpaid := addApiKeySpend_ok hsettle
      refine ⟨hpaid.attempts, hpaid.keys, reservedClaims_modify hclaim (·.settle_entryId text nowMs)
        (fun _ => by simp [LedgerRow.settle]) hpaid.ledger, fun k hk => ?_⟩
      have hspent := hpaid.spent k hk
      rw [sumCosts_ok hsum, hamount] at hspent
      simpa [spentOf] using hspent

/-! ## The whole recovery -/

theorem Recovered.refl (db : UsageDb) : Recovered db db [] :=
  ⟨rfl, fun _ => rfl, fun _ => by simp, fun _ _ => by simp⟩

variable {claims claims' : List LedgerRow}

theorem Recovered.trans (h : Recovered db db₁ claims)
    (h' : Recovered db₁ db' claims') : Recovered db db' (claims ++ claims') := by
  refine ⟨h'.attempts.trans h.attempts, fun k => (h'.keys k).trans (h.keys k), fun claim => ?_,
    fun k hk => ?_⟩
  · rw [h'.waiting, h.waiting, mem_append]
    tauto
  · have hamounts : ∀ claim : LedgerRow, recoveredAmount db₁ claim.entryId =
        recoveredAmount db claim.entryId := fun claim => recoveredAmount_congr h.attempts _
    rw [h'.spent k (h.keys k ▸ hk), h.spent k hk, map_append, sum_append]
    simp [hamounts, Nat.add_assoc]

theorem Recovered.perm (hperm : claims.Perm claims')
    (h : Recovered db db' claims) : Recovered db db' claims' := by
  refine ⟨h.attempts, h.keys, fun claim => ?_, fun k hk => ?_⟩
  · rw [h.waiting, hperm.mem_iff]
  · rw [h.spent k hk, (hperm.map _).sum_eq]

theorem recoverFold_recovered {claims : List LedgerRow} (hnodup : claims.Nodup)
    (hclaims : ∀ claim ∈ claims, claim ∈ reservedClaims db)
    (h : claims.foldlM (recoverClaim nowMs) db = .ok db') : Recovered db db' claims := by
  induction claims generalizing db with
  | nil =>
    cases h
    exact .refl _
  | cons claim _ ih =>
    rw [foldlM_cons, Fold.bind_eq_ok] at h
    obtain ⟨_, hone, hrest⟩ := h
    rw [nodup_cons] at hnodup
    have hfirst := recoverClaim_recovered (hclaims claim mem_cons_self) hone
    refine hfirst.trans (ih hnodup.2 (fun other hother => ?_) hrest)
    refine (hfirst.waiting other).mpr ⟨hclaims other (mem_cons_of_mem _ hother), ?_⟩
    rintro hmem
    exact hnodup.1 (mem_singleton.mp hmem ▸ hother)

theorem nodup_waiting (db : UsageDb) : (reservedClaims db).Nodup :=
  (nodup_reservedClaims db).of_map _

variable {recovered : ℕ}

theorem recoverClaims_recovered (h : recoverClaims nowMs db = .ok (recovered, db')) :
    recovered = ((reservedClaims db).take recoveryBatch).length ∧
      Recovered db db' ((reservedClaims db).take recoveryBatch) := by
  obtain ⟨_, hfold, heq⟩ := Fold.bind_eq_ok.mp h
  cases heq
  exact ⟨rfl, recoverFold_recovered ((nodup_waiting db).sublist (take_sublist _ _))
    (fun _ => mem_of_mem_take) hfold⟩

/-- The claims that wait are the recovered ones and those that still wait. -/
theorem Recovered.reservedClaims_perm {claims : List LedgerRow} (h : Recovered db db' claims)
    (hnodup : claims.Nodup) (hclaims : ∀ claim ∈ claims, claim ∈ reservedClaims db) :
    (claims ++ reservedClaims db').Perm (reservedClaims db) :=
  Batch.perm_append (nodup_waiting db) hnodup (nodup_waiting db') hclaims h.waiting

/-- A recovery that is given enough rounds resolves every waiting claim. -/
theorem recoverLoop_recovered {fuel total : ℕ} (hfuel : (reservedClaims db).length < fuel)
    (h : recoverLoop nowMs fuel total db = (.ok recovered, db')) :
    Recovered db db' (reservedClaims db) := by
  induction fuel generalizing db total with
  | zero => exact absurd hfuel (Nat.not_lt_zero _)
  | succ _ ih =>
    unfold recoverLoop at h
    split at h
    · cases h
    next count db₁ hbatch =>
      obtain ⟨rfl, hdone⟩ := recoverClaims_recovered hbatch
      rw [length_take] at h
      split at h
      · next hzero =>
          have hnil : reservedClaims db = [] := by
            rw [← length_eq_zero_iff]
            simp only [recoveryBatch] at hzero
            omega
          cases h
          rw [hnil]
          exact .refl _
      · split at h
        · next hshort =>
            cases h
            rwa [take_of_length_le (by omega)] at hdone
        · next hfull =>
            have hperm := hdone.reservedClaims_perm
              ((nodup_waiting db).sublist (take_sublist _ _))
              (fun _ => mem_of_mem_take)
            have hlength := hperm.length_eq
            rw [length_append, length_take] at hlength
            exact (hdone.trans (ih (by omega) h)).perm hperm

theorem recoverQuotaReservations_recovered
    (h : recoverQuotaReservations db nowMs = (.ok recovered, db')) :
    Recovered db db' (reservedClaims db) :=
  recoverLoop_recovered (Nat.lt_succ_self _) h

/-! ## What recording attempts makes recoverable -/

/-- The complete cost an attempt is recorded with: one that does not fit the column is not. -/
def storedCost (facts : AttemptFacts) : ℕ :=
  if facts.isComplete ∧ facts.cost.totalKnown.val < 2 ^ 63 then facts.cost.totalKnown.val.toNat
  else 0

theorem recordedCost_attemptRow {facts : AttemptFacts} (revision : I64)
    (hcost : 0 ≤ facts.cost.totalKnown.val) :
    recordedCost (attemptRow facts revision) = storedCost facts := by
  rw [@recordedCost_eq (storableCost facts.cost) _ rfl rfl, storedCost]
  by_cases hstored : facts.isComplete ∧ facts.cost.totalKnown.val < 2 ^ 63
  · let atoms : I64 := ⟨facts.cost.totalKnown.val, by omega, hstored.2⟩
    obtain ⟨hstatus, hatoms⟩ := storableCost_complete.mpr
      (⟨by simpa [AttemptFacts.isComplete] using hstored.1, rfl⟩ :
        _ ∧ facts.cost.totalKnown.val = atoms.val)
    rw [if_pos hstored, if_pos hstatus, hatoms]
    rfl
  · split
    · next hstatus =>
        rcases hatoms : (storableCost facts.cost).atoms with _ | atoms
        · rfl
        · obtain ⟨hcomplete, hval⟩ := storableCost_complete.mp ⟨hstatus, hatoms⟩
          refine absurd ⟨by simp [AttemptFacts.isComplete, hcomplete], ?_⟩ hstored
          exact hval ▸ atoms.lt
    · rfl

def storedRows (db : UsageDb) (requestId : String) : List AttemptRow :=
  (db.attempts.rows.map StoredAttempt.row).filter fun row => row.logicalRequestId = requestId

/-- The row `record_attempt` writes for an attempt. -/
def IsRowOf (row : AttemptRow) (facts : AttemptFacts) : Prop :=
  ∃ revision : I64, IntRange.tryFrom facts.credentialIdentityRevision.val = some revision ∧
    row = attemptRow facts revision

/-- The rows stored for a request are those of the given attempts, in whatever order they were
written. -/
def Written (db : UsageDb) (requestId : String) (attempts : List AttemptFacts) : Prop :=
  ∃ rows, rows.Perm (storedRows db requestId) ∧ List.Forall₂ IsRowOf rows attempts

variable {attempts : List AttemptFacts}

/-- Recording a new attempt of a request adds it to what is written for the request. -/
theorem Written.recordAttempt {facts : AttemptFacts}
    (hwritten : Written db facts.logicalRequestId attempts)
    (hfresh : db.attempts.find? facts.attemptId = none) (h : recordAttempt db facts = .ok db') :
    Written db' facts.logicalRequestId (attempts ++ [facts]) := by
  obtain ⟨rows, hperm, hrows⟩ := hwritten
  obtain ⟨-, revision, hrevision, hchecks, -, -, _, -, hcharge⟩ :=
    (recordAttempt_eq_ok_of_fresh hfresh).mp h
  have hattempts := (chargeAttempt_tables hcharge).2.2
  have hstored : storedRows db' facts.logicalRequestId =
      storedRows db facts.logicalRequestId ++ [attemptRow facts revision] := by
    have hfresh' : db.attempts.find? (StoredAttempt.id ⟨attemptRow facts revision, hchecks⟩) =
      none := hfresh
    have hself : (attemptRow facts revision).logicalRequestId = facts.logicalRequestId := rfl
    rw [storedRows, hattempts, Table.rows_insertNew hfresh']
    simp [storedRows, hself]
  refine ⟨rows ++ [attemptRow facts revision], ?_, ?_⟩
  · rw [hstored]
    exact hperm.append_right _
  · exact rel_append hrows (.cons ⟨revision, hrevision, rfl⟩ .nil)

/-- Written attempts can be recovered for their stored costs. -/
theorem Written.recoveredAmount (hwritten : Written db requestId attempts)
    (hcost : ∀ facts ∈ attempts, 0 ≤ facts.cost.totalKnown.val) :
    recoveredAmount db requestId = (attempts.map storedCost).sum := by
  obtain ⟨_, hperm, hrows⟩ := hwritten
  have hamount : Storage.recoveredAmount db requestId =
      ((storedRows db requestId).map recordedCost).sum := by
    unfold Storage.recoveredAmount Table.sum storedRows
    induction db.attempts.rows with
    | nil => rfl
    | cons attempt _ ih =>
      by_cases hrequest : attempt.row.logicalRequestId = requestId <;> simp [hrequest, ih]
  rw [hamount, ← (hperm.map recordedCost).sum_eq]
  clear hperm hamount
  induction hrows with
  | nil => rfl
  | cons hrow _ ih =>
    obtain ⟨revision, -, rfl⟩ := hrow
    rw [forall_mem_cons] at hcost
    simp [recordedCost_attemptRow revision hcost.1, ih hcost.2]

/-! ## The two settlements of one request -/

/-- A dispatched attempt in the state it closed in, priced as `begin_attempt` prices it. -/
structure ClosedAttempt where
  attempt : AttemptTracker
  closedAtMs : ℤ
  dispatched : attempt.state.evidence.isConfirmedDispatch = true
  priced : ∃ pricing, attempt.spec.price = modelPriceResolution pricing

def ClosedAttempt.facts (requestId : String) (closed : ClosedAttempt) : AttemptFacts :=
  attemptFacts requestId closed.attempt closed.closedAtMs

theorem ClosedAttempt.cost_nonneg (requestId : String) (closed : ClosedAttempt) :
    0 ≤ (closed.facts requestId).cost.totalKnown.val := by
  obtain ⟨pricing, hpriced⟩ := closed.priced
  refine attemptFacts_cost_nonneg requestId closed.closedAtMs ?_
  rw [hpriced]
  exact modelPriceResolution_nonneg pricing

/-- The tracker's state after its attempts closed, in this order. -/
def closeAll (requestId : String) (closed : List ClosedAttempt) : Option LogicalState :=
  closed.foldlM (fun state c => state.noteClosed c.attempt (c.facts requestId))
    ({ quotaPermit := true } : LogicalState).markQuotaDispatched

/-- The complete cost an attempt adds to the tracker's sum. -/
def liveCost (facts : AttemptFacts) : ℕ :=
  if facts.isComplete then facts.cost.totalKnown.val.toNat else 0

theorem closeAll_accounts {closed : List ClosedAttempt}
    {state : LogicalState} (h : closeAll requestId closed = some state) :
    state.Accounts (closed.map (·.facts requestId)) := by
  have hrun : ∀ (rest : List ClosedAttempt) (done : List AttemptFacts) (before : LogicalState),
      before.Accounts done →
      rest.foldlM (fun state c => state.noteClosed c.attempt (c.facts requestId)) before =
        some state →
      state.Accounts (done ++ rest.map (·.facts requestId)) := by
    intro rest
    induction rest with
    | nil =>
      intro done before haccounts heq
      cases heq
      simpa using haccounts
    | cons _ _ ih =>
      intro done before haccounts heq
      obtain ⟨next, hone, hrest⟩ := Option.bind_eq_some_iff.mp heq
      rw [map_cons, append_cons]
      exact ih _ next (haccounts.noteClosed hone) hrest
  exact hrun closed [] _ LogicalState.accounts_nil.markQuotaDispatched h

/-- The request's attempts are written and its claim waits: the process may finish the request,
or die and leave it to recovery. -/
structure Unsettled (start : LogicalRequestStart) (closed : List ClosedAttempt)
    (entry : QuotaLedgerEntry) (claim : LedgerRow) (db : UsageDb) : Prop where
  entry_eq : ∃ state finishedAtMs, closeAll start.requestId closed = some state ∧
    (state.finish start finishedAtMs).1.bind (·.quota) = some entry
  written : Written db start.requestId (closed.map (·.facts start.requestId))
  claim_found : db.ledger.find? start.requestId = some claim
  claim_reserved : claim.state = .reserved
  claim_key : start.apiKeyId = some claim.apiKeyId

/-- The amount a ledger entry carries. -/
def entryAmount (entry : QuotaLedgerEntry) : ℕ := (entry.costAtoms.map atomsValue).getD 0

/-- The ledger entry of a waiting claim charges the amount it carries. -/
theorem recordQuotaLedgerEntry_spent {entry : QuotaLedgerEntry}
    (hclaim : db.ledger.find? entry.entryId = some claim) (hreserved : claim.state = .reserved)
    (hkey : (db.apiKeys.find? entry.apiKeyId).isSome)
    (h : recordQuotaLedgerEntry db entry = .ok db') :
    spentOf db' entry.apiKeyId = spentOf db entry.apiKeyId + entryAmount entry := by
  unfold recordQuotaLedgerEntry at h
  rw [hclaim] at h
  simp only [hreserved, ne_eq, not_true_eq_false, if_false] at h
  split at h
  · cases h
  rcases hcost : entry.costAtoms with _ | atoms
  · simp only [hcost] at h
    cases h
    simp [entryAmount, hcost, releaseClaim, spentOf]
  · simp only [hcost] at h
    split at h
    · cases h
    unfold settleClaim at h
    split at h
    · cases h
    have hspent := (addApiKeySpend_ok h).spent entry.apiKeyId hkey
    simpa [entryAmount, hcost, spentOf] using hspent

theorem completeTotal_eq_sum (hcost : ∀ facts ∈ attempts, 0 ≤ facts.cost.totalKnown.val) :
    completeTotal attempts = ((attempts.map liveCost).sum : ℕ) := by
  induction attempts with
  | nil => rfl
  | cons facts _ ih =>
    rw [forall_mem_cons] at hcost
    have hrest := ih hcost.2
    unfold completeTotal at hrest ⊢
    by_cases hcomplete : facts.isComplete
    · simp [hcomplete, liveCost, hrest, hcost.1]
    · simp [hcomplete, liveCost, hrest]

section Settlement

variable {start : LogicalRequestStart} {closed : List ClosedAttempt} {entry : QuotaLedgerEntry}
  {claim : LedgerRow}

theorem Unsettled.cost_nonneg : ∀ facts ∈ closed.map (·.facts start.requestId),
    0 ≤ facts.cost.totalKnown.val := by
  intro facts hfacts
  obtain ⟨c, -, rfl⟩ := mem_map.mp hfacts
  exact c.cost_nonneg start.requestId

/-- The entry of an unsettled request carries the sum of its complete costs. -/
theorem Unsettled.entry_spec (h : Unsettled start closed entry claim db) :
    entry.entryId = start.requestId ∧ entry.apiKeyId = claim.apiKeyId ∧
      entryAmount entry = ((closed.map (·.facts start.requestId)).map liveCost).sum := by
  obtain ⟨state, finishedAtMs, hstate, hentry⟩ := h.entry_eq
  have haccounts := closeAll_accounts hstate
  have hbuilt : quotaEntry start state finishedAtMs = entry := by
    unfold LogicalState.finish at hentry
    split at hentry
    · cases hentry
    · simpa [haccounts.permit] using hentry
  obtain ⟨-, -, hcost⟩ := haccounts.quotaEntry start finishedAtMs
  have hsent : dispatchedAttempts (closed.map (·.facts start.requestId)) =
      closed.map (·.facts start.requestId) := by
    refine filter_eq_self.mpr fun facts hfacts => ?_
    obtain ⟨c, -, rfl⟩ := mem_map.mp hfacts
    exact c.dispatched
  rw [hsent, completeTotal_eq_sum Unsettled.cost_nonneg] at hcost
  subst hbuilt
  refine ⟨rfl, by simp [quotaEntry, h.claim_key], ?_⟩
  by_cases hany : ∃ facts ∈ closed.map (·.facts start.requestId), facts.isComplete = true
  · obtain ⟨_, hfacts, -⟩ := id hany
    have hdispatched := haccounts.dispatched (by rw [hsent]; exact ne_nil_of_mem hfacts)
    rw [entryAmount, hcost, if_pos ⟨hdispatched, hany⟩]
    exact atomsValue_toString _
  · rw [entryAmount, hcost, if_neg fun hboth => hany hboth.2]
    refine (sum_eq_zero fun amount hamount => ?_).symm
    obtain ⟨facts, hfacts, rfl⟩ := mem_map.mp hamount
    exact if_neg fun hcomplete => hany ⟨facts, hfacts, hcomplete⟩

/-- What recovery would charge the key for its other waiting claims. -/
def otherClaimsAmount (db : UsageDb) (claim : LedgerRow) : ℕ :=
  (((reservedClaims db).erase claim).map fun other =>
    if other.apiKeyId = claim.apiKeyId then recoveredAmount db other.entryId else 0).sum

theorem storedCost_le (facts : AttemptFacts) : storedCost facts ≤ liveCost facts := by
  unfold storedCost liveCost
  split <;> split <;> simp_all

theorem storedCost_eq_iff (facts : AttemptFacts) : storedCost facts = liveCost facts ↔
    (facts.isComplete → facts.cost.totalKnown.val < 2 ^ 63) := by
  unfold storedCost liveCost
  by_cases hcomplete : facts.isComplete = true
  · by_cases hfits : facts.cost.totalKnown.val < 2 ^ 63
    · rw [if_pos ⟨hcomplete, hfits⟩, if_pos hcomplete]
      exact ⟨fun _ _ => hfits, fun _ => rfl⟩
    · rw [if_neg fun h => hfits h.2, if_pos hcomplete]
      exact ⟨fun h => by omega, fun h => absurd (h hcomplete) hfits⟩
  · simp [hcomplete]

/-- The stored costs miss exactly the complete costs that do not fit the column. -/
theorem sum_storedCost_eq_iff (attempts : List AttemptFacts) :
    (attempts.map storedCost).sum = (attempts.map liveCost).sum ↔
      ∀ facts ∈ attempts, facts.isComplete → facts.cost.totalKnown.val < 2 ^ 63 := by
  induction attempts with
  | nil => simp
  | cons facts attempts ih =>
    have hsum : (attempts.map storedCost).sum ≤ (attempts.map liveCost).sum :=
      sum_le_sum fun facts _ => storedCost_le facts
    have hfirst := storedCost_le facts
    rw [forall_mem_cons, ← storedCost_eq_iff facts, ← ih, map_cons, map_cons, sum_cons, sum_cons]
    omega

/-- Settling a request live charges its key the complete costs of its attempts.  Recovering it
instead charges, beside what the key's other waiting claims are recovered for, those of the
complete costs that fit the 64-bit column; the two agree exactly when all of them do. -/
theorem recovery_charges_stored_costs {dbLive dbRecovered : UsageDb} {recoveredAtMs : ℤ}
    {recovered : ℕ} (h : Unsettled start closed entry claim db)
    (hkey : (db.apiKeys.find? claim.apiKeyId).isSome)
    (hlive : recordQuotaLedgerEntry db entry = .ok dbLive)
    (hrecover : recoverQuotaReservations db recoveredAtMs = (.ok recovered, dbRecovered)) :
    let attempts := closed.map (·.facts start.requestId)
    spentOf dbLive claim.apiKeyId =
        spentOf db claim.apiKeyId + (attempts.map liveCost).sum ∧
      spentOf dbRecovered claim.apiKeyId =
        spentOf db claim.apiKeyId + (attempts.map storedCost).sum + otherClaimsAmount db claim ∧
      ((attempts.map storedCost).sum = (attempts.map liveCost).sum ↔
        ∀ facts ∈ attempts, facts.isComplete → facts.cost.totalKnown.val < 2 ^ 63) := by
  intro attempts
  obtain ⟨hid, howner, hamount⟩ := h.entry_spec
  have hrequest : claim.entryId = start.requestId := (Table.find?_eq_some.mp h.claim_found).2
  have hwaiting : claim ∈ reservedClaims db :=
    mem_reservedClaims.mpr ⟨(Table.find?_eq_some.mp h.claim_found).1, h.claim_reserved⟩
  refine ⟨?_, ?_, sum_storedCost_eq_iff attempts⟩
  · have hspent := recordQuotaLedgerEntry_spent (hid ▸ h.claim_found) h.claim_reserved
      (howner ▸ hkey) hlive
    rwa [howner, hamount] at hspent
  · have hspent := (recoverQuotaReservations_recovered hrecover).spent claim.apiKeyId hkey
    rw [hspent, ← sum_map_erase _ hwaiting, if_pos rfl, hrequest,
      h.written.recoveredAmount Unsettled.cost_nonneg, Nat.add_assoc]
    rfl

end Settlement

/-! ## Two runs -/

/-- What a request is charged live and what it is charged by recovery, from one database. -/
def settlements (start : LogicalRequestStart) (apiKeyId : String) (closed : List ClosedAttempt)
    (db₀ : UsageDb) : Option (ℕ × ℕ) := do
  let state ← closeAll start.requestId closed
  let entry ← (state.finish start 10).1.bind (·.quota)
  let db ← ((closed.map (·.facts start.requestId)).foldlM recordAttempt db₀).toOption
  let live ← (recordQuotaLedgerEntry db entry).toOption
  let (outcome, recovered) := recoverQuotaReservations db 20
  let _ ← outcome.toOption
  return (spentOf live apiKeyId, spentOf recovered apiKeyId)

/-- The first attempt of request `r1`: it metered `input` tokens, at a thousand dollars a
million. -/
def meteredAttempt (input : I64) : ClosedAttempt where
  attempt :=
    { attemptId := "r1#1"
      sequence := .lit 1 (Eq.refl true)
      spec := { uncachedSpec "1000" with provider := .codex }
      startedAtMs := 2
      catalogSnapshot := none
      state :=
        { evidence := .responseObserved
          rawUsage := some (some { input := some input })
          successTerminal := true } }
  closedAtMs := 5
  dispatched := rfl
  priced := ⟨some ⟨.manual, { input := some "1000" }⟩, rfl⟩

def claimedDb : UsageDb :=
  runOps (oneKeyDb "0") [.beginQuotaRequest (keyStart "r1"), .markQuotaRequestDispatched "r1" 1]

def smallAttempt : ClosedAttempt := meteredAttempt (.lit 3 (Eq.refl true))

def smallDb : UsageDb :=
  (recordAttempt claimedDb (smallAttempt.facts "r1")).toOption.getD claimedDb

def smallEntry : QuotaLedgerEntry :=
  quotaEntry (keyStart "r1") ((closeAll "r1" [smallAttempt]).getD {}) 10

def smallClaim : LedgerRow := ⟨"r1", "key", "0", none, .reserved, 0, none, some 1⟩

theorem recovery_charges_stored_costs_small :
    Unsettled (keyStart "r1") [smallAttempt] smallEntry smallClaim smallDb ∧
      spentOf ((recordQuotaLedgerEntry smallDb smallEntry).toOption.getD smallDb) "key" =
        300000000000 ∧
      spentOf (recoverQuotaReservations smallDb 20).2 "key" = 300000000000 := by
  have hnil : Written claimedDb "r1" [] := ⟨[], by decide, .nil⟩
  have hfresh : claimedDb.attempts.find? (smallAttempt.facts "r1").attemptId = none := by decide
  have hrecord : recordAttempt claimedDb (smallAttempt.facts "r1") = .ok smallDb := by decide
  have hunsettled : Unsettled (keyStart "r1") [smallAttempt] smallEntry smallClaim smallDb :=
    { entry_eq := ⟨(closeAll "r1" [smallAttempt]).getD {}, 10, by decide, by decide⟩
      written := @Written.recordAttempt _ _ [] (smallAttempt.facts "r1") hnil hfresh hrecord
      claim_found := by decide
      claim_reserved := rfl
      claim_key := rfl }
  have hlive : recordQuotaLedgerEntry smallDb smallEntry =
      .ok ((recordQuotaLedgerEntry smallDb smallEntry).toOption.getD smallDb) := by decide
  have hrecover : recoverQuotaReservations smallDb 20 =
      (.ok 1, (recoverQuotaReservations smallDb 20).2) := by decide
  obtain ⟨hspent, hrecovered, -⟩ :=
    recovery_charges_stored_costs hunsettled (by decide) hlive hrecover
  exact ⟨hunsettled, hspent.trans (by decide), hrecovered.trans (by decide)⟩

/-- A complete cost of `10 ^ 19` atoms is settled live and dropped by recovery. -/
theorem recovery_undercharges :
    settlements (keyStart "r1") "key" [meteredAttempt (.lit 100000000 (Eq.refl true))]
      claimedDb = some (10000000000000000000, 0) := by
  decide

end ProviderCore.Storage
