import ProviderCore.Storage.InFlight
import ProviderCore.Storage.Recovery

/-!
# Recovery at startup

Startup first resolves the reserved claims and then discards the requests in progress, which takes
their attempts along; the claims are priced from those attempts, so the order matters.  Both work
in batches.

`Consistent` is what the tables say in every state a crash can leave: amounts are amounts, and a
complete cost is not negative, as no tracker prices one so (`Consistent.history`).  From there
recovery succeeds unless a spend would need more than 64 digits, and `NothingLost` says what it
has done when it succeeds.
-/

namespace ProviderCore.Storage

open Usage Auth Relation List

variable {db db' db₁ : UsageDb} {nowMs : ℤ}

/-! ## What recovery of claims leaves alone -/

/-- Only keys and claims differ. -/
structure SameFacts (db db' : UsageDb) : Prop where
  requests : db'.requests = db.requests
  attempts : db'.attempts = db.attempts
  billable : db'.billable = db.billable
  gaps : db'.gaps = db.gaps

theorem SameFacts.refl (db : UsageDb) : SameFacts db db := ⟨rfl, rfl, rfl, rfl⟩

theorem SameFacts.trans (h : SameFacts db db₁) (h' : SameFacts db₁ db') : SameFacts db db' :=
  ⟨h'.requests.trans h.requests, h'.attempts.trans h.attempts, h'.billable.trans h.billable,
    h'.gaps.trans h.gaps⟩

variable {apiKeyId atoms : String}

theorem addApiKeySpend_sameFacts
    (h : addApiKeySpend db apiKeyId atoms = .ok db') : SameFacts db db' := by
  unfold addApiKeySpend at h
  split at h
  · cases h
    exact .refl db
  · split at h
    · cases h
    · cases h
      exact ⟨rfl, rfl, rfl, rfl⟩

variable {claim : LedgerRow}

theorem recoverClaim_sameFacts (h : recoverClaim nowMs db claim = .ok db') : SameFacts db db' := by
  rcases recoverClaim_ok h with rfl | ⟨atoms, h⟩
  · exact ⟨rfl, rfl, rfl, rfl⟩
  · have hpaid := addApiKeySpend_sameFacts h
    exact ⟨hpaid.requests, hpaid.attempts, hpaid.billable, hpaid.gaps⟩

/-! ## States a crash can leave -/

/-- Spends are amounts and complete costs are not negative. -/
structure Consistent (db : UsageDb) : Prop where
  spent : ∀ key ∈ db.apiKeys.rows, ValidAtoms key.spentAtoms
  costs : ∀ attempt ∈ db.attempts.rows,
    attempt.row.costStatus = "complete_for_observed_catalog_components" →
      ∀ atoms ∈ attempt.row.costAtoms, 0 ≤ atoms.val

/-- A charge leaves an amount. -/
theorem Consistent.addApiKeySpend
    (h : addApiKeySpend db apiKeyId atoms = .ok db') (hdb : Consistent db) : Consistent db' := by
  refine ⟨fun key hkey => ?_, (addApiKeySpend_sameFacts h).attempts ▸ hdb.costs⟩
  unfold Storage.addApiKeySpend at h
  split at h
  · cases h
    exact hdb.spent key hkey
  · split at h
    · cases h
    · next next hadd =>
        cases h
        obtain ⟨old, hold, rfl⟩ := mem_map.mp hkey
        split
        · exact (addAtoms_eq_ok hadd).2.2.1
        · exact hdb.spent old hold

theorem Consistent.resolves {atMs : ℤ} (hdb : Consistent db)
    (h : Resolves db claim atMs db') : Consistent db' := by
  rcases h with rfl | ⟨atoms, h⟩
  · exact ⟨hdb.spent, hdb.costs⟩
  · exact Consistent.addApiKeySpend h ⟨hdb.spent, hdb.costs⟩

theorem Consistent.recoverClaim (hdb : Consistent db)
    (h : recoverClaim nowMs db claim = .ok db') : Consistent db' :=
  hdb.resolves (recoverClaim_ok h)

/-! ## When a claim can be recovered -/

/-- A complete attempt has a cost in its row. -/
theorem isSome_costAtoms (attempt : StoredAttempt)
    (h : attempt.row.costStatus = "complete_for_observed_catalog_components") :
    attempt.row.costAtoms.isSome := by
  rw [Option.isSome_iff_ne_none]
  intro hnone
  have hunavailable := attempt.checks.unavailableHasNoCost.mpr hnone
  rw [h] at hunavailable
  exact absurd hunavailable (by decide)

theorem exists_mapM_id {α : Type} {P : α → Prop} {l : List (Option α)}
    (h : ∀ x ∈ l, ∃ a, x = some a ∧ P a) :
    ∃ values, l.mapM id = some values ∧ ∀ a ∈ values, P a := by
  induction l with
  | nil => exact ⟨[], rfl, by simp⟩
  | cons x _ ih =>
    obtain ⟨a, rfl, ha⟩ := h x mem_cons_self
    obtain ⟨values, hvalues, hall⟩ := ih fun y hy => h y (mem_cons_of_mem _ hy)
    refine ⟨a :: values, ?_, forall_mem_cons.mpr ⟨ha, hall⟩⟩
    simp [mapM_cons, hvalues]

/-- The costs that recovery reads are there and not negative. -/
theorem Consistent.recordedCosts (hdb : Consistent db) (requestId : String) :
    ∃ costs : List I64, (recordedCosts db requestId).mapM id = some costs ∧
      ∀ cost ∈ costs, 0 ≤ cost.val := by
  have hall : ∀ cost ∈ Storage.recordedCosts db requestId, ∃ atoms : I64, cost = some atoms ∧
      0 ≤ atoms.val := by
    intro cost hcost
    obtain ⟨attempt, hattempt, rfl⟩ := mem_map.mp hcost
    rw [mem_insertionSort, mem_filter, decide_eq_true_eq] at hattempt
    obtain ⟨atoms, hatoms⟩ :=
      Option.isSome_iff_exists.mp (isSome_costAtoms attempt hattempt.2.2)
    exact ⟨atoms, hatoms, hdb.costs attempt hattempt.1 hattempt.2.2 atoms hatoms⟩
  exact exists_mapM_id hall

variable {costs : List I64}

/-- Amounts that each step adds exactly are added up exactly. -/
theorem foldlM_amounts {f : String → I64 → Except UsageRepositoryError String}
    (hstep : ∀ (n : ℕ) (cost : I64), 0 ≤ cost.val → n + cost.val.toNat < 10 ^ 64 →
      f (toString n) cost = .ok (toString (n + cost.val.toNat)))
    (hnonneg : ∀ cost ∈ costs, 0 ≤ cost.val) {n : ℕ}
    (hfits : n + (costs.map (·.val.toNat)).sum < 10 ^ 64) :
    costs.foldlM f (toString n) = .ok (toString (n + (costs.map (·.val.toNat)).sum)) := by
  induction costs generalizing n with
  | nil => rfl
  | cons cost _ ih =>
    rw [forall_mem_cons] at hnonneg
    rw [map_cons, sum_cons, ← Nat.add_assoc] at hfits ⊢
    rw [foldlM_cons, hstep n cost hnonneg.1 (by omega)]
    exact ih hnonneg.2 hfits

/-- Costs that are not negative are added up exactly, in 64 digits. -/
theorem sumCosts_eq_ok (hnonneg : ∀ cost ∈ costs, 0 ≤ cost.val)
    (hfits : (costs.map (·.val.toNat)).sum < 10 ^ 64) :
    sumCosts costs = .ok (toString (costs.map (·.val.toNat)).sum) := by
  rw [← Nat.zero_add (costs.map (·.val.toNat)).sum] at hfits ⊢
  refine foldlM_amounts (fun n cost hcost hbound => ?_) hnonneg hfits
  rw [toString_of_nonneg hcost, addAtoms_toString hbound]

/-- What a key is charged for claims. -/
def claimsAmount (db : UsageDb) (claims : List LedgerRow) (apiKeyId : String) : ℕ :=
  (claims.map fun claim =>
    if claim.apiKeyId = apiKeyId then recoveredAmount db claim.entryId else 0).sum

/-- No recovered amount and no spend needs more than 64 digits. -/
structure Fits (db : UsageDb) (claims : List LedgerRow) : Prop where
  amounts : ∀ claim ∈ claims, recoveredAmount db claim.entryId < 10 ^ 64
  spends : ∀ apiKeyId, (db.apiKeys.find? apiKeyId).isSome →
    spentOf db apiKeyId + claimsAmount db claims apiKeyId < 10 ^ 64

theorem exists_addApiKeySpend (hdb : Consistent db)
    (hatoms : ValidAtoms atoms) (hfits : (db.apiKeys.find? apiKeyId).isSome →
      spentOf db apiKeyId + atomsValue atoms < 10 ^ 64) :
    ∃ db', addApiKeySpend db apiKeyId atoms = .ok db' := by
  unfold addApiKeySpend
  rcases hkey : db.apiKeys.find? apiKeyId with _ | key
  · exact ⟨db, rfl⟩
  · have hspent : spentOf db apiKeyId = atomsValue key.spentAtoms := by simp [spentOf, hkey]
    have hvalid := hdb.spent key (Table.find?_eq_some.mp hkey).1
    obtain ⟨_, hnext⟩ := exists_addAtoms hvalid hatoms
      (hspent ▸ hfits (by rw [hkey]; rfl))
    simp only [hnext]
    exact ⟨_, rfl⟩

theorem exists_recoverClaim (hdb : Consistent db) (hfits : Fits db [claim]) :
    ∃ db', recoverClaim nowMs db claim = .ok db' := by
  obtain ⟨_, hcosts, hnonneg⟩ := hdb.recordedCosts claim.entryId
  have hsum := sum_recordedCosts hcosts
  have hamount := hfits.amounts claim mem_cons_self
  unfold recoverClaim
  simp only [hcosts]
  split_ifs
  · exact ⟨_, rfl⟩
  · rw [sumCosts_eq_ok hnonneg (hsum ▸ hamount), hsum]
    have hvalid := validAtoms_toString hamount
    simp only [bind, Except.bind, settleClaim, hvalid, not_true_eq_false, if_false]
    refine exists_addApiKeySpend ⟨hdb.spent, hdb.costs⟩ hvalid fun hkey => ?_
    have hspend := hfits.spends claim.apiKeyId hkey
    show spentOf db claim.apiKeyId + atomsValue (toString _) < 10 ^ 64
    rw [atomsValue_toString]
    simpa [claimsAmount] using hspend

variable {claims claims' : List LedgerRow}

theorem Fits.sublist (h : Fits db claims) (hsub : claims'.Sublist claims) : Fits db claims' := by
  refine ⟨fun claim hclaim => h.amounts claim (hsub.subset hclaim), fun apiKeyId hkey => ?_⟩
  have hle : claimsAmount db claims' apiKeyId ≤ claimsAmount db claims apiKeyId :=
    (hsub.map _).sum_le_sum fun _ _ => Nat.zero_le _
  have hspend := h.spends apiKeyId hkey
  omega

/-- What is left to recover still fits: what was recovered went into the spends. -/
theorem Fits.rest {claims rest : List LedgerRow} (h : Fits db (claims ++ rest))
    (hdone : Recovered db db' claims) : Fits db' rest := by
  have hamount := recoveredAmount_congr hdone.attempts
  refine ⟨fun claim hclaim => ?_, fun apiKeyId hkey => ?_⟩
  · rw [hamount]
    exact h.amounts claim (mem_append_right _ hclaim)
  · have hkey' : (db.apiKeys.find? apiKeyId).isSome := hdone.keys apiKeyId ▸ hkey
    have hspend := h.spends apiKeyId hkey'
    rw [hdone.spent apiKeyId hkey']
    simp only [claimsAmount, map_append, sum_append, hamount] at hspend ⊢
    omega

theorem Fits.perm (h : Fits db claims) (hperm : claims.Perm claims') : Fits db claims' := by
  refine ⟨fun claim hclaim => h.amounts claim (hperm.mem_iff.mpr hclaim), fun apiKeyId hkey => ?_⟩
  have hsame : claimsAmount db claims' apiKeyId = claimsAmount db claims apiKeyId :=
    ((hperm.map _).sum_eq).symm
  rw [hsame]
  exact h.spends apiKeyId hkey

theorem exists_recoverFold {claims : List LedgerRow} (hdb : Consistent db) (hnodup : claims.Nodup)
    (hclaims : ∀ claim ∈ claims, claim ∈ reservedClaims db) (hfits : Fits db claims) :
    ∃ db', claims.foldlM (recoverClaim nowMs) db = .ok db' := by
  induction claims generalizing db with
  | nil => exact ⟨db, rfl⟩
  | cons claim claims ih =>
    obtain ⟨db₁, hone⟩ := @exists_recoverClaim db nowMs claim hdb
      (hfits.sublist (by simp))
    have hfirst := recoverClaim_recovered (hclaims claim mem_cons_self) hone
    rw [nodup_cons] at hnodup
    obtain ⟨db', hrest⟩ := ih (hdb.recoverClaim hone) hnodup.2
      (fun other hother => (hfirst.waiting other).mpr
        ⟨hclaims other (mem_cons_of_mem _ hother), fun hmem =>
          hnodup.1 (mem_singleton.mp hmem ▸ hother)⟩)
      (@Fits.rest db db₁ [claim] claims hfits hfirst)
    refine ⟨db', ?_⟩
    rw [foldlM_cons, hone]
    exact hrest

theorem exists_recoverLoop {fuel total : ℕ} (hdb : Consistent db)
    (hfits : Fits db (reservedClaims db)) (hfuel : (reservedClaims db).length < fuel) :
    ∃ recovered db', recoverLoop nowMs fuel total db = (.ok recovered, db') := by
  induction fuel generalizing db total with
  | zero => exact absurd hfuel (Nat.not_lt_zero _)
  | succ _ ih =>
    have hbatch : (reservedClaims db).take recoveryBatch |>.Sublist (reservedClaims db) :=
      take_sublist _ _
    obtain ⟨db₁, hfold⟩ := @exists_recoverFold db nowMs _ hdb ((nodup_waiting db).sublist hbatch)
      (fun _ => mem_of_mem_take) (hfits.sublist hbatch)
    have hone : recoverClaims nowMs db =
        .ok (((reservedClaims db).take recoveryBatch).length, db₁) := by
      rw [recoverClaims, hfold]
      rfl
    have hdone := (recoverClaims_recovered hone).2
    have hperm := hdone.reservedClaims_perm ((nodup_waiting db).sublist hbatch)
      (fun _ => mem_of_mem_take)
    unfold recoverLoop
    simp only [hone]
    split_ifs with hzero hshort
    · exact ⟨_, _, rfl⟩
    · exact ⟨_, _, rfl⟩
    · refine ih (recoverClaims_induction (fun hdb _ => hdb.recoverClaim) hdb hone)
        ((hfits.perm hperm.symm).rest hdone) ?_
      have hlength := hperm.length_eq
      rw [length_append] at hlength
      omega

/-! ## What a claim is resolved to -/

/-- The claim is resolved for the costs that were recorded for it. -/
def ResolvedFor (db db' : UsageDb) (claim : LedgerRow) : Prop :=
  ∃ row, db'.ledger.find? claim.entryId = some row ∧ row.apiKeyId = claim.apiKeyId ∧
    row.state ≠ .reserved ∧ settledCost row = recoveredAmount db claim.entryId

theorem recoverClaim_resolvedFor (hwait : Waiting db claim)
    (h : recoverClaim nowMs db claim = .ok db') : ResolvedFor db db' claim := by
  unfold recoverClaim at h
  rcases hcosts : (recordedCosts db claim.entryId).mapM id with _ | costs
  · simp [hcosts] at h
  have hamount := sum_recordedCosts hcosts
  simp only [hcosts] at h
  by_cases hnil : costs = []
  · rw [if_pos hnil] at h
    cases h
    refine ⟨claim.release nowMs, ?_, rfl, by simp [LedgerRow.release], ?_⟩
    · rw [releaseClaim, Table.find?_modify_self, hwait.1]
      rfl
    · rw [← hamount, hnil]
      rfl
  · rw [if_neg hnil, Fold.bind_eq_ok] at h
    obtain ⟨text, hsum, hsettle⟩ := h
    unfold settleClaim at hsettle
    split at hsettle
    · cases hsettle
    · refine ⟨claim.settle text nowMs, ?_, rfl, by simp [LedgerRow.settle], ?_⟩
      · rw [(addApiKeySpend_ok hsettle).ledger, Table.find?_modify_self, hwait.1]
        rfl
      · rw [← hamount, ← sumCosts_ok hsum]
        rfl

/-- Through a recovery every claim that waited at its start still waits or is resolved for its
recorded costs. -/
structure Recovering (db db₁ : UsageDb) : Prop where
  facts : SameFacts db db₁
  claims : ∀ claim, Waiting db claim → Waiting db₁ claim ∨ ResolvedFor db db₁ claim

theorem Recovering.recoverClaim (h : Recovering db db₁)
    (hwait : Waiting db₁ claim) (hone : recoverClaim nowMs db₁ claim = .ok db') :
    Recovering db db' := by
  refine ⟨h.facts.trans (recoverClaim_sameFacts hone), fun other hother => ?_⟩
  rcases h.claims other hother with hstill | ⟨row, hrow, hkey, hstate, hcost⟩
  · by_cases hid : claim.entryId = other.entryId
    · have hsame : claim = other := by
        have hfound := hwait.1
        rw [hid, hstill.1] at hfound
        exact (Option.some.inj hfound).symm
      subst hsame
      obtain ⟨row, hrow, hkey, hstate, hcost⟩ := recoverClaim_resolvedFor hwait hone
      rw [recoveredAmount_congr h.facts.attempts] at hcost
      exact .inr ⟨row, hrow, hkey, hstate, hcost⟩
    · exact .inl (recoverClaim_waiting hid hstill hone)
  · -- A resolved row is not touched again.
    have hid : row.entryId = other.entryId := (Table.find?_eq_some.mp hrow).2
    have hposting : Posting (fun _ => True) db₁ db' := recoverClaim_posting hwait hone
    have hkept := hposting.find?_resolved (hid ▸ hrow) hstate
    exact .inr ⟨row, hid ▸ hkept, hkey, hstate, hcost⟩

theorem recoverQuotaReservations_recovering (db : UsageDb) (nowMs : ℤ) :
    Recovering db (recoverQuotaReservations db nowMs).2 :=
  recoverLoop_induction (fun h hwait hone => h.recoverClaim hwait hone)
    ⟨.refl db, fun _ => .inl⟩

/-! ## Startup -/

/-- What startup leaves of the tables a crash left. -/
structure NothingLost (usageNowMs : ℤ) (db db' : UsageDb) : Prop where
  noClaim : reservedClaims db' = []
  noRequest : inFlightRequests db' = []
  /-- Every claim that was reserved is resolved for its recorded complete costs. -/
  resolved : ∀ claim ∈ reservedClaims db, ResolvedFor db db' claim
  /-- A claim that was resolved is as it was. -/
  settled : ∀ claim ∈ db.ledger.rows, claim.state ≠ .reserved →
    db'.ledger.find? claim.entryId = some claim
  /-- A key is charged for its reserved claims, each once, and for nothing else. -/
  spent : ∀ apiKeyId, (db.apiKeys.find? apiKeyId).isSome →
    (db'.apiKeys.find? apiKeyId).isSome ∧
      spentOf db' apiKeyId = spentOf db apiKeyId + claimsAmount db (reservedClaims db) apiKeyId
  /-- An owner's counter grows by the number of the owner's discarded requests. -/
  gaps : ∀ owner, Tally.count db'.gaps (recoveredGapKey usageNowMs owner) =
    Tally.count db.gaps (recoveredGapKey usageNowMs owner) +
      (inFlightRequests db).countP fun row => row.ownerUserId = owner
  otherGaps : ∀ key, (∀ owner, recoveredGapKey usageNowMs owner ≠ key) →
    Tally.count db'.gaps key = Tally.count db.gaps key
  requests : db'.requests.rows = db.requests.rows.filter fun row => row.logicalStatus ≠ .inProgress
  /-- A request that is left has its attempts, and they their observations. -/
  attempts : ∀ row ∈ db'.requests.rows, ∀ attempt ∈ db.attempts.rows,
    attempt.row.logicalRequestId = row.requestId → attempt ∈ db'.attempts.rows ∧
      ∀ billable ∈ db.billable.rows, billable.attemptId = attempt.id →
        billable ∈ db'.billable.rows
  again : ∀ quotaNowMs usageNowMs, recoverAtStartup db' quotaNowMs usageNowMs = (.ok (0, 0), db')

/-- A stored request is in progress exactly if its id is one of a request in progress. -/
theorem mem_inFlightIds {row : LogicalRequestRow} (hrow : row ∈ db.requests.rows) :
    row.requestId ∈ (inFlightRequests db).map LogicalRequestRow.requestId ↔
      row.logicalStatus = .inProgress := by
  constructor
  · intro hid
    obtain ⟨_, hother, hsame⟩ := mem_map.mp hid
    obtain ⟨hstored, hstatus⟩ := mem_inFlightRequests.mp hother
    rwa [inj_on_of_nodup_map db.requests.nodup hstored hrow hsame] at hstatus
  · intro hstatus
    exact mem_map_of_mem (mem_inFlightRequests.mpr ⟨hrow, hstatus⟩)

section Discarded

variable (h : Discarded nowMs db db' (inFlightRequests db))

include h

theorem Discarded.requests_filter :
    db'.requests.rows = db.requests.rows.filter fun row => row.logicalStatus ≠ .inProgress := by
  rw [h.requests]
  exact filter_congr fun row hrow => decide_eq_decide.mpr (not_congr (mem_inFlightIds hrow))

theorem Discarded.inFlightRequests_eq_nil : inFlightRequests db' = [] := by
  refine eq_nil_iff_forall_not_mem.mpr fun row hrow => ?_
  obtain ⟨hstored, hstatus⟩ := Storage.mem_inFlightRequests.mp hrow
  rw [h.requests_filter, mem_filter, decide_eq_true_eq] at hstored
  exact hstored.2 hstatus

theorem Discarded.attempts_kept {row : LogicalRequestRow} (hrow : row ∈ db'.requests.rows)
    {attempt : StoredAttempt} (hattempt : attempt ∈ db.attempts.rows)
    (hof : attempt.row.logicalRequestId = row.requestId) :
    attempt ∈ db'.attempts.rows ∧ ∀ billable ∈ db.billable.rows,
      billable.attemptId = attempt.id → billable ∈ db'.billable.rows := by
  rw [h.requests, mem_filter, decide_eq_true_eq, ← hof] at hrow
  refine ⟨?_, fun billable hbillable hid => ?_⟩
  · rw [h.attempts, mem_filter, decide_eq_true_eq]
    exact ⟨hattempt, hrow.2⟩
  · rw [h.billable, mem_filter, decide_eq_true_eq, mem_attemptsOf]
    refine ⟨hbillable, ?_⟩
    rintro ⟨_, hother, hdiscarded, hsame⟩
    have heq := inj_on_of_nodup_map db.attempts.nodup hother hattempt (hsame.trans hid)
    exact hrow.2 (heq ▸ hdiscarded)

theorem Discarded.count_gaps (owner : String) :
    Tally.count db'.gaps (recoveredGapKey nowMs owner) =
      Tally.count db.gaps (recoveredGapKey nowMs owner) +
        (inFlightRequests db).countP fun row => row.ownerUserId = owner := by
  rw [h.gaps]
  simp only [recoveredGapKey_inj, countP_eq_length_filter]
  refine congrArg (Tally.count db.gaps (recoveredGapKey nowMs owner) + ·) ?_
  induction inFlightRequests db with
  | nil => rfl
  | cons row _ ih =>
    by_cases howner : row.ownerUserId = owner
    · simp [howner, ih, Nat.add_comm]
    · simp [howner, ih]

end Discarded

/-- With nothing reserved and nothing in progress, startup does nothing. -/
theorem recoverAtStartup_nil (hclaims : reservedClaims db = [])
    (hrequests : inFlightRequests db = []) (quotaNowMs usageNowMs : ℤ) :
    recoverAtStartup db quotaNowMs usageNowMs = (.ok (0, 0), db) := by
  have hquota : recoverQuotaReservations db quotaNowMs = (.ok 0, db) := by
    simp [recoverQuotaReservations, recoverLoop, recoverClaims, hclaims, bind, Except.bind, pure,
      Except.pure]
  have husage : recoverInFlightRequests db usageNowMs = (0, db) := by
    simp [recoverInFlightRequests, discardLoop, discardInFlight, hrequests]
  rw [recoverAtStartup, hquota]
  simp only [husage]

variable {quotaNowMs usageNowMs : ℤ} {recovered : ℕ × ℕ}

theorem exists_recoverAtStartup (hdb : Consistent db) (hfits : Fits db (reservedClaims db)) :
    ∃ recovered db', recoverAtStartup db quotaNowMs usageNowMs = (.ok recovered, db') := by
  obtain ⟨claims, db₁, hquota⟩ :
      ∃ claims db₁, recoverQuotaReservations db quotaNowMs = (.ok claims, db₁) :=
    exists_recoverLoop hdb hfits (Nat.lt_succ_self _)
  rw [recoverAtStartup, hquota]
  exact ⟨_, _, rfl⟩

/-- A startup that succeeds is a recovery of the claims and then a discarding of the requests. -/
theorem recoverAtStartup_ok (h : recoverAtStartup db quotaNowMs usageNowMs = (.ok recovered, db')) :
    ∃ claims, recoverQuotaReservations db quotaNowMs =
        (.ok claims, (recoverQuotaReservations db quotaNowMs).2) ∧
      db' = (recoverInFlightRequests (recoverQuotaReservations db quotaNowMs).2 usageNowMs).2 := by
  unfold recoverAtStartup at h
  split at h
  · cases h
  · next claims db₁ hquota =>
      cases h
      rw [hquota]
      exact ⟨claims, rfl, rfl⟩

theorem recoverAtStartup_nothingLost
    (h : recoverAtStartup db quotaNowMs usageNowMs = (.ok recovered, db')) :
    NothingLost usageNowMs db db' := by
  obtain ⟨_, hquota, rfl⟩ := recoverAtStartup_ok h
  have hkept := (@runOps_keeps (fun _ => True) db [.recoverQuotaReservations quotaNowMs]
    (by simp [UsageOp.OpensBy])).2
  change ∀ claim, _ → _ → (recoverQuotaReservations db quotaNowMs).2.ledger.find? _ = _ at hkept
  have hdone := recoverQuotaReservations_recovered hquota
  have hclaims := recoverQuotaReservations_recovering db quotaNowMs
  generalize (recoverQuotaReservations db quotaNowMs).2 = db₁ at hkept hdone hclaims
  obtain ⟨-, hdiscarded⟩ := recoverInFlightRequests_discarded db₁ usageNowMs
  generalize (recoverInFlightRequests db₁ usageNowMs).2 = db' at hdiscarded
  have hinFlight : inFlightRequests db₁ = inFlightRequests db := by
    rw [inFlightRequests, hclaims.facts.requests, ← inFlightRequests]
  have hnone : reservedClaims db₁ = [] :=
    eq_nil_iff_forall_not_mem.mpr fun claim hclaim =>
      ((hdone.waiting claim).mp hclaim).2 ((hdone.waiting claim).mp hclaim).1
  have hnoClaim : reservedClaims db' = [] := by
    rw [← hnone, reservedClaims, hdiscarded.ledger, ← reservedClaims]
  exact
    { noClaim := hnoClaim
      noRequest := hdiscarded.inFlightRequests_eq_nil
      resolved := fun claim hclaim => by
        obtain ⟨hrow, hstate⟩ := mem_reservedClaims.mp hclaim
        rcases hclaims.claims claim ⟨Table.find?_eq_some.mpr ⟨hrow, rfl⟩, hstate⟩ with
          hwait | hresolved
        · have hmem := mem_reservedClaims.mpr ⟨(Table.find?_eq_some.mp hwait.1).1, hwait.2⟩
          rw [hnone] at hmem
          exact absurd hmem not_mem_nil
        · rwa [ResolvedFor, hdiscarded.ledger]
      settled := fun claim hrow hstate => by
        rw [hdiscarded.ledger]
        exact hkept claim (Table.find?_eq_some.mpr ⟨hrow, rfl⟩) hstate
      spent := fun apiKeyId hkey => by
        rw [spentOf, hdiscarded.apiKeys]
        exact ⟨hdone.keys apiKeyId ▸ hkey, hdone.spent apiKeyId hkey⟩
      gaps := fun owner => by
        rw [hdiscarded.count_gaps, hclaims.facts.gaps, hinFlight]
      otherGaps := fun key hkey => by
        rw [hdiscarded.gaps, hclaims.facts.gaps]
        simp [hkey]
      requests := by rw [hdiscarded.requests_filter, hclaims.facts.requests]
      attempts := fun row hrow attempt hattempt hof => by
        rw [← hclaims.facts.attempts] at hattempt
        rw [← hclaims.facts.billable]
        exact hdiscarded.attempts_kept hrow hattempt hof
      again := recoverAtStartup_nil hnoClaim hdiscarded.inFlightRequests_eq_nil }

/-! ## Every state a crash can leave is consistent -/

/-- The costs an operation records are not negative.  A tracker's never are. -/
def UsageOp.PricesUp : UsageOp → Prop
  | .recordAttempt facts => 0 ≤ facts.cost.totalKnown.val
  | _ => True

section

variable (hdb : Consistent db)

include hdb

theorem Consistent.of_tables (hkeys : db'.apiKeys = db.apiKeys)
    (hattempts : ∀ attempt ∈ db'.attempts.rows, attempt ∈ db.attempts.rows) : Consistent db' :=
  ⟨hkeys ▸ hdb.spent, fun attempt hattempt => hdb.costs attempt (hattempts attempt hattempt)⟩

theorem Consistent.recordAttempt {facts : AttemptFacts}
    (hcost : 0 ≤ facts.cost.totalKnown.val) (h : recordAttempt db facts = .ok db') :
    Consistent db' := by
  rcases hfound : db.attempts.find? facts.attemptId with _ | known
  · obtain ⟨-, revision, -, hchecks, -, -, billable, -, hcharge⟩ :=
      (recordAttempt_eq_ok_of_fresh hfound).mp h
    have hinserted : Consistent
        { db with
          attempts := db.attempts.insertNew ⟨attemptRow facts revision, hchecks⟩
          billable := billable } := by
      refine ⟨hdb.spent, fun attempt hattempt hstatus atoms hatoms => ?_⟩
      rcases Table.mem_insertNew hattempt with hold | ⟨rfl, -⟩
      · exact hdb.costs attempt hold hstatus atoms hatoms
      · have hcomplete : (storableCost facts.cost).status =
            .completeForObservedCatalogComponents := by
          change costStatusStr (storableCost facts.cost).status = _ at hstatus
          revert hstatus
          cases (storableCost facts.cost).status <;> decide
        rw [← (storableCost_complete.mp ⟨hcomplete, hatoms⟩).2]
        exact hcost
    unfold chargeAttempt at hcharge
    split at hcharge
    · exact Consistent.addApiKeySpend hcharge hinserted
    · cases hcharge
      exact hinserted
  · rw [recordAttempt_known (by simp [hfound]) h]
    exact hdb

theorem Consistent.exec {op : UsageOp} (hop : op.PricesUp) : Consistent (op.exec db) := by
  by_cases hrecord : ∃ facts, op = .recordAttempt facts
  · obtain ⟨facts, rfl⟩ := hrecord
    exact commit_induction hdb fun db' h => hdb.recordAttempt hop h
  · exact UsageOp.exec_induction hdb (fun _ _ hdb => ⟨hdb.spent, hdb.costs⟩)
      Consistent.addApiKeySpend fun facts heq => hrecord ⟨facts, heq⟩

/-- A discarding transaction, whole or the last one before a crash, only takes attempts away. -/
theorem Consistent.discardInFlight (nowMs : ℤ) : Consistent (discardInFlight nowMs db).2 := by
  obtain ⟨-, hdiscarded⟩ := discardInFlight_discarded nowMs db
  refine hdb.of_tables hdiscarded.apiKeys fun attempt hattempt => ?_
  rw [hdiscarded.attempts] at hattempt
  exact mem_of_mem_filter hattempt

end

/-- The facts of a tracked attempt are priced by its price record, so recording them prices
nothing below zero. -/
theorem pricesUp_attemptFacts (requestId : String) {attempt : AttemptTracker} (closedAtMs : ℤ)
    {pricing : Option ProviderModelPricingRecord}
    (hprice : attempt.spec.price = modelPriceResolution pricing) :
    (UsageOp.recordAttempt (attemptFacts requestId attempt closedAtMs)).PricesUp := by
  refine attemptFacts_cost_nonneg requestId closedAtMs ?_
  rw [hprice]
  exact modelPriceResolution_nonneg pricing

/-- The database after operations and single discarding transactions of startups.  A crash at any
moment, startup itself included, leaves such a state. -/
def history (db : UsageDb) (steps : List (UsageOp ⊕ ℤ)) : UsageDb :=
  steps.foldl (fun db => Sum.elim (UsageOp.exec db) fun nowMs => (discardInFlight nowMs db).2) db

/-- What is recorded are the facts of trackers, priced by the records of their models. -/
def Tracked (steps : List (UsageOp ⊕ ℤ)) : Prop :=
  ∀ facts, .inl (.recordAttempt facts) ∈ steps → ∃ requestId closedAtMs, ∃ attempt : AttemptTracker,
    facts = attemptFacts requestId attempt closedAtMs ∧
      ∃ pricing, attempt.spec.price = modelPriceResolution pricing

theorem Consistent.history (hdb : Consistent db) {steps : List (UsageOp ⊕ ℤ)}
    (hsteps : Tracked steps) : Consistent (history db steps) := by
  refine foldlRecOn steps _ hdb fun db hdb step hstep => ?_
  cases step with
  | inr nowMs => exact hdb.discardInFlight nowMs
  | inl op =>
    refine hdb.exec ?_
    cases op with
    | recordAttempt facts =>
      obtain ⟨requestId, closedAtMs, attempt, rfl, pricing, hprice⟩ := hsteps facts hstep
      exact pricesUp_attemptFacts requestId closedAtMs hprice
    | _ => trivial

/-- Startup recovery loses nothing: whatever it finds, once it succeeds it has resolved every
reserved claim for its recorded complete costs, charged each key for exactly those, discarded
exactly the requests in progress, counted them for their owners, and has nothing left to do.  It
does succeed on consistent tables, unless an amount would need more than 64 digits. -/
theorem startup_loses_nothing (db : UsageDb) (quotaNowMs usageNowMs : ℤ) :
    (∀ recovered db', recoverAtStartup db quotaNowMs usageNowMs = (.ok recovered, db') →
      NothingLost usageNowMs db db') ∧
    (Consistent db → Fits db (reservedClaims db) →
      ∃ recovered db', recoverAtStartup db quotaNowMs usageNowMs = (.ok recovered, db')) :=
  ⟨fun _ _ h => recoverAtStartup_nothingLost h, exists_recoverAtStartup⟩

/-- A crash after an attempt was recorded: startup settles the claim, and discards and counts the
request. -/
theorem startup_loses_nothing_small :
    recoverAtStartup smallDb 20 20 = (.ok (1, 1), (recoverAtStartup smallDb 20 20).2) ∧
      NothingLost 20 smallDb (recoverAtStartup smallDb 20 20).2 ∧
      spentOf (recoverAtStartup smallDb 20 20).2 "key" = 300000000000 ∧
      Tally.count (recoverAtStartup smallDb 20 20).2.gaps (recoveredGapKey 20 "user") = 1 := by
  have hrun : recoverAtStartup smallDb 20 20 =
      (.ok (1, 1), (recoverAtStartup smallDb 20 20).2) := by
    decide
  exact ⟨hrun, (startup_loses_nothing smallDb 20 20).1 _ _ hrun, by decide, by decide⟩

/-! ## Crashes -/

/-- Wherever the service crashes, and however often, it comes up again: from consistent tables,
after anything that trackers record and any part of earlier startups, startup succeeds and loses
nothing, unless an amount would need more than 64 digits. -/
theorem restart_succeeds (hdb : Consistent db) (steps : List (UsageOp ⊕ ℤ))
    (hsteps : Tracked steps) (hfits : Fits (history db steps) (reservedClaims (history db steps)))
    (quotaNowMs usageNowMs : ℤ) :
    ∃ recovered db', recoverAtStartup (history db steps) quotaNowMs usageNowMs =
        (.ok recovered, db') ∧ NothingLost usageNowMs (history db steps) db' := by
  obtain ⟨recovered, db', h⟩ := exists_recoverAtStartup (hdb.history hsteps) hfits
  exact ⟨recovered, db', h, recoverAtStartup_nothingLost h⟩

/-- A crash after an attempt was recorded for a claimed request. -/
theorem restart_succeeds_recorded :
    let db := history (oneKeyDb "0") [.inl (.beginQuotaRequest (keyStart "r1")),
      .inl (.markQuotaRequestDispatched "r1" 1), .inl (.recordAttempt (smallAttempt.facts "r1"))]
    ∃ recovered db', recoverAtStartup db 20 20 = (.ok recovered, db') ∧ NothingLost 20 db db' := by
  refine restart_succeeds ⟨by decide, by decide⟩ _ ?_ ⟨by decide, ?_⟩ 20 20
  · intro facts hfacts
    obtain rfl : facts = smallAttempt.facts "r1" := by simpa using hfacts
    exact ⟨"r1", _, _, rfl, smallAttempt.priced⟩
  · intro apiKeyId hkey
    obtain ⟨row, hrow⟩ := Option.isSome_iff_exists.mp hkey
    obtain ⟨hmem, rfl⟩ := Table.find?_eq_some.mp hrow
    revert row
    decide

/-- What a key has spent once its waiting claims are recovered. -/
def owedBy (apiKeyId : String) (db : UsageDb) : ℕ :=
  spentOf db apiKeyId + claimsAmount db (reservedClaims db) apiKeyId

/-- A transaction of recovery moves what a key owes from its claims to its spend. -/
theorem owedBy_recoverClaims (nowMs : ℤ) (hkey : (db.apiKeys.find? apiKeyId).isSome) :
    let db' := (UsageOp.recoverClaims nowMs).exec db
    (db'.apiKeys.find? apiKeyId).isSome ∧ owedBy apiKeyId db' = owedBy apiKeyId db := by
  refine commit_induction (P := fun db' => (db'.apiKeys.find? apiKeyId).isSome ∧
    owedBy apiKeyId db' = owedBy apiKeyId db) ⟨hkey, rfl⟩ fun db' hok => ?_
  obtain ⟨_, hclaims⟩ := exists_of_map_ok hok
  obtain ⟨-, h⟩ := recoverClaims_recovered hclaims
  have hperm := h.reservedClaims_perm ((nodup_waiting db).sublist (take_sublist _ _))
    fun _ => mem_of_mem_take
  have hsum := (hperm.map fun claim =>
    if claim.apiKeyId = apiKeyId then recoveredAmount db claim.entryId else 0).sum_eq
  rw [map_append, sum_append, ← Nat.add_right_inj, ← Nat.add_assoc, ← h.spent apiKeyId hkey] at hsum
  refine ⟨h.keys apiKeyId ▸ hkey, ?_⟩
  simpa only [owedBy, claimsAmount, recoveredAmount_congr h.attempts] using hsum

/-- However often recovery is cut short between its transactions, once a startup succeeds each key
is charged exactly once for each of the claims that waited before the first of them. -/
theorem interrupted_recovery_charges_once (times : List ℤ)
    (h : recoverAtStartup (runOps db (times.map .recoverClaims)) quotaNowMs usageNowMs =
      (.ok recovered, db')) (hkey : (db.apiKeys.find? apiKeyId).isSome) :
    reservedClaims db' = [] ∧
      spentOf db' apiKeyId =
        spentOf db apiKeyId + claimsAmount db (reservedClaims db) apiKeyId := by
  have hlost := recoverAtStartup_nothingLost h
  rw [runOps, foldl_map] at hlost
  refine ⟨hlost.noClaim, ?_⟩
  clear h
  induction times generalizing db with
  | nil => exact (hlost.spent apiKeyId hkey).2
  | cons nowMs times ih =>
    obtain ⟨hkey', howed⟩ := owedBy_recoverClaims nowMs hkey
    exact (ih hkey' hlost).trans howed

/-- The transaction before the crash has charged the claim. -/
theorem interrupted_recovery_charges_once_small :
    let db := runOps smallDb [.recoverClaims 15]
    spentOf (recoverAtStartup db 20 20).2 "key" = 300000000000 := by
  intro db
  have hrun : recoverAtStartup db 20 20 = (.ok (0, 1), (recoverAtStartup db 20 20).2) := by decide
  exact (interrupted_recovery_charges_once [15] hrun (by decide)).2.trans (by decide)

end ProviderCore.Storage
