import ProviderCore.Lib.Batch
import ProviderCore.Storage.UsageRepository

/-!
# Requests left in flight

What `recover_in_flight_requests` does: it deletes the requests that are in progress, with their
attempts, and adds one for each to a gap counter of its owner.  `Discarded` says what the
deletion of given requests does, and composes over the batches.
-/

namespace ProviderCore.Storage

open Usage Auth List

variable {db db' db₁ : UsageDb} {nowMs : ℤ} {rows rows' : List LogicalRequestRow}

variable {row : LogicalRequestRow}

theorem mem_inFlightRequests :
    row ∈ inFlightRequests db ↔ row ∈ db.requests.rows ∧ row.logicalStatus = .inProgress := by
  simp [inFlightRequests, mem_insertionSort]

theorem nodup_inFlightRequests (db : UsageDb) :
    ((inFlightRequests db).map LogicalRequestRow.requestId).Nodup := by
  have hperm := (perm_insertionSort
    (fun a b : LogicalRequestRow => a.requestId ≤ b.requestId)
    (db.requests.rows.filter fun row => row.logicalStatus = .inProgress)).map
      LogicalRequestRow.requestId
  refine hperm.nodup_iff.mpr ?_
  exact (filter_sublist.map LogicalRequestRow.requestId).nodup db.requests.nodup

/-- The owners' counts add up to the requests of each. -/
theorem count_ownerCounts (rows : List LogicalRequestRow) (ownerUserId : String) :
    Tally.count (ownerCounts rows) ownerUserId =
      (rows.map fun row => if row.ownerUserId = ownerUserId then 1 else 0).sum := by
  rw [ownerCounts, Tally.count_foldl_add LogicalRequestRow.ownerUserId fun _ => 1]
  exact Nat.zero_add _

theorem sum_ownerCounts (rows : List LogicalRequestRow) :
    (ownerCounts rows).sum Prod.snd = rows.length := by
  have hfold : ∀ counts : Tally String,
      (rows.foldl (fun counts row => Tally.add counts row.ownerUserId 1) counts).sum Prod.snd =
        counts.sum Prod.snd + rows.length := by
    induction rows with
    | nil => exact fun _ => rfl
    | cons _ _ ih =>
      intro counts
      rw [foldl_cons, ih, Tally.sum_add, length_cons]
      omega
  exact (hfold .empty).trans (Nat.zero_add _)

theorem recoveredGapKey_inj {owner other : String} :
    recoveredGapKey nowMs owner = recoveredGapKey nowMs other ↔ owner = other := by
  simp [recoveredGapKey]

/-- Each owner's gap counter grows by the number of the owner's requests, and no other does. -/
theorem count_addRecoveredGaps (rows : List LogicalRequestRow) (gaps : Tally GapRowKey)
    (key : GapRowKey) :
    Tally.count (addRecoveredGaps nowMs (ownerCounts rows) gaps) key =
      Tally.count gaps key +
        (rows.map fun row => if recoveredGapKey nowMs row.ownerUserId = key then 1 else 0).sum := by
  rw [addRecoveredGaps, Tally.count_foldl_add (fun owned => recoveredGapKey nowMs owned.1) Prod.snd,
    ((perm_insertionSort _ _).map _).sum_eq]
  refine congrArg (Tally.count gaps key + ·) ?_
  by_cases hkey : ∃ owner, recoveredGapKey nowMs owner = key
  · obtain ⟨_, rfl⟩ := hkey
    simp only [recoveredGapKey_inj]
    rw [← count_ownerCounts, Tally.count_eq_sum]
  · have hne : ∀ owner, recoveredGapKey nowMs owner ≠ key := fun owner he => hkey ⟨owner, he⟩
    simp [hne]

/-! ## What is discarded -/

/-- The given requests are deleted with what hangs on them, and counted; the rest stays. -/
structure Discarded (nowMs : ℤ) (db db' : UsageDb) (rows : List LogicalRequestRow) : Prop where
  apiKeys : db'.apiKeys = db.apiKeys
  ledger : db'.ledger = db.ledger
  requests : db'.requests.rows =
    db.requests.rows.filter fun row => row.requestId ∉ rows.map (·.requestId)
  attempts : db'.attempts.rows =
    db.attempts.rows.filter fun attempt =>
      attempt.row.logicalRequestId ∉ rows.map (·.requestId)
  billable : db'.billable.rows =
    db.billable.rows.filter fun row => row.attemptId ∉ attemptsOf db (rows.map (·.requestId))
  gaps : ∀ key, Tally.count db'.gaps key = Tally.count db.gaps key +
    (rows.map fun row => if recoveredGapKey nowMs row.ownerUserId = key then 1 else 0).sum

theorem Discarded.refl (nowMs : ℤ) (db : UsageDb) : Discarded nowMs db db [] :=
  ⟨rfl, rfl, by simp, by simp, by simp [attemptsOf], fun _ => rfl⟩

variable {requestIds : List String} {id : String}

theorem mem_attemptsOf :
    id ∈ attemptsOf db requestIds ↔
      ∃ attempt ∈ db.attempts.rows,
        attempt.row.logicalRequestId ∈ requestIds ∧ attempt.id = id := by
  simp [attemptsOf, and_assoc]

/-- The attempts of two deletions one after the other. -/
theorem Discarded.mem_attemptsOf_append (h : Discarded nowMs db db₁ rows) :
    id ∈ attemptsOf db (rows.map (·.requestId) ++ requestIds) ↔
      id ∈ attemptsOf db (rows.map (·.requestId)) ∨ id ∈ attemptsOf db₁ requestIds := by
  simp only [mem_attemptsOf, h.attempts, mem_filter, decide_eq_true_eq, mem_append]
  constructor
  · rintro ⟨attempt, hattempt, hrequest, rfl⟩
    by_cases hfirst : attempt.row.logicalRequestId ∈ rows.map (·.requestId)
    · exact .inl ⟨attempt, hattempt, hfirst, rfl⟩
    · exact .inr ⟨attempt, ⟨hattempt, hfirst⟩, hrequest.resolve_left hfirst, rfl⟩
  · rintro (⟨attempt, hattempt, hrequest, rfl⟩ | ⟨attempt, ⟨hattempt, -⟩, hrequest, rfl⟩)
    · exact ⟨attempt, hattempt, .inl hrequest, rfl⟩
    · exact ⟨attempt, hattempt, .inr hrequest, rfl⟩

theorem Discarded.trans (h : Discarded nowMs db db₁ rows) (h' : Discarded nowMs db₁ db' rows') :
    Discarded nowMs db db' (rows ++ rows') := by
  refine ⟨h'.apiKeys.trans h.apiKeys, h'.ledger.trans h.ledger, ?_, ?_, ?_, fun key => ?_⟩
  · rw [h'.requests, h.requests, filter_filter]
    refine filter_congr fun row _ => ?_
    simp [Bool.and_comm]
  · rw [h'.attempts, h.attempts, filter_filter]
    refine filter_congr fun attempt _ => ?_
    simp [Bool.and_comm]
  · rw [h'.billable, h.billable, filter_filter]
    refine filter_congr fun row _ => ?_
    rw [map_append, ← Bool.decide_and, decide_eq_decide, h.mem_attemptsOf_append, not_or, and_comm]
  · rw [h'.gaps, h.gaps, map_append, sum_append, Nat.add_assoc]

theorem Discarded.perm (hperm : rows.Perm rows') (h : Discarded nowMs db db' rows) :
    Discarded nowMs db db' rows' := by
  have hmem : ∀ id, id ∈ rows.map LogicalRequestRow.requestId ↔
      id ∈ rows'.map LogicalRequestRow.requestId := fun id => (hperm.map _).mem_iff
  refine ⟨h.apiKeys, h.ledger, ?_, ?_, ?_, fun key => ?_⟩
  · rw [h.requests]
    exact filter_congr fun row _ => decide_eq_decide.mpr (not_congr (hmem _))
  · rw [h.attempts]
    exact filter_congr fun attempt _ => decide_eq_decide.mpr (not_congr (hmem _))
  · rw [h.billable]
    refine filter_congr fun row _ => decide_eq_decide.mpr (not_congr ?_)
    simp only [mem_attemptsOf]
    exact exists_congr fun attempt => and_congr_right fun _ => and_congr_left fun _ => hmem _
  · rw [h.gaps, (hperm.map _).sum_eq]

/-! ## The loop -/

theorem discardInFlight_discarded (nowMs : ℤ) (db : UsageDb) :
    (discardInFlight nowMs db).1 = ((inFlightRequests db).take recoveryBatch).length ∧
      Discarded nowMs db (discardInFlight nowMs db).2
        ((inFlightRequests db).take recoveryBatch) := by
  unfold discardInFlight
  by_cases hnil : (inFlightRequests db).take recoveryBatch = []
  · simp only [hnil, if_true, length_nil, true_and]
    exact .refl nowMs db
  · simp only [hnil, if_false]
    refine ⟨sum_ownerCounts _, rfl, rfl, rfl, rfl, rfl, fun key => ?_⟩
    exact count_addRecoveredGaps _ _ _

/-- The requests that are in progress after a deletion are those that were not deleted. -/
theorem Discarded.mem_inFlightRequests (h : Discarded nowMs db db' rows)
    (hrows : ∀ row ∈ rows, row ∈ inFlightRequests db) :
    row ∈ inFlightRequests db' ↔ row ∈ inFlightRequests db ∧ row ∉ rows := by
  rw [Storage.mem_inFlightRequests, Storage.mem_inFlightRequests, h.requests, mem_filter,
    decide_eq_true_eq]
  constructor
  · rintro ⟨⟨hrow, hid⟩, hstatus⟩
    exact ⟨⟨hrow, hstatus⟩, fun hmem => hid (mem_map_of_mem hmem)⟩
  · rintro ⟨⟨hrow, hstatus⟩, hnot⟩
    refine ⟨⟨hrow, fun hid => hnot ?_⟩, hstatus⟩
    obtain ⟨other, hother, hsame⟩ := mem_map.mp hid
    -- The request id is a key, so a deleted row with it is this row.
    have hstored := (Storage.mem_inFlightRequests.mp (hrows other hother)).1
    rwa [← inj_on_of_nodup_map db.requests.nodup hstored hrow hsame]

theorem nodup_inFlight (db : UsageDb) : (inFlightRequests db).Nodup :=
  (nodup_inFlightRequests db).of_map _

/-- The loop, given enough rounds, discards every request in progress and counts them all. -/
theorem discardLoop_discarded {fuel total : ℕ} (hfuel : (inFlightRequests db).length < fuel) :
    (discardLoop nowMs fuel total db).1 = total + (inFlightRequests db).length ∧
      Discarded nowMs db (discardLoop nowMs fuel total db).2 (inFlightRequests db) := by
  induction fuel generalizing db total with
  | zero => exact absurd hfuel (Nat.not_lt_zero _)
  | succ _ ih =>
    obtain ⟨hcount, hdone⟩ := discardInFlight_discarded nowMs db
    rw [length_take] at hcount
    -- the requests in progress are the deleted ones and those that still are
    have hperm := Batch.perm_append (nodup_inFlight db)
      ((nodup_inFlight db).sublist (take_sublist _ _)) (nodup_inFlight _)
      (fun _ => mem_of_mem_take)
      fun _ => hdone.mem_inFlightRequests fun _ => mem_of_mem_take
    have hlength := hperm.length_eq
    rw [length_append, length_take] at hlength
    unfold discardLoop
    simp only
    split_ifs with hzero hshort
    · have hnil : inFlightRequests db = [] := by
        rw [← length_eq_zero_iff]
        simp only [recoveryBatch] at hcount
        omega
      rw [hnil]
      exact ⟨rfl, .refl nowMs db⟩
    · rw [take_of_length_le (by omega)] at hdone
      exact ⟨by omega, hdone⟩
    · obtain ⟨htotal, hrest⟩ := @ih (discardInFlight nowMs db).2
        (total + (discardInFlight nowMs db).1) (by omega)
      exact ⟨by omega, (hdone.trans hrest).perm hperm⟩

theorem recoverInFlightRequests_discarded (db : UsageDb) (nowMs : ℤ) :
    (recoverInFlightRequests db nowMs).1 = (inFlightRequests db).length ∧
      Discarded nowMs db (recoverInFlightRequests db nowMs).2 (inFlightRequests db) := by
  obtain ⟨htotal, hdone⟩ := @discardLoop_discarded db nowMs _ 0 (Nat.lt_succ_self _)
  exact ⟨htotal.trans (Nat.zero_add _), hdone⟩

end ProviderCore.Storage
