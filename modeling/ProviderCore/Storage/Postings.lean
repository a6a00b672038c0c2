import ProviderCore.Storage.UsageRepository

/-!
# Postings

Three operations add to a key's `spent_atoms`: an attempt of a request without a quota claim, the
ledger entry of a claimed request, and the recovery of a claim whose process died.  *Postings* are
the elementary changes of the accounting tables these and the opening operations are made of.
Each posting moves the spend of every key by exactly what it moves in the tables: the settled
amounts of the ledger and the recorded complete costs of unclaimed attempts (`charged`).

The set `claimed` says which request ids are opened by `begin_quota_request`; the others are
opened by `begin_logical_request`.  That an attempt comes after the opening of its request is the
foreign key of the schema.
-/

namespace ProviderCore.Storage

open Usage Auth Relation Table

/-! ## The balance -/

def spentOf (db : UsageDb) (apiKeyId : String) : ℕ :=
  ((db.apiKeys.find? apiKeyId).map fun key => atomsValue key.spentAtoms).getD 0

def settledCost (row : LedgerRow) : ℕ :=
  if row.state = .settled then (row.settledAtoms.map atomsValue).getD 0 else 0

def recordedCost (row : AttemptRow) : ℕ :=
  if row.costStatus = "complete_for_observed_catalog_components" then
    (row.costAtoms.map fun atoms => atoms.val.toNat).getD 0
  else 0

/-- The settled costs of the claims of a key. -/
def settledTotal (db : UsageDb) (apiKeyId : String) : ℕ :=
  db.ledger.sum fun row => if row.apiKeyId = apiKeyId then settledCost row else 0

/-- The recorded complete costs of the attempts of a key's unclaimed requests. -/
def unclaimedTotal (db : UsageDb) (apiKeyId : String) : ℕ :=
  db.attempts.sum fun attempt =>
    if unclaimedKey db attempt.row.logicalRequestId = some apiKeyId then
      recordedCost attempt.row
    else 0

/-- Everything the tables say a key has been charged. -/
def charged (db : UsageDb) (apiKeyId : String) : ℕ :=
  settledTotal db apiKeyId + unclaimedTotal db apiKeyId

/-- From `db` to `db'` every key's spend moves by what its charges move by, and no key comes or
goes. -/
structure Balanced (db db' : UsageDb) : Prop where
  keys : ∀ apiKeyId, (db'.apiKeys.find? apiKeyId).isSome = (db.apiKeys.find? apiKeyId).isSome
  spent : ∀ apiKeyId, (db.apiKeys.find? apiKeyId).isSome →
    spentOf db' apiKeyId + charged db apiKeyId = spentOf db apiKeyId + charged db' apiKeyId

theorem Balanced.refl (db : UsageDb) : Balanced db db := ⟨fun _ => rfl, fun _ _ => rfl⟩

theorem Balanced.trans {db₁ db₂ db₃ : UsageDb} (h₁ : Balanced db₁ db₂) (h₂ : Balanced db₂ db₃) :
    Balanced db₁ db₃ := by
  refine ⟨fun k => (h₂.keys k).trans (h₁.keys k), fun k hk => ?_⟩
  have e₁ := h₁.spent k hk
  have e₂ := h₂.spent k (by rw [h₁.keys k]; exact hk)
  omega

/-! ## What a charge does -/

/-- A charge touches nothing but the spend of one key. -/
structure ChargedTo (db db' : UsageDb) (apiKeyId : String) (amount : ℕ) : Prop where
  ledger : db'.ledger = db.ledger
  requests : db'.requests = db.requests
  attempts : db'.attempts = db.attempts
  keys : ∀ k, (db'.apiKeys.find? k).isSome = (db.apiKeys.find? k).isSome
  spent : ∀ k, (db.apiKeys.find? k).isSome →
    spentOf db' k = spentOf db k + if apiKeyId = k then amount else 0

variable {apiKeyId atoms : String}

theorem addApiKeySpend_ok {db db' : UsageDb} (h : addApiKeySpend db apiKeyId atoms = .ok db') :
    ChargedTo db db' apiKeyId (atomsValue atoms) := by
  unfold addApiKeySpend at h
  split at h
  · next hnone =>
      cases h
      refine ⟨rfl, rfl, rfl, fun _ => rfl, fun k hk => ?_⟩
      have hne : apiKeyId ≠ k := by
        rintro rfl
        simp [hnone] at hk
      simp [hne]
  · next key hkey =>
      split at h
      · cases h
      · next next hadd =>
          cases h
          have hvalue := (addAtoms_eq_ok hadd).2.2.2
          refine ⟨rfl, rfl, rfl, fun k => ?_, fun k _ => ?_⟩
          · by_cases hk : apiKeyId = k
            · subst hk
              simp [find?_modify_self]
            · simp [find?_modify_of_ne _ hk]
          · by_cases hk : apiKeyId = k
            · subst hk
              simp [spentOf, find?_modify_self, hkey, hvalue]
            · simp [spentOf, find?_modify_of_ne _ hk, hk]

/-- A key that is charged is charged an amount. -/
theorem validAtoms_of_addApiKeySpend {db db' : UsageDb}
    (h : addApiKeySpend db apiKeyId atoms = .ok db')
    (hkey : (db.apiKeys.find? apiKeyId).isSome) : ValidAtoms atoms := by
  unfold addApiKeySpend at h
  split at h
  · next hnone => simp [hnone] at hkey
  · split at h
    · cases h
    · next hadd => exact (addAtoms_eq_ok hadd).2.1

/-! ## Postings -/

/-- The elementary changes of the accounting tables. -/
inductive Posting (claimed : String → Prop) (db : UsageDb) : UsageDb → Prop
  /-- A request without a claim is opened. -/
  | opened (row : LogicalRequestRow) (unclaimed : ¬claimed row.requestId) :
      Posting claimed db { db with requests := db.requests.insertNew row }
  /-- A request is opened together with its claim; either may be there already. -/
  | claimOpened (row : LogicalRequestRow) (claim : LedgerRow) (same : claim.entryId = row.requestId)
      (isClaimed : claimed row.requestId) (reserved : claim.state = .reserved) :
      Posting claimed db
        { db with requests := db.requests.insertNew row, ledger := db.ledger.insertNew claim }
  /-- A reserved claim is marked as dispatched. -/
  | dispatched (claim : LedgerRow) (atMs : ℤ) (found : db.ledger.find? claim.entryId = some claim)
      (reserved : claim.state = .reserved) :
      Posting claimed db
        { db with
          ledger := db.ledger.modify claim.entryId (·.dispatch atMs) (·.dispatch_entryId atMs) }
  /-- A reserved claim is resolved without spend. -/
  | released (claim : LedgerRow) (atMs : ℤ) (found : db.ledger.find? claim.entryId = some claim)
      (reserved : claim.state = .reserved) :
      Posting claimed db (releaseClaim db claim.entryId atMs)
  /-- A reserved claim is settled and its key charged. -/
  | settled (claim : LedgerRow) (atoms : String) (atMs : ℤ) (db' : UsageDb)
      (found : db.ledger.find? claim.entryId = some claim) (reserved : claim.state = .reserved)
      (paid : addApiKeySpend
        { db with
          ledger := db.ledger.modify claim.entryId (·.settle atoms atMs)
            (·.settle_entryId atoms atMs) }
        claim.apiKeyId atoms = .ok db') :
      Posting claimed db db'
  /-- An attempt is recorded for the first time, and charged if nothing else will charge it. -/
  | recorded (attempt : StoredAttempt) (cost : StorableCost) (billable : Table BillableRow.key)
      (db' : UsageDb) (fresh : db.attempts.find? attempt.id = none)
      (opened : (db.requests.find? attempt.row.logicalRequestId).isSome)
      (status : attempt.row.costStatus = costStatusStr cost.status)
      (amount : attempt.row.costAtoms = cost.atoms)
      (paid : chargeAttempt
        { db with attempts := db.attempts.insertNew attempt, billable := billable }
        attempt.row.logicalRequestId cost = .ok db') :
      Posting claimed db db'

/-- The database opens claimed requests with their claim and unclaimed ones without, and every
attempt belongs to an opened request. -/
structure WellOpened (claimed : String → Prop) (db : UsageDb) : Prop where
  requestOf : ∀ attempt ∈ db.attempts.rows,
    (db.requests.find? attempt.row.logicalRequestId).isSome
  claimedOnly : ∀ claim ∈ db.ledger.rows, claimed claim.entryId
  claimOf : ∀ row ∈ db.requests.rows, claimed row.requestId →
    (db.ledger.find? row.requestId).isSome

/-! ## Each posting keeps the balance

What an attempt is charged to depends on the requests and on which claims exist, so the first
lemmas say when a posting leaves `unclaimedKey` alone. -/

theorem unclaimedKey_congr {db db' : UsageDb} {requestId : String}
    (hreq : db'.requests.find? requestId = db.requests.find? requestId)
    (hled : (db'.ledger.find? requestId).isSome = (db.ledger.find? requestId).isSome) :
    unclaimedKey db' requestId = unclaimedKey db requestId := by
  unfold unclaimedKey
  rcases h : db.ledger.find? requestId with _ | claim <;>
    rcases h' : db'.ledger.find? requestId with _ | claim' <;> simp_all

/-- The charged attempts are the same when their requests and the existence of their claims
are. -/
theorem unclaimedTotal_congr {db db' : UsageDb} (hatt : db'.attempts = db.attempts)
    (hreq : ∀ attempt ∈ db.attempts.rows, db'.requests.find? attempt.row.logicalRequestId =
      db.requests.find? attempt.row.logicalRequestId) (hled : ∀ attempt ∈ db.attempts.rows,
      (db'.ledger.find? attempt.row.logicalRequestId).isSome =
        (db.ledger.find? attempt.row.logicalRequestId).isSome)
    (apiKeyId : String) : unclaimedTotal db' apiKeyId = unclaimedTotal db apiKeyId := by
  unfold unclaimedTotal
  rw [hatt]
  refine sum_congr fun attempt hmem => ?_
  rw [unclaimedKey_congr (hreq attempt hmem) (hled attempt hmem)]

section

variable {claimed : String → Prop} {db db' : UsageDb}

variable {attempt : StoredAttempt}

/-- Opening a request changes no attempt's request: the attempts have theirs. -/
theorem find?_opened (hopen : WellOpened claimed db) (row : LogicalRequestRow)
    (hmem : attempt ∈ db.attempts.rows) :
    (db.requests.insertNew row).find? attempt.row.logicalRequestId =
      db.requests.find? attempt.row.logicalRequestId := by
  have hsome := hopen.requestOf attempt hmem
  by_cases hid : row.requestId = attempt.row.logicalRequestId
  · rw [← hid] at hsome ⊢
    obtain ⟨_, hold⟩ := Option.isSome_iff_exists.mp hsome
    rw [insertNew_of_find? hold]
  · exact find?_insertNew_of_ne hid

variable {claim : LedgerRow}

/-- Opening a claim takes no attempt away from its key: a claimed request with attempts has its
claim already. -/
theorem isSome_find?_claimed (hopen : WellOpened claimed db) (hclaimed : claimed claim.entryId)
    (hmem : attempt ∈ db.attempts.rows) :
    ((db.ledger.insertNew claim).find? attempt.row.logicalRequestId).isSome =
      (db.ledger.find? attempt.row.logicalRequestId).isSome := by
  by_cases hid : claim.entryId = attempt.row.logicalRequestId
  · obtain ⟨row, hrow⟩ := Option.isSome_iff_exists.mp (hopen.requestOf attempt hmem)
    obtain ⟨hrow, hkey⟩ := find?_eq_some.mp hrow
    have hsome := hopen.claimOf row hrow (by rw [hkey, ← hid]; exact hclaimed)
    rw [hkey, ← hid] at hsome
    obtain ⟨_, hold⟩ := Option.isSome_iff_exists.mp hsome
    rw [← hid, insertNew_of_find? hold]
  · rw [find?_insertNew_of_ne hid]

/-- A claim that is not settled adds nothing to the ledger's total. -/
theorem settledTotal_insertNew (db : UsageDb) (claim : LedgerRow) (hstate : claim.state = .reserved)
    (apiKeyId : String) : settledTotal { db with ledger := db.ledger.insertNew claim } apiKeyId =
      settledTotal db apiKeyId := by
  rcases hfind : db.ledger.find? claim.entryId with _ | old
  · have hsum := sum_insertNew
      (fun row => if row.apiKeyId = apiKeyId then settledCost row else 0) hfind
    simpa [settledTotal, settledCost, hstate] using hsum
  · rw [insertNew_of_find? hfind]

/-- Updating a reserved claim charges its key what the claim is then settled for, and keeps what
every attempt is charged to. -/
theorem charged_modify (found : db.ledger.find? claim.entryId = some claim)
    (reserved : claim.state = .reserved) {f : LedgerRow → LedgerRow}
    (hf : ∀ r, (f r).entryId = r.entryId) (hkey : (f claim).apiKeyId = claim.apiKeyId)
    (apiKeyId : String) :
    charged { db with ledger := db.ledger.modify claim.entryId f hf } apiKeyId =
      charged db apiKeyId + if claim.apiKeyId = apiKeyId then settledCost (f claim) else 0 := by
  have hrest : unclaimedTotal { db with ledger := db.ledger.modify claim.entryId f hf } apiKeyId =
      unclaimedTotal db apiKeyId := by
    apply unclaimedTotal_congr
    · rfl
    · exact fun _ _ => rfl
    · exact fun _ _ => isSome_find?_modify hf _
  have hrows := sum_modify hf
    (fun row : LedgerRow => if row.apiKeyId = apiKeyId then settledCost row else 0) found
  have hzero : settledCost claim = 0 := by simp [settledCost, reserved]
  rw [hkey, hzero, ite_self, Nat.add_zero] at hrows
  rw [charged, hrest, settledTotal, hrows, charged, settledTotal, Nat.add_right_comm]

/-- Two databases whose keys are the same are balanced when their charges are. -/
theorem Balanced.of_charged (hkeys : db'.apiKeys = db.apiKeys)
    (h : ∀ apiKeyId, charged db' apiKeyId = charged db apiKeyId) : Balanced db db' := by
  refine ⟨fun k => by rw [hkeys], fun k _ => ?_⟩
  rw [h k, spentOf, spentOf, hkeys]

theorem ChargedTo.charged_eq {apiKeyId : String} {amount : ℕ}
    (h : ChargedTo db db' apiKeyId amount) (k : String) : charged db' k = charged db k := by
  have hkey : ∀ requestId, unclaimedKey db' requestId = unclaimedKey db requestId :=
    fun requestId => unclaimedKey_congr (by rw [h.requests]) (by rw [h.ledger])
  simp [charged, settledTotal, unclaimedTotal, h.ledger, h.attempts, hkey]

variable {cost : StorableCost}

/-- The cost column of a row written from a stored cost. -/
theorem recordedCost_eq {row : AttemptRow}
    (status : row.costStatus = costStatusStr cost.status) (amount : row.costAtoms = cost.atoms) :
    recordedCost row =
      if cost.status = .completeForObservedCatalogComponents then
        (cost.atoms.map fun atoms => atoms.val.toNat).getD 0
      else 0 := by
  unfold recordedCost
  rw [status, amount]
  cases cost.status <;> rfl

/-- Recording an attempt adds its recorded cost to what its request's key is charged. -/
theorem charged_insert_attempt (billable : Table BillableRow.key)
    (fresh : db.attempts.find? attempt.id = none) (apiKeyId : String) :
    charged { db with attempts := db.attempts.insertNew attempt, billable := billable } apiKeyId =
      charged db apiKeyId +
        if unclaimedKey db attempt.row.logicalRequestId = some apiKeyId then
          recordedCost attempt.row
        else 0 := by
  have hsum := sum_insertNew (fun other : StoredAttempt =>
    if unclaimedKey db other.row.logicalRequestId = some apiKeyId then
      recordedCost other.row
    else 0) fresh
  have hkey : ∀ requestId, unclaimedKey
      { db with attempts := db.attempts.insertNew attempt, billable := billable } requestId =
      unclaimedKey db requestId := fun _ => rfl
  simp only [charged, settledTotal, unclaimedTotal, hkey]
  rw [hsum, Nat.add_assoc]

/-- A recorded attempt was charged for, if its request has no claim. -/
theorem Balanced.of_recorded
    {billable : Table BillableRow.key} (fresh : db.attempts.find? attempt.id = none)
    (status : attempt.row.costStatus = costStatusStr cost.status)
    (amount : attempt.row.costAtoms = cost.atoms) (paid : chargeAttempt
      { db with attempts := db.attempts.insertNew attempt, billable := billable }
      attempt.row.logicalRequestId cost = .ok db') : Balanced db db' := by
  have hinsert := charged_insert_attempt billable fresh
  have hcost := recordedCost_eq status amount
  unfold chargeAttempt at paid
  split at paid
  · next atoms apiKeyId hstatus hatoms hkey =>
      have hpaid := addApiKeySpend_ok paid
      change unclaimedKey db _ = some apiKeyId at hkey
      refine ⟨hpaid.keys, fun k hk => ?_⟩
      have hspent := hpaid.spent k hk
      have hcharged := hpaid.charged_eq k
      rw [hinsert k, hkey, hcost, if_pos hstatus, hatoms] at hcharged
      change spentOf db' k = spentOf db k + _ at hspent
      by_cases hk' : apiKeyId = k
      · subst hk'
        have hnonneg := nonneg_of_validAtoms (validAtoms_of_addApiKeySpend paid hk)
        rw [if_pos rfl, toString_of_nonneg hnonneg, atomsValue_toString] at hspent
        simp only [if_true, Option.map_some, Option.getD_some] at hcharged
        omega
      · simp only [Option.some.injEq, hk', if_false, Nat.add_zero] at hcharged hspent
        omega
  · next hnot =>
      cases paid
      refine .of_charged rfl fun k => ?_
      rw [hinsert k, hcost]
      -- Nothing is charged, so either the cost is not complete or there is no key to charge.
      split
      · next hkey =>
          split
          · next hstatus =>
              rcases hatoms : cost.atoms with _ | atoms
              · rfl
              · exact absurd hkey (hnot atoms k hstatus hatoms)
          · rfl
      · rfl

theorem Posting.balanced (hopen : WellOpened claimed db) (h : Posting claimed db db') :
    Balanced db db' := by
  cases h with
  | opened row =>
    refine .of_charged rfl fun k => ?_
    have hrest : unclaimedTotal { db with requests := db.requests.insertNew row } k =
        unclaimedTotal db k := by
      apply unclaimedTotal_congr
      · rfl
      · exact fun _ hmem => find?_opened hopen row hmem
      · exact fun _ _ => rfl
    rw [charged, hrest]
    rfl
  | claimOpened row claim same isClaimed reserved =>
    refine .of_charged rfl fun k => ?_
    have hrows := settledTotal_insertNew db claim reserved k
    have hrest : unclaimedTotal
        { db with requests := db.requests.insertNew row, ledger := db.ledger.insertNew claim } k =
        unclaimedTotal db k := by
      apply unclaimedTotal_congr
      · rfl
      · exact fun _ hmem => find?_opened hopen row hmem
      · exact fun _ hmem => isSome_find?_claimed hopen (same ▸ isClaimed) hmem
    rw [charged, hrest]
    exact congrArg (· + unclaimedTotal db k) hrows
  | dispatched claim atMs found reserved =>
    refine .of_charged rfl fun k => ?_
    have hzero : settledCost (claim.dispatch atMs) = 0 := by
      simp [settledCost, LedgerRow.dispatch, reserved]
    rw [charged_modify found reserved (·.dispatch_entryId atMs) rfl, hzero, ite_self, Nat.add_zero]
  | released claim atMs found reserved =>
    refine .of_charged rfl fun k => ?_
    have hzero : settledCost (claim.release atMs) = 0 := rfl
    rw [releaseClaim, charged_modify found reserved (·.release_entryId atMs) rfl, hzero, ite_self,
      Nat.add_zero]
  | settled claim atoms atMs _ found reserved paid =>
    have hpaid := addApiKeySpend_ok paid
    have hsettled : settledCost (claim.settle atoms atMs) = atomsValue atoms := rfl
    refine ⟨hpaid.keys, fun k hk => ?_⟩
    have hspent := hpaid.spent k hk
    change spentOf db' k = spentOf db k + _ at hspent
    rw [hpaid.charged_eq k, charged_modify found reserved (·.settle_entryId atoms atMs) rfl,
      hsettled, hspent, Nat.add_right_comm, Nat.add_assoc]
  | recorded _ _ _ _ fresh _ status amount paid =>
    exact .of_recorded fresh status amount paid

/-! ## Each posting keeps requests well opened -/

/-- Updating claims in place changes neither which claims there are nor for which requests. -/
theorem WellOpened.modify_ledger (hopen : WellOpened claimed db) (entryId : String)
    (f : LedgerRow → LedgerRow) (hf : ∀ r, (f r).entryId = r.entryId) :
    WellOpened claimed { db with ledger := db.ledger.modify entryId f hf } := by
  refine ⟨hopen.requestOf, fun claim hmem => ?_, fun row hrow hclaimed => ?_⟩
  · obtain ⟨old, hold, rfl⟩ := (mem_modify hf).mp hmem
    have hclaimed := hopen.claimedOnly old hold
    split
    · rwa [hf]
    · exact hclaimed
  · rw [isSome_find?_modify hf]
    exact hopen.claimOf row hrow hclaimed

theorem WellOpened.of_tables (hopen : WellOpened claimed db) (hledger : db'.ledger = db.ledger)
    (hrequests : db'.requests = db.requests) (hattempts : db'.attempts = db.attempts) :
    WellOpened claimed db' := by
  refine ⟨?_, ?_, ?_⟩
  · rw [hattempts, hrequests]
    exact hopen.requestOf
  · rw [hledger]
    exact hopen.claimedOnly
  · rw [hrequests, hledger]
    exact hopen.claimOf

theorem chargeAttempt_tables {requestId : String} (h : chargeAttempt db requestId cost = .ok db') :
    db'.ledger = db.ledger ∧ db'.requests = db.requests ∧ db'.attempts = db.attempts := by
  unfold chargeAttempt at h
  split at h
  · have hpaid := addApiKeySpend_ok h
    exact ⟨hpaid.ledger, hpaid.requests, hpaid.attempts⟩
  · cases h
    exact ⟨rfl, rfl, rfl⟩

theorem Posting.wellOpened (hopen : WellOpened claimed db) (h : Posting claimed db db') :
    WellOpened claimed db' := by
  cases h with
  | opened row unclaimed =>
    refine ⟨fun attempt hmem => ?_, hopen.claimedOnly, fun row' hmem hclaimed => ?_⟩
    · exact isSome_find?_insertNew row (hopen.requestOf attempt hmem)
    · rcases mem_insertNew hmem with hold | ⟨rfl, -⟩
      · exact hopen.claimOf row' hold hclaimed
      · exact absurd hclaimed unclaimed
  | claimOpened row claim same =>
    refine ⟨fun attempt hmem => ?_, fun claim' hmem => ?_, fun row' hmem hclaimed => ?_⟩
    · exact isSome_find?_insertNew row (hopen.requestOf attempt hmem)
    · rcases mem_insertNew hmem with hold | ⟨rfl, -⟩
      · exact hopen.claimedOnly claim' hold
      · rwa [same]
    · rcases mem_insertNew hmem with hold | ⟨rfl, -⟩
      · exact isSome_find?_insertNew claim (hopen.claimOf row' hold hclaimed)
      · rw [← same, find?_insertNew_self]
        rfl
  | dispatched | released => exact hopen.modify_ledger _ _ _
  | settled _ _ _ _ _ _ paid =>
    have hpaid := addApiKeySpend_ok paid
    exact (hopen.modify_ledger _ _ _).of_tables hpaid.ledger hpaid.requests hpaid.attempts
  | recorded attempt _ billable _ _ opened _ _ paid =>
    obtain ⟨hledger, hrequests, hattempts⟩ := chargeAttempt_tables paid
    have hinserted : WellOpened claimed
        { db with attempts := db.attempts.insertNew attempt, billable := billable } := by
      refine ⟨fun attempt' hmem => ?_, hopen.claimedOnly, hopen.claimOf⟩
      rcases mem_insertNew hmem with hold | ⟨rfl, -⟩
      · exact hopen.requestOf attempt' hold
      · exact opened
    exact hinserted.of_tables hledger hrequests hattempts

/-! ## What postings never touch again -/

/-- A posting that updates a reserved claim leaves every resolved one alone. -/
theorem find?_modify_resolved {claim resolved : LedgerRow} {f : LedgerRow → LedgerRow}
    (hf : ∀ r, (f r).entryId = r.entryId) (found : db.ledger.find? claim.entryId = some claim)
    (reserved : claim.state = .reserved)
    (hresolved : db.ledger.find? resolved.entryId = some resolved)
    (hstate : resolved.state ≠ .reserved) :
    (db.ledger.modify claim.entryId f hf).find? resolved.entryId = some resolved := by
  have hne : claim.entryId ≠ resolved.entryId := by
    intro he
    rw [he, hresolved] at found
    cases found
    exact hstate reserved
  rw [find?_modify_of_ne hf hne]
  exact hresolved

/-- A resolved claim stays as it is. -/
theorem Posting.find?_resolved (h : Posting claimed db db') {resolved : LedgerRow}
    (hresolved : db.ledger.find? resolved.entryId = some resolved)
    (hstate : resolved.state ≠ .reserved) : db'.ledger.find? resolved.entryId = some resolved := by
  cases h with
  | opened => exact hresolved
  | claimOpened _ claim =>
    by_cases hid : claim.entryId = resolved.entryId
    · rw [← hid] at hresolved ⊢
      exact (insertNew_of_find? hresolved).symm ▸ hresolved
    · exact (find?_insertNew_of_ne hid).trans hresolved
  | dispatched _ atMs found reserved =>
    exact find?_modify_resolved (·.dispatch_entryId atMs) found reserved hresolved hstate
  | released _ atMs found reserved =>
    exact find?_modify_resolved (·.release_entryId atMs) found reserved hresolved hstate
  | settled _ atoms atMs _ found reserved paid =>
    rw [(addApiKeySpend_ok paid).ledger]
    exact find?_modify_resolved (·.settle_entryId atoms atMs) found reserved hresolved hstate
  | recorded _ _ _ _ _ _ _ _ paid =>
    rw [(chargeAttempt_tables paid).1]
    exact hresolved

/-- A recorded attempt stays as it was first recorded. -/
theorem Posting.find?_recorded (h : Posting claimed db db')
    (hattempt : db.attempts.find? attempt.id = some attempt) :
    db'.attempts.find? attempt.id = some attempt := by
  cases h with
  | opened | claimOpened | dispatched | released => exact hattempt
  | settled _ _ _ _ _ _ paid =>
    rw [(addApiKeySpend_ok paid).attempts]
    exact hattempt
  | recorded other _ _ _ fresh _ _ _ paid =>
    rw [(chargeAttempt_tables paid).2.2]
    have hne : other.id ≠ attempt.id := by
      intro he
      rw [he, hattempt] at fresh
      cases fresh
    exact (find?_insertNew_of_ne hne).trans hattempt

end

end ProviderCore.Storage
