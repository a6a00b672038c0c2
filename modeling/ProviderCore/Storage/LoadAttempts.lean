import ProviderCore.Storage.AttemptChecks
import ProviderCore.Storage.ReadAttempt
import ProviderCore.Storage.Startup

/-!
# Stored attempts are read back

`load_attempts` against the operations that write.  `Stores` says which facts the tables hold: one
row for each recorded attempt, and the billable rows of each.  It is kept by every operation of a
run, and from it follows what is loaded: what is left of the recorded facts (`keptFacts`), in the
order of their sequence, unless a price among them cannot be read back; then nothing is loaded.
-/

namespace ProviderCore.Storage

open Usage List

variable {db db' : UsageDb}

/-! ## Loading -/

def readBillable (row : BillableRow) : Except UsageRepositoryError BillableObservation := do
  let code ← billableCodeFrom row.componentCode
  let unit ← billableUnitFrom row.unit
  let quantity ← orError "stored billable quantity is negative"
    (IntRange.tryFrom row.quantity.val)
  return ⟨code, unit, quantity⟩

def billableFor (db : UsageDb) (attemptId : String) :
    Except UsageRepositoryError (List BillableObservation) :=
  ((db.billable.rows.filter fun row => row.attemptId = attemptId).insertionSort
    fun a b => a.componentCode ≤ b.componentCode).mapM readBillable

def loadAttempt (db : UsageDb) (row : AttemptRow) : Except UsageRepositoryError AttemptFacts := do
  let facts ← row.attemptFacts
  let billable ← billableFor db facts.attemptId
  return withBillable facts billable

def loadAttempts (db : UsageDb) (requestId : String) :
    Except UsageRepositoryError (List AttemptFacts) :=
  ((storedRows db requestId).insertionSort fun a b => a.sequence ≤ b.sequence).mapM (loadAttempt db)

theorem attemptId_of_attemptFacts {row : AttemptRow} {facts : AttemptFacts}
    (h : row.attemptFacts = .ok facts) : facts.attemptId = row.id := by
  repeat obtain ⟨_, -, h⟩ := Fold.bind_eq_ok.mp h
  cases h
  rfl

/-! ## What the tracker can produce -/

/-- The facts of an attempt whose price is the one of its route. -/
def TrackedFacts (facts : AttemptFacts) : Prop :=
  ∃ requestId attempt completedAtMs pricing,
    attempt.spec.price = modelPriceResolution pricing ∧
      facts = attemptFacts requestId attempt completedAtMs

/-- Only a cost that is not computed is unavailable, and that one is zero. -/
theorem computeObservedCatalogCost_unavailable (observation : ProviderUsageObservation)
    (contract : UsageContractSnapshot) (price : PriceResolution)
    (h : (computeObservedCatalogCost observation contract price).status = .unavailable) :
    (computeObservedCatalogCost observation contract price).totalKnown = .zero := by
  cases price with
  | resolved =>
    simp only [computeObservedCatalogCost, costOfRecord] at h ⊢
    split at h
    · rfl
    · split at h <;> cases h
  | _ => rfl

variable {facts : AttemptFacts}

theorem TrackedFacts.cost (h : TrackedFacts facts) : CostCoherent facts.cost := by
  obtain ⟨requestId, _, completedAtMs, pricing, hprice, rfl⟩ := h
  refine ⟨attemptFacts_cost_nonneg requestId completedAtMs ?_, ?_⟩
  · rw [hprice]
    exact modelPriceResolution_nonneg pricing
  · simp only [attemptFacts, attemptCost]
    split
    · exact fun _ => rfl
    · exact computeObservedCatalogCost_unavailable _ _ _

theorem pushBillableTokens_cases (billable : List BillableObservation)
    (code : BillableComponentCode) (raw : Option I64) (warnings : Warnings) :
    (pushBillableTokens billable code raw warnings).1 = billable ∨
      ∃ quantity, (pushBillableTokens billable code raw warnings).1 =
        billable ++ [⟨code, .tokens, quantity⟩] := by
  unfold pushBillableTokens
  split
  · exact .inl rfl
  · split
    · next quantity _ =>
        split
        · exact .inl rfl
        · exact .inr ⟨quantity, rfl⟩
    · exact .inl rfl

/-- Images are billed at most once each way. -/
theorem nodup_imageTokens (input output : Option I64) (warnings warnings' : Warnings) :
    ((pushBillableTokens (pushBillableTokens [] .imageInputTokens input warnings).1
        .imageOutputTokens output warnings').1.map
      fun o => billableCodeStr o.componentCode).Nodup := by
  have hout := fun billable =>
    pushBillableTokens_cases billable .imageOutputTokens output warnings'
  rcases pushBillableTokens_cases [] .imageInputTokens input warnings with hin | ⟨_, hin⟩
  · rw [hin]
    rcases hout [] with hout | ⟨_, hout⟩ <;> simp [hout]
  · rw [hin, nil_append]
    rcases hout [_] with hout | ⟨_, hout⟩ <;> rw [hout] <;> simp [billableCodeStr]

/-- Each component is billed once. -/
theorem TrackedFacts.billable_nodup (h : TrackedFacts facts) :
    (facts.observation.billable.map fun o => billableCodeStr o.componentCode).Nodup := by
  obtain ⟨_, attempt, _, _, -, rfl⟩ := h
  simp only [attemptFacts, attemptObservation_billable]
  rcases attempt.state.rawUsage.join with _ | fields
  · exact nodup_nil
  · exact nodup_imageTokens _ _ _ _

/-! ## What the tables hold -/

def writtenRow (facts : AttemptFacts) : AttemptRow :=
  attemptRow facts
    ((IntRange.tryFrom facts.credentialIdentityRevision.val).getD (.lit 0 (Eq.refl true)))

def writtenBillable (attemptId : String) (observation : BillableObservation) : BillableRow :=
  billableRow attemptId observation
    ((IntRange.tryFrom observation.quantity.val).getD (.lit 0 (Eq.refl true)))

/-- The tables hold exactly the recorded facts, in the order they were written. -/
structure Stores (db : UsageDb) (recorded : List AttemptFacts) : Prop where
  rows : db.attempts.rows.map StoredAttempt.row = recorded.map writtenRow
  tracked : ∀ facts ∈ recorded, TrackedFacts facts
  storable : ∀ facts ∈ recorded, Storable facts
  billable : ∀ facts ∈ recorded, ∀ row, row ∈ db.billable.rows ∧ row.attemptId = facts.attemptId ↔
    row ∈ facts.observation.billable.map (writtenBillable facts.attemptId)
  /-- Billable rows belong to attempts. -/
  owned : ∀ row ∈ db.billable.rows, (db.attempts.find? row.attemptId).isSome

theorem stores_nil (hattempts : db.attempts.rows = []) (hbillable : db.billable.rows = []) :
    Stores db [] := by
  refine ⟨by rw [hattempts]; rfl, by simp, by simp, by simp, fun row hrow => ?_⟩
  rw [hbillable] at hrow
  exact absurd hrow not_mem_nil

section Recording

variable {recorded : List AttemptFacts}

theorem Stores.of_tables (h : Stores db recorded)
    (hattempts : db'.attempts = db.attempts) (hbillable : db'.billable = db.billable) :
    Stores db' recorded := by
  refine ⟨?_, h.tracked, h.storable, ?_, ?_⟩
  · rw [hattempts]
    exact h.rows
  · rw [hbillable]
    exact h.billable
  · rw [hbillable, hattempts]
    exact h.owned

theorem Stores.find? (h : Stores db recorded)
    (hfacts : facts ∈ recorded) : (db.attempts.find? facts.attemptId).isSome := by
  have hrow : writtenRow facts ∈ db.attempts.rows.map StoredAttempt.row := by
    rw [h.rows]
    exact mem_map_of_mem hfacts
  obtain ⟨attempt, hattempt, hsame⟩ := mem_map.mp hrow
  have hid : attempt.id = facts.attemptId := congrArg AttemptRow.id hsame
  rw [Table.find?_eq_some.mpr ⟨hattempt, hid⟩]
  rfl

/-- Billable rows are written one after the other. -/
theorem foldlM_insertBillable_eq {attemptId : String} {observations : List BillableObservation}
    {table table' : Table BillableRow.key}
    (h : observations.foldlM (insertBillable attemptId) table = .ok table') :
    table' = (observations.map (writtenBillable attemptId)).foldl Table.upsert table := by
  induction observations generalizing table with
  | nil =>
    cases h
    rfl
  | cons observation _ ih =>
    rw [foldlM_cons, Fold.bind_eq_ok] at h
    obtain ⟨_, hone, hrest⟩ := h
    rw [map_cons, foldl_cons, ih hrest]
    refine congrArg (List.foldl _ · _) ?_
    unfold insertBillable storableQuantity at hone
    rcases hquantity : (IntRange.tryFrom observation.quantity.val : Option I64) with _ | quantity
    · simp [hquantity, bind, Except.bind] at hone
    · simp only [hquantity, bind, Except.bind] at hone
      split at hone
      · cases hone
        rw [writtenBillable, hquantity]
        rfl
      · cases hone

/-- The billable rows of a tracked attempt have distinct keys. -/
theorem TrackedFacts.nodup_written (h : TrackedFacts facts) :
    ((facts.observation.billable.map (writtenBillable facts.attemptId)).map
      BillableRow.key).Nodup := by
  have hcodes := h.billable_nodup.map (Prod.mk_right_injective facts.attemptId)
  rw [map_map] at hcodes ⊢
  exact hcodes

/-- A new attempt that is accepted is stored besides the others. -/
theorem Stores.recordAttempt (h : Stores db recorded) (htracked : TrackedFacts facts)
    (hfresh : db.attempts.find? facts.attemptId = none)
    (haccepted : recordAttempt db facts = .ok db') : Stores db' (recorded ++ [facts]) := by
  have hstorable := storable_iff_accepted.mpr ⟨db, db', hfresh, haccepted⟩
  obtain ⟨-, revision, hrevision, hchecks, -, -, billable, hfold, hcharge⟩ :=
    (recordAttempt_eq_ok_of_fresh hfresh).mp haccepted
  have hattempts : db'.attempts = db.attempts.insertNew ⟨attemptRow facts revision, hchecks⟩ :=
    (chargeAttempt_tables hcharge).2.2
  have hbillable : db'.billable = billable := by
    unfold chargeAttempt at hcharge
    split at hcharge
    · exact (addApiKeySpend_sameFacts hcharge).billable
    · cases hcharge
      rfl
  have hrows : db'.attempts.rows = db.attempts.rows ++ [⟨attemptRow facts revision, hchecks⟩] := by
    rw [hattempts]
    exact Table.rows_insertNew hfresh
  have hmem : ∀ row, row ∈ db'.billable.rows ↔
      row ∈ facts.observation.billable.map (writtenBillable facts.attemptId) ∨
        (row ∈ db.billable.rows ∧ row.key ∉ (facts.observation.billable.map
          (writtenBillable facts.attemptId)).map BillableRow.key) := by
    intro row
    rw [hbillable, foldlM_insertBillable_eq hfold]
    exact Table.mem_foldl_upsert htracked.nodup_written
  have hnew : ∀ row ∈ facts.observation.billable.map (writtenBillable facts.attemptId),
      row.attemptId = facts.attemptId := by
    intro row hrow
    obtain ⟨_, -, rfl⟩ := mem_map.mp hrow
    rfl
  have hold : ∀ row ∈ db.billable.rows, row.attemptId ≠ facts.attemptId := by
    intro row hrow hid
    have howned := h.owned row hrow
    rw [hid, hfresh] at howned
    cases howned
  refine ⟨?_, ?_, ?_, fun other hother row => ?_, fun row hrow => ?_⟩
  · rw [hrows, map_append, map_append, h.rows]
    simp [writtenRow, hrevision]
  · rw [forall_mem_append, forall_mem_singleton]
    exact ⟨h.tracked, htracked⟩
  · rw [forall_mem_append, forall_mem_singleton]
    exact ⟨h.storable, hstorable⟩
  · rw [hmem]
    rw [mem_append, mem_singleton] at hother
    rcases hother with hother | rfl
    · -- The rows of an earlier attempt are those it had.
      have hne : other.attemptId ≠ facts.attemptId := by
        intro hid
        have hfound := h.find? hother
        rw [hid, hfresh] at hfound
        cases hfound
      rw [← h.billable other hother row]
      constructor
      · rintro ⟨hrow | ⟨hrow, -⟩, hid⟩
        · exact absurd (hid.symm.trans (hnew row hrow)) hne
        · exact ⟨hrow, hid⟩
      · rintro ⟨hrow, hid⟩
        refine ⟨.inr ⟨hrow, fun hkey => ?_⟩, hid⟩
        obtain ⟨other', hother', hsame⟩ := mem_map.mp hkey
        have hids : other'.attemptId = row.attemptId := congrArg Prod.fst hsame
        exact hne (hid.symm.trans (hids.symm.trans (hnew other' hother')))
    · constructor
      · rintro ⟨hrow | ⟨hrow, -⟩, hid⟩
        · exact hrow
        · exact absurd hid (hold row hrow)
      · exact fun hrow => ⟨.inl hrow, hnew row hrow⟩
  · rw [hattempts]
    rcases (hmem row).mp hrow with hrow | ⟨hrow, -⟩
    · have hself := Table.find?_insertNew_self db.attempts ⟨attemptRow facts revision, hchecks⟩
      have hid : StoredAttempt.id ⟨attemptRow facts revision, hchecks⟩ = row.attemptId :=
        (hnew row hrow).symm
      rw [← hid, hself]
      rfl
    · exact Table.isSome_find?_insertNew _ (h.owned row hrow)

end Recording

/-! ## Runs -/

/-- The facts an operation records: those of a new attempt that is accepted. -/
def UsageOp.recorded (db : UsageDb) : UsageOp → List AttemptFacts
  | .recordAttempt facts =>
    match db.attempts.find? facts.attemptId, Storage.recordAttempt db facts with
    | none, .ok _ => [facts]
    | _, _ => []
  | _ => []

/-- The facts a run records, in its order. -/
def recordedFacts (db : UsageDb) : List UsageOp → List AttemptFacts
  | [] => []
  | op :: ops => op.recorded db ++ recordedFacts (op.exec db) ops

/-- The attempts an operation records are ones the tracker can produce. -/
def UsageOp.Tracked : UsageOp → Prop
  | .recordAttempt facts => TrackedFacts facts
  | _ => True

variable {recorded : List AttemptFacts}

theorem Stores.exec {op : UsageOp} (h : Stores db recorded)
    (hop : op.Tracked) : Stores (op.exec db) (recorded ++ op.recorded db) := by
  have hplain {op : UsageOp} (hop : ∀ facts, op ≠ .recordAttempt facts) :
      Stores (op.exec db) (recorded ++ []) := by
    rw [append_nil]
    refine UsageOp.exec_induction (P := (Stores · recorded)) h (fun _ _ h => h.of_tables rfl rfl)
      (fun hpaid h => ?_) hop
    have hsame := addApiKeySpend_sameFacts hpaid
    exact h.of_tables hsame.attempts hsame.billable
  cases op with
  | recordAttempt facts =>
    rcases hfound : db.attempts.find? facts.attemptId with _ | known
    · rcases hrecord : Storage.recordAttempt db facts with error | db'
      · simpa [UsageOp.exec, UsageOp.recorded, hfound, hrecord, commit] using h
      · simpa [UsageOp.exec, UsageOp.recorded, hfound, hrecord, commit] using
          h.recordAttempt hop hfound hrecord
    · have hnone : (UsageOp.recordAttempt facts).recorded db = [] := by
        simp [UsageOp.recorded, hfound]
      rw [hnone, append_nil]
      refine commit_induction (P := (Stores · recorded)) h fun db' hok => ?_
      rw [recordAttempt_known (by simp [hfound]) hok]
      exact h
  | _ => exact hplain (by simp)

theorem Stores.runOps {ops : List UsageOp} (h : Stores db recorded)
    (hops : ∀ op ∈ ops, op.Tracked) :
    Stores (runOps db ops) (recorded ++ recordedFacts db ops) := by
  induction ops generalizing db recorded with
  | nil => simpa [Storage.runOps, recordedFacts] using h
  | cons _ _ ih =>
    rw [forall_mem_cons] at hops
    rw [recordedFacts, ← append_assoc]
    exact ih (h.exec hops.1) hops.2

/-! ## What is loaded -/

theorem readBillable_written {attemptId : String} {observation : BillableObservation}
    (h : StorableBillable attemptId observation) :
    readBillable (writtenBillable attemptId observation) = .ok observation := by
  obtain ⟨_, hquantity, -⟩ := h
  unfold storableQuantity at hquantity
  split at hquantity
  · next stored hstored =>
      have hback : (IntRange.tryFrom stored.val : Option U64) = some observation.quantity :=
        IntRange.tryFrom_eq_some.mpr (IntRange.tryFrom_eq_some.mp hstored).symm
      simp [readBillable, writtenBillable, billableRow, hstored, billableCodeFrom_str,
        billableUnitFrom_str, hback, orError, bind, Except.bind, pure, Except.pure]
  · cases hquantity

/-- Rows that are told apart by what they are sorted by are sorted in one way. -/
theorem insertionSort_eq_of_perm {α κ : Type} [LinearOrder κ] {f : α → κ} {l l' : List α}
    (hperm : l.Perm l') (hnodup : (l'.map f).Nodup) :
    l.insertionSort (fun a b => f a ≤ f b) = l'.insertionSort fun a b => f a ≤ f b := by
  have hsorted : ∀ l : List α, (l.insertionSort fun a b => f a ≤ f b).Pairwise
      fun a b => f a ≤ f b := by
    intro l
    have : Std.Total fun a b : α => f a ≤ f b := ⟨fun a b => le_total (f a) (f b)⟩
    have : IsTrans α fun a b => f a ≤ f b := ⟨fun _ _ _ => le_trans⟩
    exact pairwise_insertionSort _ l
  refine List.Perm.eq_of_pairwise (fun a b ha hb hab hba => ?_) (hsorted l) (hsorted l')
    (((perm_insertionSort _ l).trans hperm).trans (perm_insertionSort _ l').symm)
  rw [mem_insertionSort] at ha hb
  exact inj_on_of_nodup_map hnodup (hperm.mem_iff.mp ha) hb (le_antisymm hab hba)

/-- The billable observations of recorded facts are loaded by the code of their component. -/
theorem Stores.billableFor (h : Stores db recorded) (hfacts : facts ∈ recorded) :
    billableFor db facts.attemptId = .ok (keptObservation facts.observation).billable := by
  have hcodes := (h.tracked facts hfacts).billable_nodup
  have hperm : (db.billable.rows.filter fun row => row.attemptId = facts.attemptId).Perm
      (facts.observation.billable.map (writtenBillable facts.attemptId)) := by
    refine (perm_ext_iff_of_nodup ?_ ?_).mpr fun row => ?_
    · exact (List.Nodup.of_map _ db.billable.nodup).filter _
    · exact List.Nodup.of_map _ (h.tracked facts hfacts).nodup_written
    · rw [mem_filter, decide_eq_true_eq]
      exact h.billable facts hfacts row
  have hdistinct : ((facts.observation.billable.map (writtenBillable facts.attemptId)).map
      BillableRow.componentCode).Nodup := by
    rw [map_map]
    exact hcodes
  have hsort : (facts.observation.billable.map (writtenBillable facts.attemptId)).insertionSort
      (fun a b => a.componentCode ≤ b.componentCode) =
      (keptObservation facts.observation).billable.map (writtenBillable facts.attemptId) :=
    (map_insertionSort _ _ (writtenBillable facts.attemptId) _ fun _ _ _ _ => Iff.rfl).symm
  rw [Storage.billableFor, insertionSort_eq_of_perm hperm hdistinct, hsort]
  refine Fold.mapM_map fun observation hobservation => readBillable_written ?_
  exact (h.storable facts hfacts).billable observation
    ((mem_insertionSort _).mp hobservation)

theorem Stores.loadAttempt (h : Stores db recorded) (hfacts : facts ∈ recorded) :
    loadAttempt db (writtenRow facts) =
      if PriceReadable facts.price then .ok (keptFacts facts)
      else .error ⟨"failed to decode inline price record"⟩ := by
  obtain ⟨revision, hrevision, -⟩ := (h.storable facts hfacts).row
  have hrow : writtenRow facts = attemptRow facts revision := by
    rw [writtenRow, hrevision, Option.getD_some]
  have hbillable := h.billableFor hfacts
  rw [Storage.loadAttempt, hrow, attemptFacts_attemptRow hrevision (h.tracked facts hfacts).cost]
  split_ifs
  · have hid : (withBillable (keptFacts facts) []).attemptId = facts.attemptId := rfl
    simp only [bind, Except.bind, hid, hbillable]
    rfl
  · rfl

/-- The facts recorded for a request, in the order of their sequence. -/
def recordedFor (recorded : List AttemptFacts) (requestId : String) : List AttemptFacts :=
  (recorded.filter fun facts => facts.logicalRequestId = requestId).insertionSort
    fun a b => a.sequence.val ≤ b.sequence.val

theorem Stores.loadAttempts (h : Stores db recorded) (requestId : String) :
    loadAttempts db requestId =
      if ∀ facts ∈ recordedFor recorded requestId, PriceReadable facts.price then
        .ok ((recordedFor recorded requestId).map keptFacts)
      else .error ⟨"failed to decode inline price record"⟩ := by
  have hrows : (storedRows db requestId).insertionSort (fun a b => a.sequence ≤ b.sequence) =
      (recordedFor recorded requestId).map writtenRow := by
    have hfilter : storedRows db requestId =
        (recorded.filter fun facts => facts.logicalRequestId = requestId).map writtenRow := by
      rw [storedRows, h.rows, filter_map]
      rfl
    rw [hfilter]
    exact (map_insertionSort _ _ writtenRow _ fun _ _ _ _ => Iff.rfl).symm
  rw [Storage.loadAttempts, hrows]
  refine Fold.mapM_read_or fun facts hfacts => h.loadAttempt ?_
  exact mem_of_mem_filter ((mem_insertionSort _).mp hfacts)

/-- Over any run that records attempts of the tracker, the attempts of a request are loaded as
they were recorded, up to counts and amounts above 64 signed bits, exactly if every price recorded
for the request can be read back; and nothing else is ever loaded. -/
theorem attempts_read_back_iff {ops : List UsageOp} (hattempts : db.attempts.rows = [])
    (hbillable : db.billable.rows = []) (hops : ∀ op ∈ ops, op.Tracked) (requestId : String) :
    let recorded := recordedFor (recordedFacts db ops) requestId
    (loadAttempts (runOps db ops) requestId = .ok (recorded.map keptFacts) ↔
        ∀ facts ∈ recorded, PriceReadable facts.price) ∧
      ∀ loaded, loadAttempts (runOps db ops) requestId = .ok loaded →
        loaded = recorded.map keptFacts := by
  intro recorded
  have hload := ((stores_nil hattempts hbillable).runOps hops).loadAttempts requestId
  rw [nil_append] at hload
  rw [hload]
  constructor
  · constructor
    · intro hok
      by_contra hnot
      rw [if_neg hnot] at hok
      cases hok
    · exact fun hall => if_pos hall
  · intro loaded hok
    split_ifs at hok
    cases hok
    rfl

/-- The attempt of `r1` whose route costs the given dollars a million tokens, and that metered
`input` of them. -/
def pricedAttempt (price : String) (input : I64) : AttemptTracker :=
  { (meteredAttempt input).attempt with
    spec := { (meteredAttempt input).attempt.spec with
      price := modelPriceResolution (some ⟨.manual, { input := some price }⟩) } }

/-- The request of the attempt is opened and the attempt is recorded. -/
def pricedRun (price : String) (input : I64) : List UsageOp :=
  [ .beginLogicalRequest (keyStart "r1"),
    .recordAttempt (attemptFacts "r1" (pricedAttempt price input) 5) ]

theorem tracked_pricedRun (price : String) (input : I64) :
    ∀ op ∈ pricedRun price input, op.Tracked := by
  simp only [pricedRun, forall_mem_cons, not_mem_nil, false_implies, implies_true, and_true]
  exact ⟨trivial, "r1", pricedAttempt price input, 5, some ⟨.manual, { input := some price }⟩, rfl,
    rfl⟩

/-- At ten dollars a token the attempt is loaded as it was recorded. -/
theorem attempts_read_back_iff_priced :
    let facts := attemptFacts "r1" (pricedAttempt "10000000" (.lit 3 (Eq.refl true))) 5
    recordedFacts (oneKeyDb "0") (pricedRun "10000000" (.lit 3 (Eq.refl true))) = [facts] ∧
      loadAttempts (runOps (oneKeyDb "0") (pricedRun "10000000" (.lit 3 (Eq.refl true)))) "r1" =
        .ok [keptFacts facts] := by
  intro facts
  have hrecorded : recordedFacts (oneKeyDb "0") (pricedRun "10000000" (.lit 3 (Eq.refl true))) =
      [facts] := by decide
  have hfor : recordedFor (recordedFacts (oneKeyDb "0")
      (pricedRun "10000000" (.lit 3 (Eq.refl true)))) "r1" = [facts] := by
    decide
  have hload := (@attempts_read_back_iff (oneKeyDb "0") _ rfl rfl
    (tracked_pricedRun "10000000" (.lit 3 (Eq.refl true))) "r1").1
  rw [hfor] at hload
  refine ⟨hrecorded, hload.mpr ?_⟩
  decide

/-- At two hundred thousand dollars a token the attempt is recorded and cannot be loaded. -/
theorem dear_attempt_not_loaded :
    (∀ op ∈ pricedRun "200000000000" (.lit 0 (Eq.refl true)), op.Tracked) ∧
      recordedFacts (oneKeyDb "0") (pricedRun "200000000000" (.lit 0 (Eq.refl true))) =
        [attemptFacts "r1" (pricedAttempt "200000000000" (.lit 0 (Eq.refl true))) 5] ∧
      loadAttempts (runOps (oneKeyDb "0") (pricedRun "200000000000" (.lit 0 (Eq.refl true))))
          "r1" = .error ⟨"failed to decode inline price record"⟩ :=
  ⟨tracked_pricedRun _ _, by decide, by decide⟩

end ProviderCore.Storage
