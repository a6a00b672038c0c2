import ProviderCore.Storage.UsageQuery

/-!
# When the overview is available

The overview reads sums of columns that are never negative, so its counts can be read back, and the
split halves of the costs add up to the costs.  What can fail is the last check: more tokens read
from the cache than were put in.  Normalisation does not rule that out.  It notes a report that
contradicts itself so, and stores both of its counts.
-/

namespace ProviderCore.Storage

open Usage List

section Sums

variable {values : List ℤ} {total : I64}

theorem val_of_sqlSum (h : sqlSum values = some total) : total.val = values.sum := by
  have hfold : ∀ start : I64, values.foldlM
      (fun total value => IntRange.tryFrom (total.val + value)) start = some total →
        total.val = start.val + values.sum := by
    clear h
    induction values with
    | nil =>
        intro start h
        cases h
        simp
    | cons _ _ ih =>
        intro start h
        obtain ⟨next, hnext, hrest⟩ := Option.bind_eq_some_iff.mp h
        rw [ih next hrest, ← IntRange.tryFrom_eq_some.mp hnext, sum_cons]
        omega
  simpa using hfold _ h

/-- A sum that is not negative is read back as a count. -/
theorem count_of_nonneg (column : String) (h : 0 ≤ total.val) :
    ∃ n : U64, count total column = .ok n ∧ n.val = total.val := by
  have hlt := total.lt
  have hfits : (IntRange.tryFrom total.val : Option U64) = some ⟨total.val, h, by omega⟩ :=
    IntRange.tryFrom_eq_some.mpr rfl
  refine ⟨⟨total.val, h, by omega⟩, ?_, rfl⟩
  rw [count, hfits]
  rfl

/-- The high and the low halves of the atoms add up to the atoms. -/
theorem sum_split (values : List ℤ) :
    (values.map (·.tdiv atomSplit)).sum * atomSplit + (values.map (·.tmod atomSplit)).sum =
      values.sum := by
  induction values with
  | nil => rfl
  | cons value _ ih =>
      have hone := Int.mul_tdiv_add_tmod value atomSplit
      rw [map_cons, map_cons, sum_cons, sum_cons, sum_cons, ← ih]
      linarith

end Sums

section Overview

variable {db : UsageDb} {scope : UsageScope} {rows : List AttemptRow} {row : TotalsRow}

/-- The counted attempts passed the constraints of their table. -/
theorem checks_of_mem_scopedFrom : ∀ row ∈ scopedFrom db scope, row.Checks := by
  intro row hrow
  obtain ⟨_, -, hrow⟩ := mem_filterMap.mp hrow
  obtain ⟨attempt, -, rfl⟩ := Option.map_eq_some_iff.mp hrow
  exact attempt.checks

theorem column_sum_nonneg {read : StoredValues → Option I64}
    (h : ∀ row ∈ rows, NonNegative (read row.values)) : 0 ≤ (column rows read).sum := by
  refine sum_nonneg fun value hvalue => ?_
  obtain ⟨row, hrow, hvalue⟩ := mem_filterMap.mp hvalue
  obtain ⟨n, hn, rfl⟩ := Option.map_eq_some_iff.mp hvalue
  exact h row hrow n hn

theorem tokenTotals_eq_ok (hchecks : ∀ row ∈ rows, row.Checks) (h : totalsRow rows = some row) :
    ∃ tokens, tokenTotals row = .ok tokens := by
  obtain ⟨cacheReadInput, hread, h⟩ := Option.bind_eq_some_iff.mp h
  obtain ⟨effectiveInput, heffective, h⟩ := Option.bind_eq_some_iff.mp h
  obtain ⟨output, houtput, h⟩ := Option.bind_eq_some_iff.mp h
  obtain ⟨high, -, h⟩ := Option.bind_eq_some_iff.mp h
  obtain ⟨low, -, h⟩ := Option.bind_eq_some_iff.mp h
  cases h
  have hnonneg {read : StoredValues → Option I64} {total : I64}
      (hsum : sqlSum (column rows read) = some total)
      (hread : ∀ values : StoredValues, values.Checks → NonNegative (read values)) :
      0 ≤ total.val := by
    rw [val_of_sqlSum hsum]
    exact column_sum_nonneg fun row hrow => hread _ (hchecks row hrow).values
  obtain ⟨n₁, hn₁, -⟩ := count_of_nonneg "cache_read_input"
    (hnonneg hread fun _ h => h.cacheReadInput)
  obtain ⟨n₂, hn₂, -⟩ := count_of_nonneg "effective_input"
    (hnonneg heffective fun _ h => h.effectiveInput)
  obtain ⟨n₃, hn₃, -⟩ := count_of_nonneg "output" (hnonneg houtput fun _ h => h.output)
  exact ⟨⟨n₁, n₂, n₃⟩, by simp only [tokenTotals, hn₁, hn₂, hn₃]; rfl⟩

/-- The ratio is read exactly if no more was read from the cache than was put in. -/
theorem cacheTotals_ok_iff {cache : I64 × I64} (hchecks : ∀ row ∈ rows, row.Checks)
    (h : cacheRow rows = some cache) :
    (∃ totals, cacheTotals cache = .ok totals) ↔
      (column (cacheReported rows) (·.cacheReadInput)).sum ≤
        (column (cacheReported rows) (·.effectiveInput)).sum := by
  obtain ⟨reported, hreported, h⟩ := Option.bind_eq_some_iff.mp h
  obtain ⟨read, hread, h⟩ := Option.bind_eq_some_iff.mp h
  cases h
  have hreported' := val_of_sqlSum hreported
  have hread' := val_of_sqlSum hread
  have hchecks' : ∀ row ∈ cacheReported rows, row.values.Checks := fun row hrow =>
    (hchecks row (mem_of_mem_filter hrow)).values
  obtain ⟨n, hn, hval⟩ := count_of_nonneg "cache_reported_input"
    (hreported' ▸ column_sum_nonneg fun row hrow => (hchecks' row hrow).effectiveInput)
  obtain ⟨m, hm, hval'⟩ := count_of_nonneg "cache_rate_read_input"
    (hread' ▸ column_sum_nonneg fun row hrow => (hchecks' row hrow).cacheReadInput)
  rw [← hreported', ← hread', ← hval, ← hval']
  have htotals : cacheTotals (reported, read) =
      if n.val < m.val then .error ⟨"cache-read tokens exceed reported input tokens"⟩
      else .ok ⟨n, m⟩ := by
    simp only [cacheTotals, hn, hm]
    rfl
  rw [htotals, ← not_lt]
  split
  · next hlt => exact iff_of_false (by simp) (not_not.mpr hlt)
  · next hle => exact iff_of_true ⟨_, rfl⟩ hle

/-- The recombined halves are the exact cost. -/
theorem costTotals_eq (h : totalsRow rows = some row) :
    (costTotals row).map IntRange.val =
      if rows.any isComplete then some (completeAtoms rows).sum else none := by
  obtain ⟨_, -, h⟩ := Option.bind_eq_some_iff.mp h
  obtain ⟨_, -, h⟩ := Option.bind_eq_some_iff.mp h
  obtain ⟨_, -, h⟩ := Option.bind_eq_some_iff.mp h
  obtain ⟨high, hhigh, h⟩ := Option.bind_eq_some_iff.mp h
  obtain ⟨low, hlow, h⟩ := Option.bind_eq_some_iff.mp h
  cases h
  have hcount : 0 < (rows.filter isComplete).length ↔ rows.any isComplete = true := by
    rw [length_filter_pos_iff, any_eq_true]
  have hatoms : (recombineAtoms high low).val = (completeAtoms rows).sum := by
    rw [← sum_split, ← val_of_sqlSum hhigh, ← val_of_sqlSum hlow]
    rfl
  simp only [costTotals, hcount]
  split
  · rw [Option.map_some, hatoms]
  · rfl

end Overview

/-- If the sums stay within 64 bits, the overview of a scope is available exactly when its attempts
that report both read no more from the cache than they put in.  Its cost is then the exact sum of
the complete costs. -/
theorem overview_available_iff (db : UsageDb) (scope : UsageScope)
    (hfits : (totalsRow (scopedFrom db scope)).isSome ∧ (cacheRow (scopedFrom db scope)).isSome) :
    let rows := scopedFrom db scope
    ((∃ report, overview db scope = .ok report) ↔
      (column (cacheReported rows) (·.cacheReadInput)).sum ≤
        (column (cacheReported rows) (·.effectiveInput)).sum) ∧
      ∀ report, overview db scope = .ok report → report.cost.map IntRange.val =
        if rows.any isComplete then some (completeAtoms rows).sum else none := by
  intro rows
  obtain ⟨row, hrow⟩ := Option.isSome_iff_exists.mp hfits.1
  obtain ⟨cache, hcache⟩ := Option.isSome_iff_exists.mp hfits.2
  have hchecks : ∀ row ∈ rows, row.Checks := checks_of_mem_scopedFrom
  obtain ⟨tokens, htokens⟩ := tokenTotals_eq_ok hchecks hrow
  have hoverview : overview db scope = (cacheTotals cache).map fun totals =>
      ⟨(scopedDispatchedRequestsFrom db scope).length, tokens, totals, costTotals row⟩ := by
    rw [overview, hrow, hcache]
    change tokenTotals row >>= _ = _
    rw [htokens]
    cases cacheTotals cache <;> rfl
  rw [hoverview]
  refine ⟨Iff.trans ?_ (cacheTotals_ok_iff hchecks hcache), fun report hreport => ?_⟩
  · cases cacheTotals cache <;> simp [Except.map]
  · obtain ⟨_, -, rfl⟩ := Fold.map_eq_ok.mp hreport
    exact costTotals_eq hrow

/-- A finished request, whose attempt reports one token of input and some read from the cache. -/
def reportedDb (cacheRead : I64) : UsageDb :=
  let tracker := (meteredAttempt (.lit 1 (Eq.refl true))).attempt
  let contract := { tracker.spec.contract with cacheCapability := .supported }
  let usage : RawUsageFields :=
    { input := some (.lit 1 (Eq.refl true)), cacheRead := some cacheRead }
  let facts := attemptFacts "r1"
    { tracker with
      spec := { tracker.spec with contract }
      state := { tracker.state with rawUsage := some (some usage) } } 5
  let db := runOps (oneKeyDb "0") [.beginLogicalRequest (keyStart "r1"), .recordAttempt facts]
  let terminal : LogicalRequestTerminal := ⟨"r1", 10, .succeeded, some .stableSuccessTerminal,
    some .cleanEof, some "r1#1", .complete, 1⟩
  commit db ((completeLogicalRequest db terminal).map Prod.snd)

theorem overview_available_iff_cached :
    let scope : UsageScope := { ownerUserId := "user", range := ⟨0, 100⟩ }
    ∃ report, overview (reportedDb (.lit 1 rfl)) scope = .ok report :=
  (overview_available_iff _ _ (by decide)).1.mpr (by decide)

/-- A report of more cached tokens than input takes the owner's overview away. -/
theorem overview_unavailable :
    overview (reportedDb (.lit 1000 rfl)) { ownerUserId := "user", range := ⟨0, 100⟩ } =
      .error ⟨"cache-read tokens exceed reported input tokens"⟩ := by
  decide

end ProviderCore.Storage
