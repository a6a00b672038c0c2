import ProviderCore.Usage.NormalizeExact

/-!
# Normalization neither loses nor invents tokens

The input categories of a report partition its effective input, unless the contract counts written
cache tokens inside the input: those are not taken out of the uncached part.  A report that
contradicts its contract is warned about, and then no cost is complete.
-/

namespace ProviderCore.Usage

open TokenMetric

/-! ## The input categories -/

theorem count_nonneg {raw : Option I64} {n : ℤ} (h : count raw = some n) : 0 ≤ n := by
  obtain ⟨_, -, hvalue⟩ := Option.bind_eq_some_iff.mp h
  split at hvalue
  · cases hvalue
    assumption
  · cases hvalue

variable {fields : Option RawUsageFields}

theorem exactField_nonneg {field : RawUsageFields → Option I64}
    {applicable : Bool} {n : ℤ} (h : exactField fields field applicable = some n) : 0 ≤ n := by
  unfold exactField at h
  split at h
  · exact count_nonneg h
  · cases h

/-- The input categories add up to the effective input, if all of them are known. -/
def ProviderUsageObservation.Partitioned (observation : ProviderUsageObservation) : Prop :=
  ∀ uncached read write effective,
    observation.uncachedInputTokens.contribution = some uncached →
    observation.cacheReadInputTokens.contribution = some read →
    observation.cacheWriteInputTokens.contribution = some write →
    observation.effectiveInputTokens.contribution = some effective →
    effective = uncached + read + write

/-- Written tokens that the input includes already. -/
def WrittenTwice (fields : Option RawUsageFields) (contract : UsageContractSnapshot) : Prop :=
  contract.inclusion.inputIncludesCache = true ∧ (exactUncached fields contract).isSome = true ∧
    ∃ write, exactCacheWrite fields contract = some write ∧ 0 < write

variable {warnings : Warnings}

section

variable {fields : RawUsageFields} {contract : UsageContractSnapshot}

theorem contribution_of_ne {metric : TokenMetric} (h : metric ≠ .notApplicable) :
    metric.contribution = metric.value := by rw [contribution_eq, if_neg h]

theorem uncachedInput_ne_notApplicable :
    (normalizeUsage (some fields) contract).uncachedInputTokens ≠ .notApplicable := by
  obtain ⟨_, huncached, -⟩ := exists_inputMetrics fields contract
  have hinput : fieldMetric fields.input true ≠ .notApplicable := by
    simp [fieldMetric_eq_notApplicable]
  rw [huncached]
  unfold inputMetrics
  split
  · unfold uncachedFromTotal
    dsimp only
    split
    · simp
    · split
      · split <;> simp
      · simp [indeterminate]
    · exact hinput
  · split <;> exact hinput

theorem derivedSum_ne_notApplicable {sum : Option U64} {version : U16} :
    (derivedSum sum version warnings).1 ≠ .notApplicable := by
  cases sum <;> simp [derivedSum, indeterminate]

theorem effectiveInput_ne_notApplicable :
    (normalizeUsage (some fields) contract).effectiveInputTokens ≠ .notApplicable := by
  obtain ⟨_, -, heffective⟩ := exists_inputMetrics fields contract
  rw [heffective]
  unfold inputMetrics
  split
  · simp [fieldMetric_eq_notApplicable]
  · split
    · unfold effectiveFromCategories
      dsimp only
      split
      · exact derivedSum_ne_notApplicable
      · simp [indeterminate]
    · simp [indeterminate]

theorem classify_eq_notApplicable {raw : Option I64} {applicable : Bool} :
    (classify raw applicable warnings).1 = .notApplicable ↔ applicable = false := by
  rw [classify_fst, fieldMetric_eq_notApplicable]

theorem totalMetric_eq_notApplicable {source : TotalSource} {reported : Option I64}
    {effective output : TokenMetric}
    (h : (totalMetric source reported effective output warnings).1 = .notApplicable) :
    source = .unavailable := by
  unfold totalMetric at h
  split at h
  · cases classify_eq_notApplicable.mp h
  · split at h
    · exact absurd h derivedSum_ne_notApplicable
    · cases h
  · rfl

/-- What the categories have to add up to, in exact counts. -/
theorem partitioned_iff : (normalizeUsage (some fields) contract).Partitioned ↔
    ∀ uncached read write effective, exactUncached (some fields) contract = some uncached →
      share contract.cacheReadable (exactCacheRead (some fields) contract) = some read →
      share contract.cacheWritable (exactCacheWrite (some fields) contract) = some write →
      exactEffective (some fields) contract = some effective →
      effective = uncached + read + write := by
  unfold ProviderUsageObservation.Partitioned
  rw [contribution_of_ne uncachedInput_ne_notApplicable, value_uncachedInput,
    contribution_of_ne effectiveInput_ne_notApplicable, value_effectiveInput,
    normalizeUsage_cacheRead, normalizeUsage_cacheWrite, contribution_cacheReadMetric,
    contribution_cacheWriteMetric]

/-- An input that includes the cached tokens is the uncached and the cached ones. -/
theorem exactUncached_of_includes {uncached : ℤ}
    (hincludes : contract.inclusion.inputIncludesCache = true)
    (h : exactUncached fields contract = some uncached) :
    ∃ read, share contract.cacheReadable (exactCacheRead fields contract) = some read ∧
      exactEffective fields contract = some (uncached + read) := by
  unfold exactUncached at h
  unfold exactEffective share
  rw [hincludes] at h ⊢
  rcases hreadable : contract.cacheReadable with _ | _
  · rw [hreadable] at h
    exact ⟨0, rfl, by simpa using h⟩
  · rw [hreadable] at h
    simp only [Bool.and_self, if_true, Option.bind_eq_bind, Option.bind_eq_some_iff] at h
    obtain ⟨_, hinput, read, hread, hsplit⟩ := h
    split at hsplit
    · cases hsplit
      exact ⟨read, hread, by simp [hinput]⟩
    · cases hsplit

theorem share_cacheWrite_nonneg {write : ℤ}
    (h : share contract.cacheWritable (exactCacheWrite fields contract) = some write) :
    0 ≤ write := by
  unfold share at h
  split at h
  · exact exactField_nonneg h
  · cases h
    exact le_refl 0

end

/-- The input categories partition the effective input, except for what is written to a cache
under a contract that counts it inside the input. -/
theorem inputs_partitioned_iff (fields : Option RawUsageFields) (contract : UsageContractSnapshot) :
    (normalizeUsage fields contract).Partitioned ↔ ¬WrittenTwice fields contract := by
  rcases fields with _ | fields
  · refine ⟨fun _ htwice => ?_, fun _ uncached read write effective huncached => by cases huncached⟩
    obtain ⟨-, -, write, hwrite, -⟩ := htwice
    cases hwritable : contract.cacheWritable <;>
      simp [exactCacheWrite, exactField, count, hwritable] at hwrite
  rw [partitioned_iff]
  constructor
  · rintro hsum ⟨hincludes, hsome, write, hwrite, hpos⟩
    obtain ⟨uncached, huncached⟩ := Option.isSome_iff_exists.mp hsome
    obtain ⟨read, hread, heffective⟩ := exactUncached_of_includes hincludes huncached
    have hwritable : contract.cacheWritable = true := by
      by_contra hnot
      simp [exactCacheWrite, exactField, hnot] at hwrite
    have hshare : share contract.cacheWritable (exactCacheWrite (some fields) contract) =
        some write := by rw [share, hwritable, if_pos rfl, hwrite]
    have htotal := hsum uncached read write _ huncached hread hshare heffective
    omega
  · intro honce uncached read write effective huncached hread hwrite heffective
    rcases hincludes : contract.inclusion.inputIncludesCache with _ | _
    · rw [exactUncached, hincludes, Bool.false_and, if_neg Bool.false_ne_true] at huncached
      rw [exactEffective, hincludes, if_neg Bool.false_ne_true] at heffective
      split at heffective
      · simp only [Option.bind_eq_bind, huncached, hread, hwrite, Option.bind_some, fits]
          at heffective
        split at heffective
        · exact (Option.some.inj heffective).symm
        · cases heffective
      · cases heffective
    · obtain ⟨read', hread', heffective'⟩ := exactUncached_of_includes hincludes huncached
      have hzero : write = 0 := by
        have hnonneg := share_cacheWrite_nonneg hwrite
        by_contra hne
        refine honce ⟨hincludes, by rw [huncached]; rfl, write, ?_, by omega⟩
        unfold share at hwrite
        split at hwrite
        · exact hwrite
        · cases hwrite
          exact absurd rfl hne
      rw [hread] at hread'
      rw [heffective] at heffective'
      cases hread'
      cases heffective'
      omega

/-- A hundred tokens of input, forty of them written to a cache, are counted as a hundred and
forty. -/
theorem inputs_not_partitioned :
    let fields : RawUsageFields :=
      { input := some (.lit 100 rfl), cacheRead := some (.lit 0 rfl),
        cacheWrite := some (.lit 40 rfl), output := some (.lit 1 rfl) }
    ¬(normalizeUsage (some fields)
      (sampleContract { sampleInclusion with inputIncludesCache := true })).Partitioned := by
  intro fields h
  exact absurd (h 100 0 40 100 rfl rfl rfl rfl) (by decide)

/-! ## Contradictions -/

variable {c : Prop}

section

variable {warning : NormalizationWarning} {warnings : Warnings}

theorem mem_pushUnique {α : Type} [DecidableEq α] {l : List α} {a b : α} :
    b ∈ pushUnique l a ↔ b ∈ l ∨ b = a := by
  unfold pushUnique
  split
  · rename_i hmem
    refine ⟨.inl, ?_⟩
    rintro (h | rfl)
    · exact h
    · exact hmem
  · simp

theorem mem_classify (raw : Option I64) (applicable : Bool) (h : warning ∈ warnings) :
    warning ∈ (classify raw applicable warnings).2 := by
  unfold classify
  split
  · split
    · split
      · exact mem_pushUnique.mpr (.inl h)
      · exact h
    · exact h
  · split
    · exact h
    · split
      · exact h
      · exact mem_pushUnique.mpr (.inl h)

/-- A count that the contract rules out is warned about. -/
theorem fieldConflict_mem_classify {value : I64} (h : value.val ≠ 0) :
    .fieldConflict ∈ (classify (some value) false warnings).2 := by
  simp [classify, h, mem_pushUnique]

variable {version : U16}

section

variable (h : warning ∈ warnings)

include h

theorem mem_derivedSum {sum : Option U64} : warning ∈ (derivedSum sum version warnings).2 := by
  cases sum with
  | some => exact h
  | none => exact mem_pushUnique.mpr (.inl h)

theorem mem_inputMetrics {inclusion : TokenInclusionRules} {input read write : TokenMetric} :
    warning ∈ (inputMetrics inclusion input read write version warnings).2.2 := by
  unfold inputMetrics
  split
  · unfold uncachedFromTotal
    dsimp only
    split
    · exact h
    · split
      · split
        · exact h
        · exact mem_pushUnique.mpr (.inl h)
      · exact h
    · exact h
  · split
    · unfold effectiveFromCategories
      dsimp only
      split
      · exact mem_derivedSum h
      · exact h
    · exact h

theorem mem_totalMetric {source : TotalSource} {reported : Option I64}
    {effectiveInput output : TokenMetric} :
    warning ∈ (totalMetric source reported effectiveInput output warnings).2 := by
  unfold totalMetric
  split
  · exact mem_classify _ _ h
  · split
    · exact mem_derivedSum h
    · exact h
  · exact h

theorem mem_pushBillableTokens {billable : List BillableObservation} {code : BillableComponentCode}
    {raw : Option I64} : warning ∈ (pushBillableTokens billable code raw warnings).2 := by
  unfold pushBillableTokens
  split
  · exact h
  · split
    · split <;> exact h
    · exact mem_pushUnique.mpr (.inl h)

theorem mem_ite_pushUnique [Decidable c] {other : NormalizationWarning} :
    warning ∈ if c then pushUnique warnings other else warnings := by
  split
  · exact mem_pushUnique.mpr (.inl h)
  · exact h

end

end

theorem mem_snd_ite_of_neg {α : Type} [Decidable c] {warning : NormalizationWarning}
    {p q : α × Warnings} (hc : ¬c) (h : warning ∈ q.2) : warning ∈ (if c then p else q).2 := by
  rwa [if_neg hc]

theorem totalReconciles_eq_false {total effective output inputAudio outputAudio : TokenMetric}
    {t i o : ℤ} (htotal : total.value = some t) (heffective : effective.value = some i)
    (houtput : output.value = some o) (hne : t ≠ i + o)
    (hinputAudio : ∀ n, inputAudio.value = some n → n ≤ 0)
    (houtputAudio : ∀ n, outputAudio.value = some n → n ≤ 0) :
    totalReconciles total effective output inputAudio outputAudio = false := by
  have hsilent (metric : TokenMetric) (h : ∀ n, metric.value = some n → n ≤ 0) :
      (metric.knownValue.any fun value => decide (0 < value.val)) = false := by
    rcases hknown : metric.knownValue with _ | v
    · rfl
    · simpa using h v.val (by simp [TokenMetric.value, hknown])
  obtain ⟨t', ht', rfl⟩ := value_eq_some.mp htotal
  obtain ⟨i', hi', rfl⟩ := value_eq_some.mp heffective
  obtain ⟨o', ho', rfl⟩ := value_eq_some.mp houtput
  have hsum : i'.checkedAdd o' ≠ some t' := fun h =>
    hne (IntRange.checkedAdd_eq_some.mp h).symm
  simp [totalReconciles, hsilent inputAudio hinputAudio, hsilent outputAudio houtputAudio, ht', hi',
    ho', hsum]

/-- A count of a field that does not apply under the contract. -/
def RuledOut (fields : RawUsageFields) (contract : UsageContractSnapshot) (value : I64) : Prop :=
  (contract.cacheReadable = false ∧ fields.cacheRead = some value) ∨
  (contract.cacheWritable = false ∧ fields.cacheWrite = some value) ∨
  (contract.inclusion.reasoningApplicable = false ∧ fields.reasoning = some value) ∨
  (contract.inclusion.audioApplicable = false ∧
    (fields.inputAudio = some value ∨ fields.outputAudio = some value))

/-- The total that the contract takes from the report is not what the report adds up to. -/
def TotalDisagrees (fields : Option RawUsageFields) (contract : UsageContractSnapshot) : Prop :=
  contract.inclusion.totalSource = .reported ∧
  (∀ n, exactField fields RawUsageFields.inputAudio contract.inclusion.audioApplicable = some n →
    n ≤ 0) ∧
  (∀ n, exactField fields RawUsageFields.outputAudio contract.inclusion.audioApplicable = some n →
    n ≤ 0) ∧
  ∃ total effective output, exactTotal fields contract = some total ∧
    exactEffective fields contract = some effective ∧ exactOutput fields = some output ∧
    total ≠ effective + output

section

variable {fields : RawUsageFields} {contract : UsageContractSnapshot}

theorem fieldConflict_of_ruledOut {value : I64} (h : RuledOut fields contract value)
    (hvalue : value.val ≠ 0) :
    .fieldConflict ∈ (normalizeUsage (some fields) contract).warnings := by
  -- nothing that is warned about is forgotten by a later step
  refine mem_pushBillableTokens (mem_pushBillableTokens (mem_ite_pushUnique (mem_totalMetric
    (mem_inputMetrics ?_))))
  rcases h with ⟨hread, hraw⟩ | ⟨hwrite, hraw⟩ | ⟨hreasoning, hraw⟩ | ⟨haudio, hraw | hraw⟩
  · refine mem_classify _ _ (mem_classify _ _ (mem_classify _ _ (mem_classify fields.output true
      (mem_classify fields.cacheWrite _ ?_))))
    have hunread : decide (contract.cacheCapability ≠ .unsupported) = false := hread
    refine mem_snd_ite_of_neg (by simp [hunread]) ?_
    rw [hraw, hunread]
    exact fieldConflict_mem_classify hvalue
  · refine mem_classify _ _ (mem_classify _ _ (mem_classify _ _ (mem_classify fields.output true
      ?_)))
    have hunwritten : (decide (contract.cacheCapability ≠ .unsupported) &&
        contract.inclusion.cacheWriteApplicable) = false := hwrite
    rw [hunwritten, hraw]
    exact fieldConflict_mem_classify hvalue
  · refine mem_classify _ _ (mem_classify _ _ ?_)
    rw [hraw, hreasoning]
    exact fieldConflict_mem_classify hvalue
  · refine mem_classify _ _ ?_
    rw [hraw, haudio]
    exact fieldConflict_mem_classify hvalue
  · rw [hraw, haudio]
    exact fieldConflict_mem_classify hvalue

theorem fieldConflict_of_totalDisagrees (h : TotalDisagrees (some fields) contract) :
    .fieldConflict ∈ (normalizeUsage (some fields) contract).warnings := by
  obtain ⟨hsource, hinputAudio, houtputAudio, _, _, _, htotal, heffective,
    houtput, hne⟩ := h
  have hexact := normalizeUsage_exact (some fields) contract
  rw [← hexact.inputAudio] at hinputAudio
  rw [← hexact.outputAudio] at houtputAudio
  rw [← hexact.total] at htotal
  rw [← hexact.effectiveInput] at heffective
  rw [← hexact.output] at houtput
  have hrec := totalReconciles_eq_false htotal heffective houtput hne hinputAudio houtputAudio
  refine mem_pushBillableTokens (mem_pushBillableTokens ?_)
  rw [if_pos ⟨hsource, hrec⟩]
  exact mem_pushUnique.mpr (.inr rfl)

end

theorem not_complete_of_fieldConflict {observation : ProviderUsageObservation}
    (h : .fieldConflict ∈ observation.warnings) (contract : UsageContractSnapshot)
    (price : PriceResolution) :
    (computeObservedCatalogCost observation contract price).status ≠
      .completeForObservedCatalogComponents := by
  cases price with
  | resolved record =>
    simp only [computeObservedCatalogCost, costOfRecord]
    split
    · simp [ObservedCatalogCost.unavailable]
    · rename_i total reasons _
      have hreason : .usageFieldConflict ∈ coverageReasons observation contract record reasons := by
        simp only [coverageReasons, h, if_true]
        exact mem_pushUnique.mpr (.inr rfl)
      rw [if_neg (List.ne_nil_of_mem hreason)]
      simp
  | _ => simp [computeObservedCatalogCost, ObservedCatalogCost.unavailable]

/-- A metric without a value is one that was not reported or is not known; it is inapplicable only
if the contract says so. -/
structure ProviderUsageObservation.NothingRuledOut (observation : ProviderUsageObservation)
    (contract : UsageContractSnapshot) : Prop where
  uncachedInput : observation.uncachedInputTokens ≠ .notApplicable
  effectiveInput : observation.effectiveInputTokens ≠ .notApplicable
  output : observation.outputTokens ≠ .notApplicable
  pricingContext : observation.pricingContextTokens ≠ .notApplicable
  cacheRead : observation.cacheReadInputTokens = .notApplicable → contract.cacheReadable = false
  cacheWrite : observation.cacheWriteInputTokens = .notApplicable → contract.cacheWritable = false
  reasoning : observation.reasoningTokens = .notApplicable →
    contract.inclusion.reasoningApplicable = false
  inputAudio : observation.inputAudioTokens = .notApplicable →
    contract.inclusion.audioApplicable = false
  outputAudio : observation.outputAudioTokens = .notApplicable →
    contract.inclusion.audioApplicable = false
  total : observation.totalTokens = .notApplicable →
    contract.inclusion.totalSource = .unavailable

theorem normalizeUsage_nothingRuledOut (fields : Option RawUsageFields)
    (contract : UsageContractSnapshot) :
    (normalizeUsage fields contract).NothingRuledOut contract := by
  rcases fields with _ | fields
  · constructor <;> simp [normalizeUsage, noUsageObservation]
  · constructor
    · exact uncachedInput_ne_notApplicable
    · exact effectiveInput_ne_notApplicable
    · simp [normalizeUsage_output, fieldMetric_eq_notApplicable]
    · obtain ⟨_, _, _, _, _, _, basis, _⟩ := contract
      cases basis with
      | effectiveInput => exact effectiveInput_ne_notApplicable
      | unknown => exact TokenMetric.noConfusion
    · rw [normalizeUsage_cacheRead]
      exact cacheReadMetric_eq_notApplicable.mp
    · exact classify_eq_notApplicable.mp
    · exact classify_eq_notApplicable.mp
    · exact classify_eq_notApplicable.mp
    · exact classify_eq_notApplicable.mp
    · intro htotal
      exact totalMetric_eq_notApplicable htotal

/-- Normalization invents no number and flags every contradiction. -/
theorem normalization_sound (fields : Option RawUsageFields) (contract : UsageContractSnapshot) :
    (normalizeUsage fields contract).Exact fields contract ∧
      (normalizeUsage fields contract).NothingRuledOut contract ∧
      (∀ report ∈ fields, ∀ value : I64, value.val ≠ 0 → RuledOut report contract value →
        .fieldConflict ∈ (normalizeUsage fields contract).warnings) ∧
      (TotalDisagrees fields contract →
        .fieldConflict ∈ (normalizeUsage fields contract).warnings) ∧
      ∀ price, .fieldConflict ∈ (normalizeUsage fields contract).warnings →
        (computeObservedCatalogCost (normalizeUsage fields contract) contract price).status ≠
          .completeForObservedCatalogComponents := by
  refine ⟨normalizeUsage_exact fields contract, normalizeUsage_nothingRuledOut fields contract,
    ?_, ?_, fun price h => not_complete_of_fieldConflict h contract price⟩
  · rintro _ hreport _ hvalue hruled
    cases hreport
    exact fieldConflict_of_ruledOut hruled hvalue
  · intro hdisagrees
    rcases fields with _ | fields
    · obtain ⟨-, -, -, _, _, _, -, -, houtput, -⟩ := hdisagrees
      cases houtput
    · exact fieldConflict_of_totalDisagrees hdisagrees

/-- A total that the contract does not ask for may contradict the report without a warning, and the
cost is complete. -/
theorem unasked_total_unchecked :
    let fields : RawUsageFields :=
      { input := some (.lit 1 rfl), cacheRead := some (.lit 0 rfl),
        cacheWrite := some (.lit 0 rfl), output := some (.lit 1 rfl), total := some (.lit 5 rfl) }
    let contract := sampleContract { sampleInclusion with totalSource := .derivedSum (.lit 1 rfl) }
    let prices : ComponentPrices :=
      { uncachedInputPerMillion := some (.lit 1 rfl), outputPerMillion := some (.lit 1 rfl) }
    let record : InlinePriceRecord := .modelV2 ⟨.lit 2 rfl, .manual, prices, []⟩
    exactEffective (some fields) contract = some 1 ∧ exactOutput (some fields) = some 1 ∧
      fields.total = some (.lit 5 rfl) ∧ (normalizeUsage (some fields) contract).warnings = [] ∧
      (computeObservedCatalogCost (normalizeUsage (some fields) contract) contract
        (.resolved record)).status = .completeForObservedCatalogComponents := by
  refine ⟨rfl, rfl, rfl, rfl, rfl⟩

end ProviderCore.Usage
