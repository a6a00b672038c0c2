import ProviderCore.Usage.Cost

/-!
# What a normalized report says

Each metric of a normalized report is known exactly when the counts it is made of are, and then it
is their exact sum or difference (`exactUncached`, `exactEffective`, `exactTotal`).  The counts are
integers here: nothing is cut off at zero or at 64 bits.
-/

namespace ProviderCore.Usage

open IntRange TokenMetric

/-! ## Exact counts -/

/-- A reported count, if it is one. -/
def count (raw : Option I64) : Option ℤ :=
  raw.bind fun value => if 0 ≤ value.val then some value.val else none

/-- A number that 64 bits hold. -/
def fits (n : ℤ) : Option ℤ := if n < 18446744073709551616 then some n else none

/-- What a category adds to a sum: nothing if it does not apply. -/
def share (applicable : Bool) (n : Option ℤ) : Option ℤ := if applicable then n else some 0

def UsageContractSnapshot.cacheReadable (contract : UsageContractSnapshot) : Bool :=
  contract.cacheCapability ≠ .unsupported

def UsageContractSnapshot.cacheWritable (contract : UsageContractSnapshot) : Bool :=
  contract.cacheReadable && contract.inclusion.cacheWriteApplicable

/-- The rules of a provider whose input categories exclude one another. -/
def sampleInclusion : TokenInclusionRules where
  inputIncludesCache := false
  inputCategoriesMutuallyExclusive := true
  reasoningIncludedInOutput := true
  reasoningApplicable := true
  audioApplicable := false
  cacheWriteApplicable := true
  missingCacheReadMeansZero := false
  totalSource := .reported

def sampleContract (inclusion : TokenInclusionRules) : UsageContractSnapshot where
  contractVersion := .lit 1 (Eq.refl true)
  normalizationVersion := .lit 1 (Eq.refl true)
  inclusion := inclusion
  cacheCapability := .supported
  cacheEligibility := .eligible
  cacheReportingExpectation := .expected
  pricingContextBasis := .effectiveInput
  pricingMode := .default

section

variable (fields : Option RawUsageFields) (contract : UsageContractSnapshot)

def exactInput : Option ℤ := count (fields.bind RawUsageFields.input)

def exactOutput : Option ℤ := count (fields.bind RawUsageFields.output)

/-- A field that the contract may rule out. -/
def exactField (field : RawUsageFields → Option I64) (applicable : Bool) : Option ℤ :=
  if applicable then count (fields.bind field) else none

/-- A contract may say that a missing count of cached tokens means zero. -/
def exactCacheRead : Option ℤ :=
  if fields.bind RawUsageFields.cacheRead = none ∧ (exactInput fields).isSome ∧
      contract.cacheReadable ∧ contract.inclusion.missingCacheReadMeansZero then some 0
  else exactField fields RawUsageFields.cacheRead contract.cacheReadable

def exactCacheWrite : Option ℤ :=
  exactField fields RawUsageFields.cacheWrite contract.cacheWritable

/-- An input that includes the cached tokens is more than those. -/
def exactUncached : Option ℤ :=
  if contract.inclusion.inputIncludesCache && contract.cacheReadable then do
    let input ← exactInput fields
    let read ← exactCacheRead fields contract
    if read ≤ input then some (input - read) else none
  else exactInput fields

def exactEffective : Option ℤ :=
  if contract.inclusion.inputIncludesCache then exactInput fields
  else if contract.inclusion.inputCategoriesMutuallyExclusive then do
    let input ← exactInput fields
    let read ← share contract.cacheReadable (exactCacheRead fields contract)
    let write ← share contract.cacheWritable (exactCacheWrite fields contract)
    fits (input + read + write)
  else none

def exactTotal : Option ℤ :=
  match contract.inclusion.totalSource with
  | .reported => count (fields.bind RawUsageFields.total)
  | .derivedSum _ => do
      let input ← exactEffective fields contract
      let output ← exactOutput fields
      fits (input + output)
  | .unavailable => none

def exactPricingContext : Option ℤ :=
  match contract.pricingContextBasis with
  | .effectiveInput => exactEffective fields contract
  | .unknown => none

end

/-! ## Metrics without their warnings -/

def TokenMetric.value (metric : TokenMetric) : Option ℤ := metric.knownValue.map val

variable {metric : TokenMetric}

theorem TokenMetric.value_eq_some {n : ℤ} :
    metric.value = some n ↔ ∃ v, metric.knownValue = some v ∧ v.val = n := by
  simp [TokenMetric.value]

@[simp] theorem TokenMetric.value_eq_none : metric.value = none ↔ metric.knownValue = none := by
  simp [TokenMetric.value]

/-- A metric that a warning was never about. -/
def fieldMetric (raw : Option I64) (applicable : Bool) : TokenMetric :=
  (classify raw applicable []).1

@[simp] theorem classify_fst (raw : Option I64) (applicable : Bool) (warnings : Warnings) :
    (classify raw applicable warnings).1 = fieldMetric raw applicable := by
  rcases applicable with _ | _
  · rcases raw with _ | value
    · rfl
    · by_cases hzero : value.val = 0 <;> simp [fieldMetric, classify, hzero]
  · rcases raw with _ | value
    · rfl
    · rcases hcount : u64TryFrom value with _ | _ <;> simp [fieldMetric, classify, hcount]

theorem fieldMetric_false (raw : Option I64) : fieldMetric raw false = .notApplicable := by
  rcases raw with _ | value
  · rfl
  · by_cases hzero : value.val = 0 <;> simp [fieldMetric, classify, hzero]

theorem u64TryFrom_map_val (value : I64) :
    (u64TryFrom value).map val = if 0 ≤ value.val then some value.val else none := by
  have hlt := value.lt
  exact tryFrom_map_val.trans (if_congr (by omega) rfl rfl)

theorem value_fieldMetric_true (raw : Option I64) : (fieldMetric raw true).value = count raw := by
  rcases raw with _ | value
  · rfl
  · have hcount := u64TryFrom_map_val value
    rcases hfit : u64TryFrom value with _ | v <;> rw [hfit] at hcount <;>
      simpa [fieldMetric, classify, hfit, TokenMetric.value, knownValue, count]
        using hcount

theorem value_fieldMetric (raw : Option I64) (applicable : Bool) :
    (fieldMetric raw applicable).value = if applicable then count raw else none := by
  cases applicable with
  | true => exact value_fieldMetric_true raw
  | false => rw [fieldMetric_false]; rfl

theorem value_classify_fst (raw : Option I64) (applicable : Bool) (warnings : Warnings) :
    (classify raw applicable warnings).1.value = if applicable then count raw else none := by
  rw [classify_fst, value_fieldMetric]

theorem fieldMetric_eq_notApplicable {raw : Option I64} {applicable : Bool} :
    fieldMetric raw applicable = .notApplicable ↔ applicable = false := by
  cases applicable with
  | false => simp [fieldMetric_false]
  | true =>
    rcases raw with _ | value
    · simp [fieldMetric, classify]
    · rcases hcount : u64TryFrom value with _ | _ <;> simp [fieldMetric, classify, hcount]

/-! ## Derived metrics -/

theorem value_notApplicable : TokenMetric.notApplicable.value = none := rfl

theorem checkedSub_map_val {x y : U64} :
    (x.checkedSub y).map val =
      if y.val ≤ x.val then some (x.val - y.val) else none := by
  have hx := x.lt
  have hy := y.le
  exact tryFrom_map_val.trans (if_congr (by omega) rfl rfl)

theorem checkedAdd_map_val {x y : U64} :
    (x.checkedAdd y).map val = fits (x.val + y.val) := by
  have hx := x.le
  have hy := y.le
  exact tryFrom_map_val.trans (if_congr (by omega) rfl rfl)

/-- A sum of three that overflows on the way is too large in the end. -/
theorem checkedAdd_checkedAdd_map_val {x y z : U64} :
    ((x.checkedAdd y).bind fun part => part.checkedAdd z).map val =
      fits (x.val + y.val + z.val) := by
  have hsum := checkedAdd_map_val (x := x) (y := y)
  rcases hpart : x.checkedAdd y with _ | part
  · rw [hpart] at hsum
    have hz := z.le
    unfold fits at hsum ⊢
    split at hsum
    · cases hsum
    · rw [if_neg (by omega)]
      rfl
  · have hval := checkedAdd_eq_some.mp hpart
    rw [hval]
    exact checkedAdd_map_val

theorem value_derivedSum (sum : Option U64) (version : U16) (warnings : Warnings) :
    (derivedSum sum version warnings).1.value = sum.map val := by
  cases sum <;> rfl

theorem value_uncachedFromTotal (input read : TokenMetric) (version : U16) (warnings : Warnings) :
    (uncachedFromTotal input read version warnings).1.value =
      if read = .notApplicable then input.value
      else input.value.bind fun i => read.value.bind fun r =>
        if r ≤ i then some (i - r) else none := by
  unfold uncachedFromTotal
  rcases hinput : input.knownValue with _ | i
  · have hvalue : input.value = none := value_eq_none.mpr hinput
    simp [hvalue]
  · have hvalue : input.value = some i.val := by simp [TokenMetric.value, hinput]
    by_cases happlies : read = .notApplicable
    · subst happlies
      rw [if_pos rfl, hvalue]
      rfl
    · rw [if_neg happlies, hvalue, Option.bind_some]
      cases read with
      | providerReported r | derivedFromReported r =>
        refine Eq.trans ?_ checkedSub_map_val
        simp only [knownValue]
        rcases i.checkedSub r with _ | v <;> rfl
      | notApplicable => exact absurd rfl happlies
      | notReported | unknown => rfl

def TokenMetric.contribution (metric : TokenMetric) : Option ℤ :=
  (sumContribution metric).map val

theorem TokenMetric.contribution_eq :
    metric.contribution = if metric = .notApplicable then some 0 else metric.value := by
  cases metric <;> rfl

theorem TokenMetric.contribution_of {applicable : Bool}
    (h : metric = .notApplicable ↔ applicable = false) :
    metric.contribution = share applicable metric.value := by
  rw [contribution_eq, share]
  cases applicable <;> simp [h]

theorem value_effectiveFromCategories (input read write : TokenMetric) (version : U16)
    (warnings : Warnings) :
    (effectiveFromCategories input read write version warnings).1.value =
      input.contribution.bind fun i => read.contribution.bind fun r =>
        write.contribution.bind fun w => fits (i + r + w) := by
  unfold effectiveFromCategories TokenMetric.contribution
  rcases sumContribution input with _ | i
  · rfl
  rcases sumContribution read with _ | r
  · rfl
  rcases sumContribution write with _ | w
  · rfl
  · exact (value_derivedSum _ _ _).trans checkedAdd_checkedAdd_map_val

theorem value_totalMetric (source : TotalSource) (reported : Option I64)
    (effectiveInput output : TokenMetric) (warnings : Warnings) :
    (totalMetric source reported effectiveInput output warnings).1.value =
      match source with
      | .reported => count reported
      | .derivedSum _ => effectiveInput.value.bind fun i => output.value.bind fun o => fits (i + o)
      | .unavailable => none := by
  cases source with
  | reported => exact value_classify_fst _ true _
  | unavailable => rfl
  | derivedSum =>
    unfold totalMetric TokenMetric.value
    rcases effectiveInput.knownValue with _ | i
    · rfl
    rcases output.knownValue with _ | o
    · rfl
    · exact (value_derivedSum _ _ _).trans checkedAdd_map_val

/-! ## The metrics of a normalized report -/

section

variable (fields : RawUsageFields) (contract : UsageContractSnapshot)

/-- The metric of the cached tokens, which may be missing. -/
def cacheReadMetric : TokenMetric :=
  if contract.cacheReadable && fields.cacheRead.isNone &&
      (fieldMetric fields.input true).knownValue.isSome &&
      contract.inclusion.missingCacheReadMeansZero then
    .derivedFromReported (.lit 0 (Eq.refl true)) contract.normalizationVersion
  else fieldMetric fields.cacheRead contract.cacheReadable

def cacheWriteMetric : TokenMetric :=
  fieldMetric fields.cacheWrite contract.cacheWritable

theorem normalizeUsage_cacheRead :
    (normalizeUsage (some fields) contract).cacheReadInputTokens =
      cacheReadMetric fields contract := by
  simp only [normalizeUsage, apply_ite Prod.fst, classify_fst]
  rfl

theorem normalizeUsage_cacheWrite :
    (normalizeUsage (some fields) contract).cacheWriteInputTokens =
      cacheWriteMetric fields contract := classify_fst _ _ _

theorem normalizeUsage_output :
    (normalizeUsage (some fields) contract).outputTokens = fieldMetric fields.output true := by
  simp [normalizeUsage]

theorem value_cacheReadMetric :
    (cacheReadMetric fields contract).value = exactCacheRead (some fields) contract := by
  have hinput : (fieldMetric fields.input true).knownValue.isSome =
      (exactInput (some fields)).isSome := by
    rw [exactInput, Option.bind_some, ← value_fieldMetric_true, TokenMetric.value,
      Option.isSome_map]
  unfold cacheReadMetric exactCacheRead exactField
  rw [hinput, Option.bind_some]
  rcases hread : fields.cacheRead with _ | read
  · by_cases hzero : (exactInput (some fields)).isSome = true ∧ contract.cacheReadable = true ∧
        contract.inclusion.missingCacheReadMeansZero = true
    · obtain ⟨hsome, hreadable, hmissing⟩ := hzero
      simp [hsome, hreadable, hmissing, TokenMetric.value, knownValue]
    · rw [if_neg (by simp only [Bool.and_eq_true]; tauto), if_neg (by tauto)]
      exact value_fieldMetric _ _
  · rw [if_neg (by simp), if_neg (by simp)]
    exact value_fieldMetric _ _

variable {fields contract} in
theorem cacheReadMetric_eq_notApplicable :
    cacheReadMetric fields contract = .notApplicable ↔ contract.cacheReadable = false := by
  unfold cacheReadMetric
  split
  · rename_i h
    simp only [Bool.and_eq_true] at h
    simp [h.1.1.1]
  · exact fieldMetric_eq_notApplicable

theorem contribution_cacheReadMetric :
    (cacheReadMetric fields contract).contribution =
      share contract.cacheReadable (exactCacheRead (some fields) contract) := by
  rw [contribution_of cacheReadMetric_eq_notApplicable, value_cacheReadMetric]

theorem value_cacheWriteMetric :
    (cacheWriteMetric fields contract).value = exactCacheWrite (some fields) contract :=
  value_fieldMetric _ _

theorem contribution_cacheWriteMetric :
    (cacheWriteMetric fields contract).contribution =
      share contract.cacheWritable (exactCacheWrite (some fields) contract) := by
  rw [cacheWriteMetric, contribution_of fieldMetric_eq_notApplicable]
  exact congrArg (share _) (value_cacheWriteMetric fields contract)

theorem contribution_input (raw : Option I64) : (fieldMetric raw true).contribution = count raw :=
  (contribution_of fieldMetric_eq_notApplicable).trans (value_fieldMetric_true raw)

/-- Every metric of a report is what the counts in it add up to. -/
structure ProviderUsageObservation.Exact (observation : ProviderUsageObservation)
    (fields : Option RawUsageFields) (contract : UsageContractSnapshot) : Prop where
  uncachedInput : observation.uncachedInputTokens.value = exactUncached fields contract
  cacheRead : observation.cacheReadInputTokens.value = exactCacheRead fields contract
  cacheWrite : observation.cacheWriteInputTokens.value = exactCacheWrite fields contract
  effectiveInput : observation.effectiveInputTokens.value = exactEffective fields contract
  output : observation.outputTokens.value = exactOutput fields
  reasoning : observation.reasoningTokens.value =
    exactField fields RawUsageFields.reasoning contract.inclusion.reasoningApplicable
  inputAudio : observation.inputAudioTokens.value =
    exactField fields RawUsageFields.inputAudio contract.inclusion.audioApplicable
  outputAudio : observation.outputAudioTokens.value =
    exactField fields RawUsageFields.outputAudio contract.inclusion.audioApplicable
  total : observation.totalTokens.value = exactTotal fields contract
  pricingContext : observation.pricingContextTokens.value = exactPricingContext fields contract

/-- The two input metrics are made of the same three. -/
theorem exists_inputMetrics : ∃ warnings,
    let metrics := inputMetrics contract.inclusion (fieldMetric fields.input true)
      (cacheReadMetric fields contract) (cacheWriteMetric fields contract)
      contract.normalizationVersion warnings
    (normalizeUsage (some fields) contract).uncachedInputTokens = metrics.1 ∧
      (normalizeUsage (some fields) contract).effectiveInputTokens = metrics.2.1 := by
  rw [← normalizeUsage_cacheRead fields contract, ← normalizeUsage_cacheWrite fields contract,
    ← classify_fst fields.input true []]
  exact ⟨_, rfl, rfl⟩

theorem value_uncachedInput :
    (normalizeUsage (some fields) contract).uncachedInputTokens.value =
      exactUncached (some fields) contract := by
  obtain ⟨_, huncached, -⟩ := exists_inputMetrics fields contract
  have hinput := value_fieldMetric_true fields.input
  rw [huncached]
  unfold inputMetrics exactUncached exactInput
  rw [Option.bind_some, ← hinput]
  rcases hincludes : contract.inclusion.inputIncludesCache with _ | _
  · simp only [Bool.false_eq_true, if_false, Bool.false_and]
    split <;> rfl
  · simp only [if_true, Bool.true_and]
    rw [value_uncachedFromTotal]
    rcases hreadable : contract.cacheReadable with _ | _
    · rw [if_pos (cacheReadMetric_eq_notApplicable.mpr hreadable)]
      rfl
    · have happlies : cacheReadMetric fields contract ≠ .notApplicable := by
        simp [cacheReadMetric_eq_notApplicable, hreadable]
      rw [if_neg happlies, value_cacheReadMetric]
      rfl

theorem value_effectiveInput :
    (normalizeUsage (some fields) contract).effectiveInputTokens.value =
      exactEffective (some fields) contract := by
  obtain ⟨_, -, heffective⟩ := exists_inputMetrics fields contract
  rw [heffective]
  unfold inputMetrics exactEffective exactInput
  rcases hincludes : contract.inclusion.inputIncludesCache with _ | _
  · rcases hexclusive : contract.inclusion.inputCategoriesMutuallyExclusive with _ | _
    · rfl
    · simp only [Bool.false_eq_true, if_false, if_true]
      rw [value_effectiveFromCategories, contribution_input, contribution_cacheReadMetric,
        contribution_cacheWriteMetric]
      rfl
  · exact value_fieldMetric_true fields.input

theorem value_total :
    (normalizeUsage (some fields) contract).totalTokens.value =
      exactTotal (some fields) contract := by
  have htotal : ∃ warnings, (normalizeUsage (some fields) contract).totalTokens =
      (totalMetric contract.inclusion.totalSource fields.total
        (normalizeUsage (some fields) contract).effectiveInputTokens
        (normalizeUsage (some fields) contract).outputTokens warnings).1 := ⟨_, rfl⟩
  obtain ⟨_, htotal⟩ := htotal
  rw [htotal, value_totalMetric, value_effectiveInput, normalizeUsage_output,
    value_fieldMetric_true]
  rfl

end

theorem normalizeUsage_exact (fields : Option RawUsageFields) (contract : UsageContractSnapshot) :
    (normalizeUsage fields contract).Exact fields contract := by
  rcases fields with _ | fields
  · have hfield (field : RawUsageFields → Option I64) (applicable : Bool) :
        exactField none field applicable = none := by
      cases applicable <;> rfl
    have hread : exactCacheRead none contract = none := by
      simp [exactCacheRead, exactInput, hfield, count]
    have heffective : exactEffective none contract = none := by
      simp [exactEffective, exactInput, count]
    constructor
    · simp [normalizeUsage, noUsageObservation, exactUncached, exactInput, count, knownValue]
    · exact hread.symm
    · exact (hfield _ _).symm
    · exact heffective.symm
    · rfl
    · exact (hfield _ _).symm
    · exact (hfield _ _).symm
    · exact (hfield _ _).symm
    · unfold exactTotal
      split
      · rfl
      · rw [heffective]
        rfl
      · rfl
    · unfold exactPricingContext
      split
      · exact heffective.symm
      · rfl
  · constructor
    · exact value_uncachedInput fields contract
    · rw [normalizeUsage_cacheRead]
      exact value_cacheReadMetric fields contract
    · rw [normalizeUsage_cacheWrite]
      exact value_cacheWriteMetric fields contract
    · exact value_effectiveInput fields contract
    · rw [normalizeUsage_output]
      exact value_fieldMetric_true fields.output
    · exact value_classify_fst _ _ _
    · exact value_classify_fst _ _ _
    · exact value_classify_fst _ _ _
    · exact value_total fields contract
    · have hcontext : (normalizeUsage (some fields) contract).pricingContextTokens =
          match contract.pricingContextBasis with
          | .effectiveInput => (normalizeUsage (some fields) contract).effectiveInputTokens
          | .unknown => indeterminate := rfl
      rw [hcontext]
      unfold exactPricingContext
      split
      · exact value_effectiveInput fields contract
      · rfl

end ProviderCore.Usage
