import ProviderCore.Auth.Amounts
import ProviderCore.Storage.Spend

/-!
# Admission by quota

`admit_api_key_quota` of `sqlite/auth.rs`: a key is turned away once its lifetime spend has reached
its limit, both compared as digit strings.  `quota_arithmetic_exact` says that nothing on the way
from a decimal limit to that decision rounds.
-/

namespace ProviderCore.Storage

open Auth

inductive QuotaAdmissionOutcome
  | admitted
  | unlimited
  | exceeded
deriving DecidableEq

structure AuthRepositoryError where
  message : String
deriving DecidableEq

def admitApiKeyQuota (db : UsageDb) (apiKeyId : String) :
    Except AuthRepositoryError QuotaAdmissionOutcome :=
  match db.apiKeys.find? apiKeyId with
  | none => .error ⟨"API key quota is unavailable"⟩
  | some key =>
    match key.quotaLimitAtoms with
    | none => .ok .unlimited
    | some limit =>
      match atomsGe key.spentAtoms limit with
      | .error _ => .error ⟨"invalid quota admission value"⟩
      | .ok true => .ok .exceeded
      | .ok false => .ok .admitted

/-- The `CHECK` constraints on the amounts of a key: a limit is positive and has no leading zero. -/
structure ApiKeyRow.AmountChecks (key : ApiKeyRow) : Prop where
  limit : ∀ limit ∈ key.quotaLimitAtoms, ValidAtoms limit ∧ limit.toList.head? ≠ some '0'
  spent : ValidAtoms key.spentAtoms

theorem addAtoms_eq_error_iff {left right : String} (hl : ValidAtoms left) (hr : ValidAtoms right) :
    addAtoms left right = .error {} ↔ 10 ^ 64 ≤ atomsValue left + atomsValue right := by
  constructor
  · intro herror
    by_contra hfits
    obtain ⟨_, hok⟩ := exists_addAtoms hl hr (not_le.mp hfits)
    cases herror.symm.trans hok
  · intro hlarge
    rcases hadd : addAtoms left right with _ | text
    · rfl
    · obtain ⟨-, -, htext, hvalue⟩ := addAtoms_eq_ok hadd
      have hlt := (Decimal.value_lt htext.2.2).trans_le (Nat.pow_le_pow_right (by decide) htext.2.1)
      rw [← hvalue] at hlarge
      exact absurd hlarge (not_le.mpr hlt)

theorem admitApiKeyQuota_eq {db : UsageDb} {apiKeyId : String} {key : ApiKeyRow}
    (hkey : db.apiKeys.find? apiKeyId = some key) (h : key.AmountChecks) :
    admitApiKeyQuota db apiKeyId = .ok (match key.quotaLimitAtoms with
      | none => .unlimited
      | some limit =>
        if atomsValue limit ≤ spentOf db apiKeyId then .exceeded else .admitted) := by
  have hspent : spentOf db apiKeyId = atomsValue key.spentAtoms := by simp [spentOf, hkey]
  unfold admitApiKeyQuota
  rcases hlimit : key.quotaLimitAtoms with _ | limit
  · simp [hkey, hlimit]
  · simp only [hkey, hlimit, atomsGe_eq h.spent (h.limit limit hlimit).1, hspent]
    by_cases hreached : atomsValue limit ≤ atomsValue key.spentAtoms <;> simp [hreached]

/-- Sums, comparisons and limits are those of the numbers, what is written for an amount is read
as that amount, and a key is turned away exactly once its spend has reached its limit. -/
theorem quota_arithmetic_exact :
    (∀ left right, ValidAtoms left → ValidAtoms right →
      (∀ text, addAtoms left right = .ok text →
        ValidAtoms text ∧ atomsValue text = atomsValue left + atomsValue right) ∧
      (addAtoms left right = .error {} ↔ 10 ^ 64 ≤ atomsValue left + atomsValue right)) ∧
    (∀ left right, ValidAtoms left → ValidAtoms right →
      atomsGe left right = .ok (decide (atomsValue right ≤ atomsValue left))) ∧
    (∀ input atoms, parseQuotaLimitUsd input = .ok atoms ↔ ∃ n : ℕ,
      AmountOf input (n / 10 ^ usdAtomScale) ∧ 0 < n ∧ n < 10 ^ 64 ∧ toString n = atoms) ∧
    (∀ atoms, ValidAtoms atoms → 0 < atomsValue atoms → ∃ text, formatUsdAtoms atoms = .ok text ∧
      parseQuotaLimitUsd text = .ok (toString (atomsValue atoms))) ∧
    ∀ db apiKeyId key, db.apiKeys.find? apiKeyId = some key → key.AmountChecks →
      (admitApiKeyQuota db apiKeyId = .ok .exceeded ↔
        ∃ limit ∈ key.quotaLimitAtoms, atomsValue limit ≤ spentOf db apiKeyId) := by
  refine ⟨fun left right hl hr => ⟨fun text htext => (addAtoms_eq_ok htext).2.2,
    addAtoms_eq_error_iff hl hr⟩, fun left right => atomsGe_eq,
    fun input atoms => parseQuotaLimitUsd_eq_ok, fun atoms => parse_formatUsdAtoms,
    fun db apiKeyId key hkey hchecks => ?_⟩
  rw [admitApiKeyQuota_eq hkey hchecks]
  rcases key.quotaLimitAtoms with _ | limit
  · simp
  · by_cases hreached : atomsValue limit ≤ spentOf db apiKeyId <;> simp [hreached]

/-- Half a dollar, as amounts with and without leading zeros. -/
theorem quota_arithmetic_exact_half :
    ValidAtoms "0050000000000000" ∧ ∃ text, formatUsdAtoms "0050000000000000" = .ok text ∧
      parseQuotaLimitUsd text = .ok (toString (atomsValue "0050000000000000")) :=
  ⟨by decide, quota_arithmetic_exact.2.2.2.1 _ (by decide) (by decide)⟩

/-! ## Exhausted keys -/

/-- The key is as it was, but for what was added to its spend. -/
def SpentSince (key : ApiKeyRow) (db : UsageDb) : Prop :=
  ∃ spentAtoms, db.apiKeys.find? key.id = some { key with spentAtoms } ∧ ValidAtoms spentAtoms ∧
    atomsValue key.spentAtoms ≤ atomsValue spentAtoms

variable {key : ApiKeyRow} {db : UsageDb}

theorem SpentSince.pay {db' : UsageDb} {apiKeyId atoms : String}
    (hpaid : addApiKeySpend db apiKeyId atoms = .ok db') (h : SpentSince key db) :
    SpentSince key db' := by
  have ⟨spent, hkey, hvalid, hle⟩ := h
  unfold addApiKeySpend at hpaid
  split at hpaid
  · cases hpaid
    exact h
  · next hfind =>
      split at hpaid
      · cases hpaid
      · next next hadd =>
          cases hpaid
          by_cases hid : apiKeyId = key.id
          · subst hid
            cases hkey.symm.trans hfind
            obtain ⟨-, -, hnext, hvalue⟩ := addAtoms_eq_ok hadd
            refine ⟨next, by simp [Table.find?_modify_self, hkey], hnext, hle.trans ?_⟩
            exact hvalue ▸ Nat.le_add_right _ _
          · exact ⟨spent, by rwa [Table.find?_modify_of_ne _ hid], hvalid, hle⟩

theorem SpentSince.exec (h : SpentSince key db) (op : UsageOp) : SpentSince key (op.exec db) := by
  by_cases hrecord : ∃ facts, op = .recordAttempt facts
  · obtain ⟨facts, rfl⟩ := hrecord
    refine commit_induction h fun db' hok => ?_
    rcases hfound : db.attempts.find? facts.attemptId with _ | known
    · obtain ⟨-, _, -, _, -, -, _, -, hcharge⟩ := (recordAttempt_eq_ok_of_fresh hfound).mp hok
      unfold chargeAttempt at hcharge
      split at hcharge
      · exact SpentSince.pay hcharge h
      · cases hcharge
        exact h
    · rwa [recordAttempt_known (by simp [hfound]) hok]
  · exact UsageOp.exec_induction h (fun _ _ h => h) SpentSince.pay fun facts heq =>
      hrecord ⟨facts, heq⟩

/-- Whatever is recorded, settled and recovered, a key's spend never goes down, and a key that was
turned away stays turned away. -/
theorem exceeded_is_final (ops : List UsageOp) (hkey : db.apiKeys.find? key.id = some key)
    (hchecks : key.AmountChecks) :
    spentOf db key.id ≤ spentOf (runOps db ops) key.id ∧
      (admitApiKeyQuota db key.id = .ok .exceeded →
        admitApiKeyQuota (runOps db ops) key.id = .ok .exceeded) := by
  obtain ⟨spent, hfind, hvalid, hle⟩ : SpentSince key (runOps db ops) := by
    refine List.foldlRecOn ops _ ⟨key.spentAtoms, hkey, hchecks.spent, le_rfl⟩ ?_
    exact fun _ h op _ => h.exec op
  have hafter := admitApiKeyQuota_eq hfind ⟨hchecks.limit, hvalid⟩
  have hspent : spentOf db key.id ≤ spentOf (runOps db ops) key.id := by
    simpa [spentOf, hkey, hfind] using hle
  refine ⟨hspent, fun hexceeded => ?_⟩
  rw [hafter]
  rw [admitApiKeyQuota_eq hkey hchecks] at hexceeded
  rcases hlimit : key.quotaLimitAtoms with _ | limit
  · simp [hlimit] at hexceeded
  · simp only [hlimit, Except.ok.injEq, ite_eq_left_iff, reduceCtorEq, imp_false, not_not]
      at hexceeded ⊢
    exact hexceeded.trans hspent

/-- A key at its limit, and a claim of it that is settled for more. -/
theorem exceeded_is_final_settled :
    admitApiKeyQuota (runOps (oneKeyDb "100") settledTwice) "key" = .ok .exceeded :=
  (@exceeded_is_final ((oneKeyDb "100").apiKeys.rows.head (by decide)) _ settledTwice
    (by decide) ⟨by decide, by decide⟩).2 (by decide)

end ProviderCore.Storage
