import ProviderCore.Lib.Newest

/-!
# Duplicate periods of a quota

An upstream reports one period with windows that differ a little.  Points whose windows agree
within a tolerance count as one period, of which the newest is kept.
-/

namespace ProviderCore.Storage

/-- An estimate of a quota's limit for a window, with what else is `estimated`. -/
structure QuotaLimitEstimatePoint (ε : Type*) where
  accountId : String
  groupKey : String
  metricKey : String
  metricPosition : ℕ
  periodKind : String
  durationSeconds : Option ℤ
  windowStartMs : ℤ
  windowEndMs : ℤ
  observedAtMs : ℤ
  estimated : ε

def duplicateWindowToleranceMs : ℕ := 5 * 60 * 1000

namespace QuotaLimitEstimatePoint

variable {ε : Type*} {a b : QuotaLimitEstimatePoint ε}

def Duplicate (existing point : QuotaLimitEstimatePoint ε) : Prop :=
  existing.accountId = point.accountId ∧ existing.groupKey = point.groupKey ∧
    existing.metricKey = point.metricKey ∧ existing.periodKind = point.periodKind ∧
    existing.durationSeconds = point.durationSeconds ∧
    (existing.windowStartMs - point.windowStartMs).natAbs ≤ duplicateWindowToleranceMs ∧
    (existing.windowEndMs - point.windowEndMs).natAbs ≤ duplicateWindowToleranceMs
deriving Decidable

theorem Duplicate.symm (h : a.Duplicate b) : b.Duplicate a := by
  obtain ⟨haccount, hgroup, hmetric, hkind, hduration, hstart, hend⟩ := h
  exact ⟨haccount.symm, hgroup.symm, hmetric.symm, hkind.symm, hduration.symm, by omega, by omega⟩

/-- The order by end of the window, place of the metric and metric. -/
def sortsBefore (a b : QuotaLimitEstimatePoint ε) : Bool :=
  a.windowEndMs < b.windowEndMs || a.windowEndMs == b.windowEndMs &&
    (a.metricPosition < b.metricPosition ||
      a.metricPosition == b.metricPosition && a.metricKey ≤ b.metricKey)

end QuotaLimitEstimatePoint

open QuotaLimitEstimatePoint Newest

variable {ε : Type*} (points : List (QuotaLimitEstimatePoint ε))

def dedupePeriodPoints : List (QuotaLimitEstimatePoint ε) :=
  (points.foldl (keep Duplicate observedAtMs) []).mergeSort sortsBefore

theorem apart_dedupePeriodPoints_iff : Apart Duplicate (dedupePeriodPoints points) ↔
    Apart Duplicate (points.foldl (keep Duplicate observedAtMs) []) :=
  (List.mergeSort_perm ..).pairwise_iff fun h h' => h h'.symm

end ProviderCore.Storage
