import Mathlib.Data.List.Basic

/-!
# Logs of something that is stopped once

A log lists what was run on an object and the stops it was given.  Only the first stop counts:
`before` is what was run until then and `stoppedAt` is its time.  Both are settled by the first
stop, whatever is appended after it.
-/

universe u v

namespace StopLog

/-- Something that was run, or a stop with its time. -/
inductive Entry (α : Type u) (τ : Type v)
  | run (value : α)
  | stop (time : τ)
deriving DecidableEq

variable {α : Type u} {τ : Type v}

def before : List (Entry α τ) → List α
  | .run value :: log => value :: before log
  | _ => []

def stoppedAt : List (Entry α τ) → Option τ
  | .run _ :: log => stoppedAt log
  | .stop time :: _ => some time
  | [] => none

variable {log : List (Entry α τ)}

@[simp] theorem stoppedAt_append_run (value : α) :
    stoppedAt (log ++ [.run value]) = stoppedAt log := by
  induction log with
  | nil => rfl
  | cons entry _ ih =>
    cases entry with
    | run => exact ih
    | stop => rfl

@[simp] theorem stoppedAt_append_stop (time : τ) :
    stoppedAt (log ++ [.stop time]) = (stoppedAt log).or (some time) := by
  induction log with
  | nil => rfl
  | cons entry _ ih =>
    cases entry with
    | run => exact ih
    | stop => rfl

@[simp] theorem before_append_stop (time : τ) : before (log ++ [.stop time]) = before log := by
  induction log with
  | nil => rfl
  | cons entry _ ih =>
    cases entry with
    | run other => exact congrArg (other :: ·) ih
    | stop => rfl

theorem before_append_run_of_running (h : stoppedAt log = none) (value : α) :
    before (log ++ [.run value]) = before log ++ [value] := by
  induction log with
  | nil => rfl
  | cons entry _ ih =>
    cases entry with
    | run other => exact congrArg (other :: ·) (ih h)
    | stop => cases h

theorem before_append_run_of_stopped {time : τ} (h : stoppedAt log = some time) (value : α) :
    before (log ++ [.run value]) = before log := by
  induction log with
  | nil => cases h
  | cons entry _ ih =>
    cases entry with
    | run other => exact congrArg (other :: ·) (ih h)
    | stop => rfl

/-- A stopped log is what was run before the first stop, the stop, and the rest. -/
theorem eq_of_stoppedAt {time : τ} (h : stoppedAt log = some time) :
    ∃ rest, log = (before log).map .run ++ .stop time :: rest := by
  induction log with
  | nil => cases h
  | cons entry log ih =>
    cases entry with
    | run other =>
      obtain ⟨rest, hrest⟩ := ih h
      exact ⟨rest, congrArg (.run other :: ·) hrest⟩
    | stop =>
      cases h
      exact ⟨log, rfl⟩

end StopLog
