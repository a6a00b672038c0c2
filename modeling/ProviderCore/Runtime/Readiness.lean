import Mathlib.Data.Finset.Basic
import ProviderCore.Lib.Fold

/-!
# Recovery readiness

The catalog keeps the accounts whose recovery failed, and a flag that says whether there are none.
A call takes one lock at a time: it writes, reads the set back, looks up the flag, and stores what
it read while it holds the lock of the flag.  Installing and removing an account end with
`clearRecoveryFailure` and use none of this before.
-/

namespace ProviderCore.Runtime

open List

inductive RecoveryCall
  | markRecoveryFailed (accountId : String)
  | clearRecoveryFailure (accountId : String)
  | bindRecoveryReadiness (readiness : ℕ)
deriving DecidableEq

/-- What a call does next. -/
inductive RecoveryPhase
  | write (call : RecoveryCall)
  | readFailures
  | readReadiness (ready : Bool)
  /-- It holds the lock of the flag. -/
  | store (readiness : ℕ) (ready : Bool)
  | returned
deriving DecidableEq

structure RecoveryCatalog where
  recoveryFailures : Finset String := ∅
  /-- The flag that is bound, of numbered ones. -/
  recoveryReadiness : Option ℕ := none
  flags : ℕ → Bool

namespace RecoveryCatalog

variable (catalog : RecoveryCatalog)

def ready : Bool := catalog.recoveryFailures = ∅

/-- The next step of a call.  A flag is bound when no call holds the lock. -/
def perform (locked : Bool) : RecoveryPhase → Option (RecoveryPhase × RecoveryCatalog)
  | .write (.markRecoveryFailed accountId) => some (.readFailures,
      { catalog with recoveryFailures := insert accountId catalog.recoveryFailures })
  | .write (.clearRecoveryFailure accountId) => some (.readFailures,
      { catalog with recoveryFailures := catalog.recoveryFailures.erase accountId })
  | .write (.bindRecoveryReadiness readiness) => if locked then none else
      some (.readFailures, { catalog with recoveryReadiness := some readiness })
  | .readFailures => some (.readReadiness catalog.ready, catalog)
  | .readReadiness ready => match catalog.recoveryReadiness with
    | some readiness => some (.store readiness ready, catalog)
    | none => some (.returned, catalog)
  | .store readiness ready => some (.returned,
      { catalog with flags := Function.update catalog.flags readiness ready })
  | .returned => none

/-- What a call is about to store is current. -/
def Fits : RecoveryPhase → Prop
  | .readReadiness ready => ready = catalog.ready
  | .store readiness ready => catalog.recoveryReadiness = some readiness ∧ ready = catalog.ready
  | _ => True

end RecoveryCatalog

namespace RecoveryPhase

def locks : RecoveryPhase → Bool
  | store _ _ => true
  | _ => false

/-- The call has read the set and not stored yet. -/
def hasRead : RecoveryPhase → Bool
  | readReadiness _ | store _ _ => true
  | _ => false

end RecoveryPhase

structure RecoverySystem where
  catalog : RecoveryCatalog
  calls : List RecoveryPhase

inductive RecoveryEvent
  | start (call : RecoveryCall)
  | advance (index : ℕ)

namespace RecoverySystem

variable (s : RecoverySystem)

def step : RecoveryEvent → Option RecoverySystem
  | .start call => some { s with calls := s.calls ++ [.write call] }
  | .advance index => do
    let (phase, catalog) ← s.catalog.perform (s.calls.any (·.locks)) (← s.calls[index]?)
    return ⟨catalog, s.calls.set index phase⟩

/-- Whether there are failures does not change while a call is about to store. -/
def timelyStep (event : RecoveryEvent) : Option RecoverySystem :=
  (s.step event).filter fun next =>
    next.catalog.ready == s.catalog.ready || s.calls.all (!·.hasRead)

/-- A bound flag is current, or a call is on its way to store. -/
structure Current : Prop where
  fits : ∀ call ∈ s.calls, s.catalog.Fits call
  flag : ∀ readiness, s.catalog.recoveryReadiness = some readiness →
    (∃ call ∈ s.calls, call = .readFailures ∨ call.hasRead) ∨
      s.catalog.flags readiness = s.catalog.ready

variable {s}

theorem Current.advance {catalog : RecoveryCatalog} {index : ℕ} {old new : RecoveryPhase}
    (h : s.Current) (hold : s.calls[index]? = some old)
    (hperform : s.catalog.perform (s.calls.any (·.locks)) old = some (new, catalog))
    (htimely : catalog.ready = s.catalog.ready ∨ ∀ call ∈ s.calls, call.hasRead = false) :
    Current ⟨catalog, s.calls.set index new⟩ := by
  have hfits := h.fits old (mem_of_getElem? hold)
  have hnew : new ∈ s.calls.set index new := mem_set (List.getElem?_eq_some_iff.mp hold).1 new
  constructor
  · intro call hcall
    have hcall := mem_or_eq_of_mem_set hcall
    have := h.fits call
    unfold RecoveryCatalog.perform at hperform
    split at hperform <;> cases call <;>
      grind [RecoveryCatalog.Fits, RecoveryPhase.hasRead, RecoveryPhase.locks]
  · intro readiness hbound
    -- Only a call that stored, or found no flag, is not on its way any more.
    by_cases hpublishes : new = .readFailures ∨ new.hasRead
    · exact .inl ⟨new, hnew, hpublishes⟩
    · right
      cases old with
      | store =>
        cases hperform
        cases hbound.symm.trans hfits.1
        exact (Function.update_self ..).trans hfits.2
      | _ =>
        unfold RecoveryCatalog.perform at hperform
        split at hperform <;> grind [RecoveryPhase.hasRead]

theorem Current.timelyStep {event : RecoveryEvent} {next : RecoverySystem} (h : s.Current)
    (hstep : s.timelyStep event = some next) : next.Current := by
  obtain ⟨hstep, htimely⟩ := Option.filter_eq_some_iff.mp hstep
  cases event with
  | start call =>
    cases hstep
    refine ⟨?_, fun readiness hbound => ?_⟩
    · exact forall_mem_append.mpr ⟨h.fits, by simp [RecoveryCatalog.Fits]⟩
    · exact (h.flag readiness hbound).imp_left fun ⟨call, hcall, hpublishes⟩ =>
        ⟨call, mem_append_left _ hcall, hpublishes⟩
  | advance index =>
    obtain ⟨old, hold, hstep⟩ := Option.bind_eq_some_iff.mp hstep
    obtain ⟨⟨new, catalog⟩, hperform, hstep⟩ := Option.bind_eq_some_iff.mp hstep
    cases hstep
    exact h.advance hold hperform (by simpa using htimely)

/-- When whether there are failures never changes while a call is about to store, the flag says it
once all calls have returned. -/
theorem readiness_published {flags : ℕ → Bool} {events : List RecoveryEvent}
    (h : events.foldlM RecoverySystem.timelyStep ⟨{ flags }, []⟩ = some s)
    (hreturned : ∀ call ∈ s.calls, call = .returned) {readiness : ℕ}
    (hbound : s.catalog.recoveryReadiness = some readiness) :
    s.catalog.flags readiness = true ↔ s.catalog.recoveryFailures = ∅ := by
  have hcurrent : s.Current := Fold.some_induction Current (fun _ _ _ h hstep => h.timelyStep hstep)
    ⟨by simp, by simp⟩ h
  obtain ⟨call, hcall, hpublishes⟩ | hflag := hcurrent.flag readiness hbound
  · cases hreturned call hcall
    simp [RecoveryPhase.hasRead] at hpublishes
  · simp [hflag, RecoveryCatalog.ready]

theorem readiness_published_marked : ∃ (events : List RecoveryEvent) (s : RecoverySystem),
    events.foldlM RecoverySystem.timelyStep ⟨{ flags := fun _ => true }, []⟩ = some s ∧
      s.catalog.recoveryFailures = {"a"} ∧
      (s.catalog.flags 0 = true ↔ s.catalog.recoveryFailures = ∅) := by
  have h : [.start (.bindRecoveryReadiness 0), .advance 0, .start (.markRecoveryFailed "a"),
      .advance 1, .advance 1, .advance 0, .advance 0, .advance 0, .advance 1, .advance 1].foldlM
        RecoverySystem.timelyStep ⟨{ flags := fun _ => true }, []⟩ = some _ := rfl
  exact ⟨_, _, h, rfl, readiness_published h (by decide) rfl⟩

/-- A run of the calls after which the flag says that there are failures, though there are none. -/
def EndsStale (events : List RecoveryEvent) : Prop :=
  ∃ s, events.foldlM RecoverySystem.step ⟨{ flags := fun _ => true }, []⟩ = some s ∧
    (∀ call ∈ s.calls, call = .returned) ∧ s.catalog.recoveryReadiness = some 0 ∧
    s.catalog.flags 0 = false ∧ s.catalog.recoveryFailures = ∅

/-- A call that read a failure stores that after another has cleared it: a marking call, and a
clearing one that another overlaps. -/
theorem readiness_stale :
    EndsStale [.start (.bindRecoveryReadiness 0), .advance 0,
      .start (.markRecoveryFailed "a"), .advance 1, .advance 1,
      .start (.clearRecoveryFailure "a"), .advance 2, .advance 2, .advance 2, .advance 2,
      .advance 0, .advance 0, .advance 0, .advance 1, .advance 1] ∧
    EndsStale [.start (.bindRecoveryReadiness 0), .advance 0, .advance 0, .advance 0, .advance 0,
      .start (.markRecoveryFailed "a"), .advance 1, .advance 1, .advance 1, .advance 1,
      .start (.markRecoveryFailed "b"), .advance 2, .advance 2, .advance 2, .advance 2,
      .start (.clearRecoveryFailure "a"), .advance 3, .advance 3,
      .start (.clearRecoveryFailure "b"), .advance 4, .advance 4, .advance 4, .advance 4,
      .advance 3, .advance 3] :=
  ⟨⟨_, rfl, by decide, rfl, rfl, rfl⟩, ⟨_, rfl, by decide, rfl, rfl, rfl⟩⟩

end RecoverySystem

end ProviderCore.Runtime
