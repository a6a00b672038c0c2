import Mathlib.Tactic.Linarith
import ProviderCore.Accounts.RefreshPhases

/-!
# A refresh on a replaced account object

An account is replaced: a new credential is committed and a new object installed, while a refresh
on the old object is still running.  That refresh goes on to write the row of the account and to
report to the scheduler, both by the id of the account.  Two runs are compared: one as it is, and
one in which the replacement is `alone`, so that what the old refresh writes and reports is left
out.  They agree if the old refresh is not refused for good and reports, if at all, a success while
the replacement waits for its own next refresh.

What the replacement itself does is arbitrary: its steps are functions of the row, the installed
object and whatever else its calls remember.  The scheduler comes to the commands in any order.
-/

namespace ProviderCore.Runtime

open Accounts

variable {τ σ : Type}

/-! ## The scheduler

What `run_scheduler` keeps about one account: its count of failures and its place in the delay
queue.  Commands name the account by its id only.  Times are in seconds; the jitter of a back-off
is a hash of the account id and a parameter here.
-/

inductive SchedulerCommand
  | reschedule
  | backoff
  | remove
deriving DecidableEq

def refreshBackoffBase : ℕ := 30

def refreshBackoffMax : ℕ := 5 * 60

def refreshBackoff (jitter attempts : ℕ) : ℕ :=
  min (refreshBackoffBase * 2 ^ min (attempts - 1) 4) refreshBackoffMax + jitter

/-- The largest count of failures, where counting stops. -/
def maxFailures : ℕ := 2 ^ 32 - 1

structure Schedule where
  failures : ℕ
  bounded : failures ≤ maxFailures
  /-- When the account is due in the queue, if it is there. -/
  dueAt : Option ℤ
deriving DecidableEq

/-- `delay_until` as a point in time. -/
def dueTime (now refreshAt : ℤ) : ℤ := max now refreshAt

/-- The command that `report_refresh_result` sends; the scheduler treats the results of its own
refreshes in the same way. -/
def reportRefreshResult : Except RefreshErrorKind Unit → SchedulerCommand
  | .ok () => .reschedule
  | .error .reauthRequired => .remove
  | .error _ => .backoff

section

variable (now : ℤ) (jitter : ℕ) (installed : Option (AccountState τ))

/-- When `schedule_account` puts the installed account object. -/
def scheduleAccount : Option ℤ :=
  (installed.bind (·.nextRefreshAt)).map (dueTime now)

/-- One command, with the account object that is installed when it is handled. -/
def Schedule.handle (schedule : Schedule) : SchedulerCommand → Schedule
  | .reschedule =>
    { failures := 0, bounded := Nat.zero_le _, dueAt := scheduleAccount now installed }
  | .backoff =>
    let attempts := min (schedule.failures + 1) maxFailures
    { failures := attempts
      bounded := Nat.min_le_right _ _
      dueAt := some (now + refreshBackoff jitter attempts) }
  | .remove => { failures := 0, bounded := Nat.zero_le _, dueAt := none }

/-- An account without counted failures that is queued for its own next refresh, if it has one,
and that is not due yet. -/
def Schedule.OwnAhead (schedule : Schedule) : Prop :=
  schedule.failures = 0 ∧ schedule.dueAt = installed.bind (·.nextRefreshAt) ∧
    ∀ dueAt ∈ schedule.dueAt, now ≤ dueAt

/-- To schedule such an account again changes nothing. -/
theorem Schedule.OwnAhead.handle_reschedule {schedule : Schedule}
    (h : schedule.OwnAhead now installed) :
    schedule.handle now jitter installed .reschedule = schedule := by
  obtain ⟨failures, bounded, dueAt⟩ := schedule
  obtain ⟨rfl, rfl, ahead⟩ := h
  rw [handle, Schedule.mk.injEq, scheduleAccount]
  refine ⟨rfl, ?_⟩
  rcases own : installed.bind (·.nextRefreshAt) with _ | dueAt
  · rfl
  · exact congrArg some (max_eq_right (ahead dueAt own))

end

/-! ## The old refresh -/

/-- Where the refresh on the old object is. -/
inductive OldCall (τ : Type)
  /-- Before the refresh gate or the limit of concurrent refreshes. -/
  | waiting (expectedGeneration : ℕ)
  | running (phase : RefreshPhase τ)
  | ended

structure OldRefresh (τ : Type) where
  object : AccountState τ
  call : OldCall τ

inductive OldStep (τ : Type)
  /-- It passes the gate and the limit. -/
  | enter
  | answer (answer : ExchangeAnswer τ)
  /-- Its statement reaches the store, which fails unless `stored`. -/
  | store (stored : Bool)
  | finish (retryAt : Option ℤ)
  | drop

/-- What is fixed: the driver and the hash of the account id. -/
structure Setting (τ : Type) where
  refreshAt : RefreshAt τ
  provider : ProviderKind
  jitter : ℕ

namespace OldRefresh

def phase? (r : OldRefresh τ) : Option (RefreshPhase τ) :=
  match r.call with
  | .running phase => some phase
  | .waiting _ | .ended => none

/-- It goes on, or ends with an error. -/
def proceed (r : OldRefresh τ) :
    Except RefreshErrorKind (RefreshPhase τ) → OldRefresh τ × Option (Except RefreshErrorKind Unit)
  | .ok phase => ({ r with call := .running phase }, none)
  | .error kind => ({ r with call := .ended }, some (.error kind))

/-- What a step makes of the refresh, the result that it ends with, and the row. -/
def step (setting : Setting τ) (r : OldRefresh τ) (row : Option (StoredAccount τ)) : OldStep τ →
    Option ((OldRefresh τ × Option (Except RefreshErrorKind Unit)) × Option (StoredAccount τ))
  | .enter =>
    match r.call with
    | .waiting expectedGeneration =>
      if r.object.generation = expectedGeneration then
        some (r.proceed (RefreshPhase.start r.object), row)
      else some (({ r with call := .ended }, some (.ok ())), row)
    | .running _ | .ended => none
  | .answer answer => do
    let next ← (← r.phase?).answer setting.provider answer
    return (r.proceed next, row)
  | .store stored => do
    let (phase, row) ← (← r.phase?).store stored row
    return (({ r with call := .running phase }, none), row)
  | .finish retryAt => do
    let (object, result) ←
      (← r.phase?).finish setting.refreshAt setting.provider retryAt r.object
    return ((⟨object, .ended⟩, some result), row)
  | .drop => some (({ r with call := .ended }, none), row)

end OldRefresh

/-! ## The system -/

/-- Whose refresh a report is about. -/
inductive Origin
  | own
  | old

/-- The row and the installed object, and what the calls on that object remember. -/
structure Owned (τ σ : Type) where
  row : Option (StoredAccount τ)
  installed : Option (AccountState τ)
  calls : σ

structure Takeover (τ σ : Type) extends Owned τ σ where
  schedule : Schedule
  /-- What the scheduler has still to handle: its channel, and the results of its own refreshes
  that it has not joined yet. -/
  commands : List (Origin × SchedulerCommand)
  old : OldRefresh τ

/-- A step of the replacement or of the manager, with what it tells the scheduler.  No statement
lowers a stored revision, and a deleted account does not come back. -/
structure OwnStep (τ σ : Type) where
  effect : Owned τ σ → Owned τ σ × List SchedulerCommand
  grows : ∀ owned, ∀ account' ∈ (effect owned).1.row,
    ∃ account ∈ owned.row, account.credential.revision ≤ account'.credential.revision

inductive TakeoverEvent (τ σ : Type)
  | old (step : OldStep τ)
  | own (step : OwnStep τ σ)
  /-- The account is due and leaves the queue. -/
  | expire
  /-- The scheduler receives a command, or joins one of its refreshes. -/
  | handle (now : ℤ) (index : ℕ)

variable (setting : Setting τ)

namespace Takeover

/-- A step of the old refresh, which reports the result that it ends with; if the replacement is
alone, its statement does not reach the store. -/
def oldStep (alone : Bool) (s : Takeover τ σ) (step : OldStep τ) : Takeover τ σ :=
  match s.old.step setting s.row step with
  | none => s
  | some ((old, result), row) =>
    { s with
      old
      row := if alone then s.row else row
      commands := s.commands ++ result.toList.map fun result => (.old, reportRefreshResult result) }

def own (s : Takeover τ σ) (step : OwnStep τ σ) : Takeover τ σ :=
  let effect := step.effect s.toOwned
  { s with toOwned := effect.1, commands := s.commands ++ effect.2.map (Origin.own, ·) }

/-- The scheduler handles a command; if the replacement is alone, not those of the old refresh. -/
def handle (alone : Bool) (s : Takeover τ σ) (now : ℤ) : Origin × SchedulerCommand → Schedule
  | (.own, command) => s.schedule.handle now setting.jitter s.installed command
  | (.old, command) =>
    if alone then s.schedule else s.schedule.handle now setting.jitter s.installed command

def perform (alone : Bool) (s : Takeover τ σ) : TakeoverEvent τ σ → Takeover τ σ
  | .old step => s.oldStep setting alone step
  | .own step => s.own step
  | .expire => { s with schedule := { s.schedule with dueAt := none } }
  | .handle now index =>
    match s.commands[index]? with
    | none => s
    | some entry =>
      { s with
        commands := s.commands.eraseIdx index
        schedule := s.handle setting alone now entry }

def run (alone : Bool) (s : Takeover τ σ) (events : List (TakeoverEvent τ σ)) : Takeover τ σ :=
  events.foldl (perform setting alone) s

/-- What is seen of the account: its stored state and error code, its availability, and its
schedule with the failures that the next back-off counts from. -/
def view (s : Takeover τ σ) : Option (AuthState × Option String) × Option Bool × Schedule :=
  (s.row.map fun account => (account.authState, account.safeErrorCode),
    s.installed.map AccountState.availableForRequests, s.schedule)

end Takeover

/-! ## The old refresh is outdated -/

/-- What a call has still to write is for a revision before the bound. -/
def PhaseBelow (bound : ℕ) : RefreshPhase τ → Prop
  | .persisting update | .writing update => update.expectedRevision < bound
  | .exchanging current => current.revision < bound
  | _ => True

/-- So is what a refresh has still to write that waits to begin. -/
def OldRefresh.Below (bound : ℕ) (r : OldRefresh τ) : Prop :=
  match r.call with
  | .waiting _ => r.object.revision < bound ∧
      ∀ pending, r.object.pendingUpdate = some pending → pending.expectedRevision < bound
  | .running phase => PhaseBelow bound phase
  | .ended => True

/-- The row, if there is one, has a revision from which on the old refresh is outdated. -/
structure Takeover.Outdated (bound : ℕ) (s : Takeover τ σ) : Prop where
  old : s.old.Below bound
  row : ∀ account ∈ s.row, bound ≤ account.credential.revision

variable {setting} {bound : ℕ} {stored : Bool} {row row' : Option (StoredAccount τ)}

/-- The statement of an outdated call does nothing, unless it is the mark. -/
theorem PhaseBelow.store {phase phase' : RefreshPhase τ} (h : PhaseBelow bound phase)
    (hrow : ∀ account ∈ row, bound ≤ account.credential.revision)
    (reached : phase.store stored row = some (phase', row')) :
    PhaseBelow bound phase' ∧ (row' = row ∨ phase = .marking ∧ row' = (mark stored row).2) := by
  cases phase with
  | persisting | writing =>
    obtain ⟨rfl, rfl⟩ := reached
    refine ⟨trivial, .inl (swap_of_moved fun _ account here => ?_).1⟩
    exact (h.trans_le (hrow account here)).ne'
  | marking =>
    obtain ⟨rfl, rfl⟩ := reached
    exact ⟨trivial, .inr ⟨rfl, rfl⟩⟩
  | exchanging | persisted | wrote | marked => cases reached

namespace OldRefresh

variable {r r' : OldRefresh τ} {result : Option (Except RefreshErrorKind Unit)}

theorem below_proceed {next : Except RefreshErrorKind (RefreshPhase τ)}
    (below : ∀ phase, next = .ok phase → PhaseBelow bound phase) :
    (r.proceed next).1.Below bound := by
  cases next with
  | ok phase => exact below phase rfl
  | error => trivial

theorem Below.running (h : r.Below bound) {phase : RefreshPhase τ}
    (running : r.phase? = some phase) : PhaseBelow bound phase := by
  unfold phase? at running
  split at running
  · next call =>
      cases running
      rwa [Below, call] at h
  · cases running
  · cases running

/-- A step of an outdated refresh leaves the row alone, unless it is the mark. -/
theorem Below.step (h : r.Below bound)
    (hrow : ∀ account ∈ row, bound ≤ account.credential.revision) {step : OldStep τ}
    (taken : r.step setting row step = some ((r', result), row')) :
    r'.Below bound ∧ (row' = row ∨
      ∃ stored, step = .store stored ∧ r.phase? = some .marking ∧ row' = (mark stored row).2) := by
  cases step with
  | enter =>
    simp only [OldRefresh.step] at taken
    split at taken
    · next call =>
        rw [Below, call] at h
        split at taken
        · obtain ⟨began, rfl⟩ := Prod.mk.inj (Option.some.inj taken)
          rw [show r' = _ from (congrArg Prod.fst began).symm]
          refine ⟨below_proceed fun phase ok => ?_, .inl rfl⟩
          obtain ⟨pending, waiting, rfl⟩ | ⟨-, -, rfl⟩ := RefreshPhase.start_eq_ok ok
          · exact h.2 pending waiting
          · exact h.1
        · cases taken
          exact ⟨trivial, .inl rfl⟩
    · cases taken
    · cases taken
  | answer =>
    obtain ⟨phase, running, taken⟩ := Option.bind_eq_some_iff.mp taken
    obtain ⟨next, answered, taken⟩ := Option.bind_eq_some_iff.mp taken
    obtain ⟨went, rfl⟩ := Prod.mk.inj (Option.some.inj taken)
    rw [show r' = _ from (congrArg Prod.fst went).symm]
    refine ⟨below_proceed fun phase' ok => ?_, .inl rfl⟩
    subst ok
    have below := h.running running
    obtain ⟨current, rfl, ⟨tokens, expiresAt, -, rfl⟩ | rfl⟩ := RefreshPhase.answer_eq_ok answered
    · exact below
    · trivial
  | store stored =>
    obtain ⟨phase, running, taken⟩ := Option.bind_eq_some_iff.mp taken
    obtain ⟨⟨phase', _⟩, reached, taken⟩ := Option.bind_eq_some_iff.mp taken
    cases taken
    obtain ⟨below, same⟩ := (h.running running).store hrow reached
    refine ⟨below, same.imp_right ?_⟩
    rintro ⟨rfl, marked⟩
    exact ⟨stored, rfl, running, marked⟩
  | finish =>
    obtain ⟨_, -, taken⟩ := Option.bind_eq_some_iff.mp taken
    obtain ⟨⟨_, _⟩, -, taken⟩ := Option.bind_eq_some_iff.mp taken
    cases taken
    exact ⟨trivial, .inl rfl⟩
  | drop =>
    cases taken
    exact ⟨trivial, .inl rfl⟩

end OldRefresh

/-! ## Every step -/

namespace Takeover

variable {s : Takeover τ σ}

/-- The replacement alone does not bring the row back behind the old refresh. -/
theorem Outdated.perform (hs : s.Outdated bound) (event : TakeoverEvent τ σ) :
    (s.perform setting true event).Outdated bound := by
  cases event with
  | old step =>
    simp only [Takeover.perform, Takeover.oldStep]
    split
    · exact hs
    · next taken => exact ⟨(hs.old.step hs.row taken).1, hs.row⟩
  | own step =>
    refine ⟨hs.old, fun account' here' => ?_⟩
    obtain ⟨account, here, grown⟩ := step.grows _ account' here'
    exact (hs.row account here).trans grown
  | expire => exact ⟨hs.old, hs.row⟩
  | handle =>
    simp only [Takeover.perform]
    split <;> exact ⟨hs.old, hs.row⟩

/-- A step that the replacement does not notice: the mark of a refresh refused for good does not
reach the store, and a report is that of a success, which comes while the replacement waits for its
own next refresh. -/
def Spared (s : Takeover τ σ) : TakeoverEvent τ σ → Prop
  | .old (.store true) => s.old.phase? ≠ some .marking
  | .handle now index => ∀ command, s.commands[index]? = some (.old, command) →
      command = .reschedule ∧ s.schedule.OwnAhead now s.installed
  | _ => True

theorem handle_eq_alone {now : ℤ} {entry : Origin × SchedulerCommand}
    (spared : ∀ command, entry = (.old, command) →
      command = .reschedule ∧ s.schedule.OwnAhead now s.installed) :
    s.handle setting false now entry = s.handle setting true now entry := by
  obtain ⟨origin, command⟩ := entry
  cases origin with
  | own => rfl
  | old =>
    obtain ⟨rfl, ahead⟩ := spared command rfl
    exact ahead.handle_reschedule now setting.jitter s.installed

theorem perform_eq_alone (hs : s.Outdated bound) {event : TakeoverEvent τ σ}
    (spared : s.Spared event) : s.perform setting false event = s.perform setting true event := by
  cases event with
  | old step =>
    simp only [perform, oldStep]
    split
    case h_1 => rfl
    case h_2 old result row taken =>
      have same : row = s.row := by
        rcases (hs.old.step hs.row taken).2 with same | ⟨stored, rfl, marking, rfl⟩
        · exact same
        · cases stored with
          | false => rfl
          | true => exact absurd marking spared
      simp [same]
  | handle =>
    simp only [perform]
    split
    case h_1 => rfl
    case h_2 entry waiting =>
      rw [handle_eq_alone fun command old => spared command (old ▸ waiting)]
  | own step | expire => rfl

end Takeover

/-! ## Runs -/

/-- Every step of a run spares the replacement. -/
def SparedRun (setting : Setting τ) (s : Takeover τ σ) : List (TakeoverEvent τ σ) → Prop
  | [] => True
  | event :: events => s.Spared event ∧ SparedRun setting (s.perform setting false event) events

/-- After each step the account looks as if the replacement were alone. -/
def Unnoticed (setting : Setting τ) (s : Takeover τ σ) (events : List (TakeoverEvent τ σ)) : Prop :=
  ∀ done, done <+: events → (s.run setting false done).view = (s.run setting true done).view

theorem Takeover.Outdated.unnoticed {s : Takeover τ σ} (hs : s.Outdated bound)
    {events : List (TakeoverEvent τ σ)} (spared : SparedRun setting s events) :
    Unnoticed setting s events := by
  induction events generalizing s with
  | nil =>
    intro done h
    rw [List.prefix_nil.mp h]
    rfl
  | cons event events ih =>
    -- as long as the steps spare the replacement the two runs are in one state
    intro done h
    cases done with
    | nil => rfl
    | cons first done =>
      obtain ⟨rfl, tail⟩ := List.cons_prefix_cons.mp h
      have same : s.perform setting false first = s.perform setting true first :=
        Takeover.perform_eq_alone hs spared.1
      rw [Takeover.run, Takeover.run, List.foldl_cons, List.foldl_cons, same]
      exact ih (hs.perform first) (same ▸ spared.2) done tail

/-! ## A replacement -/

/-- A new credential is committed, one revision ahead of the row, and then `replace` installs the
object and asks the scheduler to schedule it. -/
def Takeover.replace (s : Takeover τ σ) (account : StoredAccount τ) (object : AccountState τ) :
    Takeover τ σ :=
  { s with
    row := (commitProviderSnapshot account (s.row.map (·.credential.revision)) s.row).2
    installed := some object
    commands := s.commands ++ [(.own, .reschedule)] }

theorem Takeover.outdated_replace {s : Takeover τ σ} {stored account : StoredAccount τ}
    (row : s.row = some stored)
    (ahead : account.credential.revision = stored.credential.revision + 1)
    (below : s.old.Below account.credential.revision) (object : AccountState τ) :
    (s.replace account object).Outdated account.credential.revision := by
  refine ⟨below, fun replaced here => ?_⟩
  have newer : stored.credential.revision < account.credential.revision := by
    rw [ahead]
    exact Nat.lt_succ_self _
  simp only [Takeover.replace, row, commitProviderSnapshot, Option.map_some, newer, if_true,
    Option.mem_some_iff] at here
  rw [← here]

/-- A Codex account whose refresh is under way. -/
def refreshing (call : OldCall ℕ) : Takeover ℕ Unit where
  row := some (sampleAccount .codex true none)
  installed := some (fromStored dueAtExpiry (sampleAccount .codex true none))
  calls := ()
  schedule := ⟨0, Nat.zero_le _, some 100⟩
  commands := []
  old := ⟨fromStored dueAtExpiry (sampleAccount .codex true none), call⟩

/-- The account with a new credential. -/
def signedInAgain : StoredAccount ℕ :=
  { sampleAccount .codex true none with credential := ⟨1, 1, ⟨5, none, true⟩, some 500⟩ }

/-- It is signed in again meanwhile. -/
def replacedDuring (call : OldCall ℕ) : Takeover ℕ Unit :=
  (refreshing call).replace signedInAgain (fromStored dueAtExpiry signedInAgain)

def codexSetting : Setting ℕ where
  refreshAt := dueAtExpiry
  provider := .codex
  jitter := 3

/-- **A superseded refresh does no harm** in a run in which it is not refused for good, and in which
it is dropped before it reports, or reports a success while the replacement, without a counted
failure, waits for its own next refresh. -/
theorem superseded_refresh_unnoticed (setting : Setting τ) {s : Takeover τ σ}
    {stored account : StoredAccount τ} (row : s.row = some stored)
    (ahead : account.credential.revision = stored.credential.revision + 1)
    (below : s.old.Below account.credential.revision) (object : AccountState τ)
    (events : List (TakeoverEvent τ σ))
    (spared : SparedRun setting (s.replace account object) events) :
    Unnoticed setting (s.replace account object) events :=
  (Takeover.outdated_replace row ahead below object).unnoticed spared

/-- A refresh that finds another generation at the gate reports a success. -/
theorem superseded_refresh_unnoticed_generation :
    let events := [.handle 60 0, .old .enter, .handle 61 0]
    SparedRun codexSetting (replacedDuring (.waiting 7)) events ∧
      Unnoticed codexSetting (replacedDuring (.waiting 7)) events := by
  intro events
  have spared : SparedRun codexSetting (replacedDuring (.waiting 7)) events := by
    refine ⟨fun _ => nofun, trivial, fun command waiting => ?_, trivial⟩
    cases waiting.symm.trans (show _ = some (Origin.old, SchedulerCommand.reschedule) from rfl)
    exact ⟨rfl, rfl, rfl, fun dueAt due => by cases due; decide⟩
  have below : (refreshing (.waiting 7)).old.Below 1 := ⟨Nat.zero_lt_one, fun _ => nofun⟩
  exact ⟨spared, superseded_refresh_unnoticed codexSetting rfl rfl below _ events spared⟩

/-- The refresh waits for the answer to its exchange. -/
def replacedWhileExchanging : Takeover ℕ Unit :=
  replacedDuring (.running (.exchanging (fromStored dueAtExpiry (sampleAccount .codex true none))))

/-- The upstream refuses the old refresh for good, or grants it and its write finds another
revision.  The scheduler handles the command of the replacement and then that of the refresh. -/
def refusedAfterwards : List (TakeoverEvent ℕ Unit) :=
  [.handle 60 0, .old (.answer (.refused .reauthRequired)), .old (.store true),
    .old (.finish none), .handle 61 0]

def grantedAfterwards : List (TakeoverEvent ℕ Unit) :=
  [.handle 60 0, .old (.answer (.granted 1 (some 200))), .old (.store true), .old (.finish none),
    .handle 61 0]

/-- The replacement is marked and taken off the schedule, or put on the back-off of the old
object; alone it is active and due at its own time. -/
theorem superseded_refresh_harms :
    ¬Unnoticed codexSetting replacedWhileExchanging refusedAfterwards ∧
      ¬Unnoticed codexSetting replacedWhileExchanging grantedAfterwards ∧
      (replacedWhileExchanging.run codexSetting false refusedAfterwards).view =
        (some (.reauthRequired, some "refresh_reauth_required"), some true,
          ⟨0, Nat.zero_le _, none⟩) ∧
      (replacedWhileExchanging.run codexSetting false grantedAfterwards).view =
        (some (.active, none), some true, ⟨1, by decide, some 94⟩) ∧
      (replacedWhileExchanging.run codexSetting true refusedAfterwards).view =
        (some (.active, none), some true, ⟨0, Nat.zero_le _, some 500⟩) ∧
      (replacedWhileExchanging.run codexSetting true grantedAfterwards).view =
        (some (.active, none), some true, ⟨0, Nat.zero_le _, some 500⟩) := by
  refine ⟨fun unnoticed => ?_, fun unnoticed => ?_, by decide⟩
  · exact absurd (unnoticed refusedAfterwards List.prefix_rfl) (by decide)
  · exact absurd (unnoticed grantedAfterwards List.prefix_rfl) (by decide)

end ProviderCore.Runtime
