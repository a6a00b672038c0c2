import ProviderCore.Accounts.Account

/-!
# A token refresh between its awaits

`refresh_credentials` of one account object as a machine: a call begins, waits for the answer to
its exchange, waits for the store, and ends with a result.  A statement is two steps, since it
takes effect in the store, or fails there, before its caller is told.  Several calls interleave by
interleaving these steps.
-/

namespace ProviderCore.Accounts

variable {τ : Type}

/-- What a call waits for. -/
inductive RefreshPhase (τ : Type)
  | persisting (pending : CredentialUpdate τ)
  | persisted (pending : CredentialUpdate τ) (outcome : Option CredentialWriteOutcome)
  | exchanging (current : AccountState τ)
  | writing (update : CredentialUpdate τ)
  | wrote (update : CredentialUpdate τ) (outcome : Option CredentialWriteOutcome)
  | marking
  | marked (stored : Bool)
deriving DecidableEq

/-! ## The steps -/

/-- A write takes effect in the store, or fails there. -/
def swap (update : CredentialUpdate τ) (stored : Bool) (row : Option (StoredAccount τ)) :
    Option CredentialWriteOutcome × Option (StoredAccount τ) :=
  if stored then
    let (outcome, row) := compareAndSwapCredential update row
    (some outcome, row)
  else (none, row)

/-- Mark the account in the store, or fail there.  There has to be a row. -/
def mark (stored : Bool) (row : Option (StoredAccount τ)) : Bool × Option (StoredAccount τ) :=
  if stored then
    (row.isSome, updateAuthState .reauthRequired (some "refresh_reauth_required") row)
  else (false, row)

namespace RefreshPhase

def start (object : AccountState τ) : Except RefreshErrorKind (RefreshPhase τ) :=
  match object.beginRefresh with
  | .persist pending => .ok (.persisting pending)
  | .refuse => .error .reauthRequired
  | .exchange current => .ok (.exchanging current)

/-- The upstream answers, and the call ends or goes on to the store. -/
def answer (provider : ProviderKind) (answer : ExchangeAnswer τ) :
    RefreshPhase τ → Option (Except RefreshErrorKind (RefreshPhase τ))
  | .exchanging current => some <|
      match refreshNext provider current answer with
      | .write update => .ok (.writing update)
      | .markReauth => .ok .marking
      | .fail kind => .error kind
  | _ => none

/-- The statement reaches the store, which fails unless `stored`. -/
def store (stored : Bool) (row : Option (StoredAccount τ)) :
    RefreshPhase τ → Option (RefreshPhase τ × Option (StoredAccount τ))
  | .persisting pending =>
    let (outcome, row) := swap pending stored row
    some (.persisted pending outcome, row)
  | .writing update =>
    let (outcome, row) := swap update stored row
    some (.wrote update outcome, row)
  | .marking =>
    let (stored, row) := mark stored row
    some (.marked stored, row)
  | _ => none

/-- The call is told and ends. -/
def finish (refreshAt : RefreshAt τ) (provider : ProviderKind) (retryAt : Option ℤ)
    (object : AccountState τ) :
    RefreshPhase τ → Option (AccountState τ × Except RefreshErrorKind Unit)
  | .persisted _ outcome => some (object.finishPending refreshAt provider retryAt outcome)
  | .wrote update outcome => some (object.finishRefresh refreshAt provider update retryAt outcome)
  | .marked stored => some (object.markReauthRequired provider retryAt stored)
  | _ => none

/-- The credential that the call brings to the store. -/
def carries : RefreshPhase τ → Option (Credentials τ)
  | .persisting update | .persisted update _ | .writing update | .wrote update _ =>
    some update.credentials
  | _ => none

end RefreshPhase

/-! ## What the pieces do with credentials -/

/-- Only granted tokens are written. -/
theorem refreshNext_eq_write {provider : ProviderKind} {current : AccountState τ}
    {answer : ExchangeAnswer τ} {update : CredentialUpdate τ}
    (h : refreshNext provider current answer = .write update) :
    ∃ tokens expiresAt, answer = .granted tokens expiresAt ∧
      refreshUpdate current tokens expiresAt = update := by
  cases answer with
  | granted tokens expiresAt => exact ⟨tokens, expiresAt, rfl, RefreshNext.write.inj h⟩
  | unusable =>
    simp only [refreshNext] at h
    split at h <;> cases h
  | refused kind => cases kind <;> cases h

/-! ## What the steps do with credentials -/

/-- A write stores its own credential or changes nothing. -/
theorem swap_credentials (update : CredentialUpdate τ) (stored : Bool)
    (row : Option (StoredAccount τ)) :
    (swap update stored row).2 = row ∨
      ∀ account ∈ (swap update stored row).2,
        account.credential.credentials = update.credentials := by
  cases stored with
  | false => exact .inl rfl
  | true =>
    cases row with
    | none => exact .inl rfl
    | some account =>
      by_cases h : account.credential.revision = update.expectedRevision
      · right
        simp [swap, compareAndSwapCredential, h]
      · left
        simp [swap, compareAndSwapCredential, h]

/-- A write over a revision that the row has left changes nothing. -/
theorem swap_of_moved {update : CredentialUpdate τ} {stored : Bool}
    {row : Option (StoredAccount τ)} (moved : stored = true →
      ∀ account ∈ row, account.credential.revision ≠ update.expectedRevision) :
    (swap update stored row).2 = row ∧
      ∀ revision, (swap update stored row).1 ≠ some (.updated revision) := by
  cases stored with
  | false => exact ⟨rfl, nofun⟩
  | true =>
    cases row with
    | none => exact ⟨rfl, nofun⟩
    | some account => simp [swap, compareAndSwapCredential, moved rfl account rfl]

theorem mark_credentials (stored : Bool) (row : Option (StoredAccount τ)) :
    (mark stored row).2.map (·.credential) = row.map (·.credential) := by
  cases stored with
  | false => rfl
  | true => cases row <;> rfl

/-- A call that goes on has not ended with an error. -/
theorem eq_ok_of_toOption {ε α : Type} {x : Except ε α} {a : α} (h : x.toOption = some a) :
    x = .ok a := by
  cases x with
  | error => cases h
  | ok => exact congrArg _ (Option.some.inj h)

namespace RefreshPhase

variable {refreshAt : RefreshAt τ} {provider : ProviderKind} {object : AccountState τ}
  {phase phase' : RefreshPhase τ}

/-- A call begins with the pending write, or with an exchange. -/
theorem start_eq_ok (h : start object = .ok phase) :
    (∃ pending, object.pendingUpdate = some pending ∧ phase = .persisting pending) ∨
      object.pendingUpdate = none ∧ object.authState ≠ .reauthRequired ∧
        phase = .exchanging object := by
  unfold start AccountState.beginRefresh at h
  cases waiting : object.pendingUpdate with
  | some pending =>
    simp only [waiting, Except.ok.injEq] at h
    exact .inl ⟨pending, rfl, h.symm⟩
  | none =>
    by_cases reauth : object.authState = .reauthRequired
    · simp [waiting, reauth] at h
    · simp only [waiting, reauth, if_false, Except.ok.injEq] at h
      exact .inr ⟨rfl, reauth, h.symm⟩

variable {given : ExchangeAnswer τ}

/-- A call goes on with granted tokens, or with the mark. -/
theorem answer_eq_ok (h : phase.answer provider given = some (.ok phase')) :
    ∃ current, phase = .exchanging current ∧
      ((∃ tokens expiresAt, given = .granted tokens expiresAt ∧
        phase' = .writing (refreshUpdate current tokens expiresAt)) ∨ phase' = .marking) := by
  unfold RefreshPhase.answer at h
  split at h
  case h_2 => cases h
  case h_1 current =>
    refine ⟨current, rfl, ?_⟩
    rcases next : refreshNext provider current given with update | - | kind
    all_goals simp only [next, Option.some.injEq, Except.ok.injEq, reduceCtorEq] at h
    · obtain ⟨tokens, expiresAt, rfl, rfl⟩ := refreshNext_eq_write next
      exact .inl ⟨tokens, expiresAt, rfl, h.symm⟩
    · exact .inr h.symm

variable {credentials : Credentials τ}

/-- A call that begins brings what is pending, or nothing. -/
theorem carries_start (h : start object = .ok phase) (carried : phase.carries = some credentials) :
    ∃ pending, object.pendingUpdate = some pending ∧ pending.credentials = credentials := by
  obtain ⟨pending, waiting, rfl⟩ | ⟨-, -, rfl⟩ := start_eq_ok h
  · exact ⟨pending, waiting, Option.some.inj carried⟩
  · cases carried

/-- A call that is answered brings the granted tokens, or nothing. -/
theorem carries_answer (h : phase.answer provider given = some (.ok phase'))
    (carried : phase'.carries = some credentials) :
    ∃ expiresAt, given = .granted credentials.tokens expiresAt := by
  obtain ⟨current, -, ⟨tokens, expiresAt, rfl, rfl⟩ | rfl⟩ := answer_eq_ok h
  · obtain rfl := Option.some.inj carried
    exact ⟨expiresAt, rfl⟩
  · cases carried

/-- The store gets what the call brings, and the call still has it. -/
theorem carries_store {stored : Bool} {row row' : Option (StoredAccount τ)}
    (h : phase.store stored row = some (phase', row')) :
    (∀ credentials, phase'.carries = some credentials → phase.carries = some credentials) ∧
      (row'.map (·.credential.credentials) = row.map (·.credential.credentials) ∨
        ∀ account ∈ row', phase.carries = some account.credential.credentials) := by
  cases phase with
  | persisting update | writing update =>
    obtain ⟨rfl, rfl⟩ := h
    refine ⟨fun _ => id, ?_⟩
    rcases swap_credentials update stored row with same | own
    · exact .inl (congrArg _ same)
    · exact .inr fun account haccount => by rw [own account haccount, carries]
  | marking =>
    obtain ⟨rfl, rfl⟩ := h
    refine ⟨nofun, .inl ?_⟩
    have same := congrArg (Option.map (·.credentials)) (mark_credentials stored row)
    rwa [Option.map_map, Option.map_map] at same
  | exchanging | persisted | wrote | marked => cases h

/-- The object takes what the call brought, or keeps what it has. -/
theorem carries_finish {retryAt : Option ℤ} {object' : AccountState τ}
    {result : Except RefreshErrorKind Unit}
    (h : phase.finish refreshAt provider retryAt object = some (object', result)) :
    (object'.credentials = object.credentials ∨
        phase.carries = some object'.credentials) ∧
      ∀ update, object'.pendingUpdate = some update →
        object.pendingUpdate = some update ∨ phase.carries = some update.credentials := by
  cases phase with
  | persisted _ outcome =>
    obtain rfl := congrArg Prod.fst (Option.some.inj h)
    rcases outcome with - | - | - <;> simp +contextual [AccountState.finishPending]
  | wrote _ outcome =>
    obtain rfl := congrArg Prod.fst (Option.some.inj h)
    rcases outcome with - | - | - <;>
      simp +contextual [AccountState.finishRefresh, carries, eq_comm]
  | marked =>
    obtain rfl := congrArg Prod.fst (Option.some.inj h)
    unfold AccountState.markReauthRequired
    split <;> exact ⟨.inl rfl, fun _ => .inl⟩
  | exchanging | persisting | writing | marking => cases h

end RefreshPhase

end ProviderCore.Accounts
