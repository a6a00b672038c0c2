import ProviderCore.Lib.Await
import ProviderCore.Accounts.Account

/-!
# What becomes of exchanged tokens

One refresh exchange that the upstream accepted, and everything that can follow.  The call that
made it may be dropped with the client's request, at the exchange or at the write; other calls may
change the object and the row while it waits; and a write that stays pending is retried by later
refreshes, which may be dropped as well.
-/

namespace ProviderCore.Accounts

open Await

variable {τ : Type} (refreshAt : RefreshAt τ) (provider : ProviderKind)

/-! ## A call and its continuation -/

/-- What the upstream answers to an exchange that it accepts: the old pair is used up. -/
structure Grant (τ : Type) where
  tokens : τ
  expiresAt : Option ℤ
  /-- Why the driver cannot use the pair, if it cannot. -/
  defect : Option TokenDefect
deriving DecidableEq

def Grant.answer (grant : Grant τ) : ExchangeAnswer τ :=
  match grant.defect with
  | none => .granted grant.tokens grant.expiresAt
  | some defect => .unusable defect

/-- A later call that finds the write pending: the row as it finds it, and what becomes of it. -/
structure Retry (τ : Type) where
  row : Option (StoredAccount τ)
  fate : Fate
  retryAt : Option ℤ

structure Continuation (τ : Type) where
  /-- Is the call still there when the answer of the upstream arrives? -/
  seesAnswer : Bool
  /-- The row when the call goes on to the store, and what becomes of the statement. -/
  row : Option (StoredAccount τ)
  fate : Fate
  object : AccountState τ
  retryAt : Option ℤ
  retries : List (Retry τ)

/-- The rest of `refresh_credentials` from the exchange on. -/
def afterExchange (current : AccountState τ) (grant : Grant τ) (after : Continuation τ) :
    AccountState τ × Option (StoredAccount τ) :=
  if after.seesAnswer then
    match refreshNext provider current grant.answer with
    | .write update =>
      match after.fate.perform (fun row => some (compareAndSwapCredential update row))
        after.row with
      | (.answer outcome, row) =>
        ((after.object.finishRefresh refreshAt provider update after.retryAt
          (some outcome)).1, row)
      | (.error, row) =>
        ((after.object.finishRefresh refreshAt provider update after.retryAt none).1, row)
      | (.dropped, row) => (after.object, row)
    | .markReauth =>
      let mark (row : Option (StoredAccount τ)) := row.map fun account =>
        ((), updateAuthState .reauthRequired (some "refresh_reauth_required") (some account))
      match after.fate.perform mark after.row with
      | (.answer _, row) =>
        ((after.object.markReauthRequired provider after.retryAt true).1, row)
      | (.error, row) =>
        ((after.object.markReauthRequired provider after.retryAt false).1, row)
      | (.dropped, row) => (after.object, row)
    | .fail _ => (after.object, after.row)
  else (after.object, after.row)

/-- A later `refresh_credentials`, as far as it retries the write; with nothing pending it would
exchange anew. -/
def retryPending (object : AccountState τ) (row : Option (StoredAccount τ)) (retry : Retry τ) :
    AccountState τ × Option (StoredAccount τ) :=
  match object.pendingUpdate with
  | none => (object, row)
  | some pending =>
    match retry.fate.perform (fun row => some (compareAndSwapCredential pending row))
      retry.row with
    | (.answer outcome, row) =>
      ((object.finishPending refreshAt provider retry.retryAt (some outcome)).1, row)
    | (.error, row) => ((object.finishPending refreshAt provider retry.retryAt none).1, row)
    | (.dropped, row) => (object, row)

def retryAll (reached : AccountState τ × Option (StoredAccount τ)) (retries : List (Retry τ)) :
    AccountState τ × Option (StoredAccount τ) :=
  retries.foldl (fun (object, row) => retryPending refreshAt provider object row) reached

def continueExchange (current : AccountState τ) (grant : Grant τ) (after : Continuation τ) :
    AccountState τ × Option (StoredAccount τ) :=
  retryAll refreshAt provider (afterExchange refreshAt provider current grant after)
    after.retries

/-- The object holds the tokens, and they are stored or pending. -/
def Kept (tokens : τ) (reached : AccountState τ × Option (StoredAccount τ)) : Prop :=
  reached.1.credentials.tokens = tokens ∧
    ((∃ account ∈ reached.2, account.credential.credentials.tokens = tokens) ∨
      ∃ update ∈ reached.1.pendingUpdate, update.credentials.tokens = tokens)

instance [DecidableEq τ] (tokens : τ) (reached : AccountState τ × Option (StoredAccount τ)) :
    Decidable (Kept tokens reached) :=
  inferInstanceAs (Decidable (_ ∧ _))

/-! ## Retries -/

section Retries

variable {refreshAt : RefreshAt τ} {provider : ProviderKind} {tokens : τ}
  {object : AccountState τ} {row : Option (StoredAccount τ)}

theorem retryPending_credentials (retry : Retry τ) :
    (retryPending refreshAt provider object row retry).1.credentials = object.credentials := by
  unfold retryPending
  split
  · rfl
  · split
    case h_1 outcome _ _ => cases outcome <;> rfl
    case h_2 => rfl
    case h_3 => rfl

/-- The write of a credential stores it, if it succeeds at all. -/
theorem compareAndSwapCredential_updated {update : CredentialUpdate τ}
    {row row' : Option (StoredAccount τ)} {revision : ℕ}
    (h : compareAndSwapCredential update row = (.updated revision, row')) :
    ∃ account ∈ row', account.credential.credentials = update.credentials := by
  cases row with
  | none => simp [compareAndSwapCredential] at h
  | some account =>
    by_cases hr : account.credential.revision = update.expectedRevision
    · simp only [compareAndSwapCredential, hr, if_true, Prod.mk.injEq] at h
      obtain ⟨-, rfl⟩ := h
      exact ⟨_, rfl, rfl⟩
    · simp [compareAndSwapCredential, hr] at h

/-- The form of `Kept` that calls leave behind: nothing but these tokens is pending. -/
def Settled (tokens : τ) (reached : AccountState τ × Option (StoredAccount τ)) : Prop :=
  reached.1.credentials.tokens = tokens ∧
    (reached.1.pendingUpdate = none ∧
        (∃ account ∈ reached.2, account.credential.credentials.tokens = tokens) ∨
      ∃ update, reached.1.pendingUpdate = some update ∧ update.credentials.tokens = tokens)

variable {reached : AccountState τ × Option (StoredAccount τ)}

theorem Settled.kept (h : Settled tokens reached) : Kept tokens reached :=
  ⟨h.1, h.2.imp And.right id⟩

/-- A retry stores the tokens or leaves them pending. -/
theorem Settled.retryPending (h : Settled tokens (object, row)) (retry : Retry τ) :
    Settled tokens (retryPending refreshAt provider object row retry) := by
  refine ⟨(congrArg _ (retryPending_credentials retry)).trans h.1, ?_⟩
  obtain ⟨-, ⟨nothing, stored⟩ | ⟨pending, waiting, fresh⟩⟩ := h
  · change object.pendingUpdate = none at nothing
    simp only [Accounts.retryPending, nothing]
    exact .inl ⟨trivial, stored⟩
  · change object.pendingUpdate = some pending at waiting
    obtain ⟨found, fate, _⟩ := retry
    cases fate <;> simp only [Accounts.retryPending, waiting, Fate.perform]
    case answered =>
        rcases swapped : compareAndSwapCredential pending found with ⟨revision | -, row'⟩
        · obtain ⟨account, here, same⟩ := compareAndSwapCredential_updated swapped
          exact .inl ⟨rfl, account, here, by rw [same, fresh]⟩
        · exact .inr ⟨pending, waiting, fresh⟩
    case failed => exact .inr ⟨pending, waiting, fresh⟩
    -- a dropped retry leaves the object as it was
    case droppedBefore => exact .inr ⟨pending, rfl, fresh⟩
    case droppedAfter => exact .inr ⟨pending, rfl, fresh⟩

theorem retryAll_credentials (retries : List (Retry τ))
    (reached : AccountState τ × Option (StoredAccount τ)) :
    (retryAll refreshAt provider reached retries).1.credentials = reached.1.credentials := by
  induction retries generalizing reached with
  | nil => rfl
  | cons retry _ ih => exact (ih _).trans (retryPending_credentials retry)

theorem Settled.retryAll (h : Settled tokens reached) (retries : List (Retry τ)) :
    Settled tokens (retryAll refreshAt provider reached retries) := by
  induction retries generalizing reached with
  | nil => exact h
  | cons retry _ ih => exact ih (h.retryPending retry)

end Retries

/-! ## The exchange -/

section Exchange

variable {current : AccountState τ} {grant : Grant τ} {after : Continuation τ}

/-- The call sees an answer that it can use, and its write fails in the store or finds the row at
the revision of the exchange. -/
def Continuation.Lands (after : Continuation τ) (current : AccountState τ) (grant : Grant τ) :
    Prop :=
  after.seesAnswer ∧ grant.defect = none ∧
    (after.fate = .failed ∨ after.fate = .answered ∧
      ∃ account ∈ after.row, account.credential.revision = current.revision)

theorem settled_afterExchange (lands : after.Lands current grant) :
    Settled grant.tokens (afterExchange refreshAt provider current grant after) := by
  obtain ⟨sees, usable, failed | ⟨answered, account, here, revision⟩⟩ := lands
  · simp only [afterExchange, sees, Grant.answer, usable, refreshNext, failed, Fate.perform,
      if_true]
    exact ⟨rfl, .inr ⟨_, rfl, rfl⟩⟩
  · have here : after.row = some account := here
    simp only [afterExchange, sees, Grant.answer, usable, refreshNext, answered, Fate.perform,
      if_true, here, compareAndSwapCredential, refreshUpdate, revision]
    exact ⟨rfl, .inl ⟨rfl, _, rfl, rfl⟩⟩

/-- A pair that the driver cannot use never reaches the object. -/
theorem afterExchange_unusable {defect : TokenDefect} (unusable : grant.defect = some defect) :
    (afterExchange refreshAt provider current grant after).1.credentials =
      after.object.credentials := by
  have mark (stored : Bool) :
      (after.object.markReauthRequired provider after.retryAt stored).1.credentials =
        after.object.credentials := by
    unfold AccountState.markReauthRequired
    split <;> rfl
  simp only [afterExchange, Grant.answer, unusable, refreshNext]
  split
  case isFalse => rfl
  case isTrue =>
      by_cases reauth : unusableKind provider defect = .reauthRequired
      · simp only [reauth, if_true]
        split
        · exact mark true
        · exact mark false
        · rfl
      · simp [reauth]

/-- The object gets the tokens in no other way. -/
theorem lands_of_tokens (new : after.object.credentials.tokens ≠ grant.tokens)
    (h : (afterExchange refreshAt provider current grant after).1.credentials.tokens =
      grant.tokens) : after.Lands current grant := by
  cases sees : after.seesAnswer with
  | false => exact absurd (by simpa [afterExchange, sees] using h) new
  | true =>
    cases hd : grant.defect with
    | some =>
      rw [afterExchange_unusable refreshAt provider hd] at h
      exact absurd h new
    | none =>
      simp only [afterExchange, sees, if_true, Grant.answer, hd, refreshNext] at h
      refine ⟨sees, hd, ?_⟩
      cases hf : after.fate with
      | failed => exact .inl rfl
      | droppedBefore | droppedAfter => exact absurd (by simpa [hf, Fate.perform] using h) new
      | answered =>
        refine .inr ⟨rfl, ?_⟩
        cases hr : after.row with
        | none =>
          exact absurd (by simpa [hf, hr, Fate.perform, compareAndSwapCredential,
            AccountState.finishRefresh] using h) new
        | some account =>
          by_cases revision : account.credential.revision = current.revision
          · exact ⟨account, rfl, revision⟩
          · exact absurd (by simpa [hf, hr, Fate.perform, compareAndSwapCredential,
              refreshUpdate, revision, AccountState.finishRefresh] using h) new

end Exchange

/-- Exchanged tokens are kept exactly if their write lands or fails in the store. -/
theorem exchanged_tokens_kept_iff (current : AccountState τ) (grant : Grant τ)
    (after : Continuation τ) (new : after.object.credentials.tokens ≠ grant.tokens) :
    Kept grant.tokens (continueExchange refreshAt provider current grant after) ↔
      after.Lands current grant := by
  constructor
  · intro kept
    refine lands_of_tokens refreshAt provider new ?_
    rw [← retryAll_credentials]
    exact kept.1
  · intro lands
    exact ((settled_afterExchange refreshAt provider lands).retryAll after.retries).kept

/-- A Codex account at its first revision, with tokens 0. -/
def heldState : AccountState ℕ :=
  fromStored dueAtExpiry (sampleAccount .codex true none)

/-- Its row, at a given revision. -/
def heldRow (revision : ℕ) : StoredAccount ℕ :=
  let account := sampleAccount .codex true none
  { account with credential := { account.credential with revision } }

/-- The exchange grants tokens 1. -/
def nextGrant : Grant ℕ where
  tokens := 1
  expiresAt := some 200
  defect := none

/-- The call goes on undisturbed, with the row at a given revision. -/
def undisturbed (seesAnswer : Bool) (revision : ℕ) (fate : Fate) : Continuation ℕ where
  seesAnswer
  row := some (heldRow revision)
  fate
  object := heldState
  retryAt := some 130
  retries := []

theorem exchanged_tokens_kept_retried :
    Kept 1 (continueExchange dueAtExpiry .codex heldState nextGrant
      { undisturbed true 0 .failed with
        retries :=
          [⟨some (heldRow 0), .droppedBefore, none⟩, ⟨some (heldRow 0), .answered, none⟩] }) :=
  (exchanged_tokens_kept_iff _ _ _ nextGrant _ (by decide)).mpr ⟨rfl, rfl, .inl rfl⟩

/-- The tokens of the object, of its pending write and of the row in the end. -/
def tokensReached (after : Continuation ℕ) : ℕ × Option ℕ × Option ℕ :=
  let (object, row) := continueExchange dueAtExpiry .codex heldState nextGrant after
  (object.credentials.tokens, object.pendingUpdate.map (·.credentials.tokens),
    row.map (·.credential.credentials.tokens))

/-- The object is left with the old tokens when the request is dropped before the answer arrives,
when it is dropped during the write, stored or not, and when someone else has written the row. -/
theorem exchanged_tokens_lost :
    tokensReached (undisturbed false 0 .answered) = (0, none, some 0) ∧
    tokensReached (undisturbed true 0 .droppedBefore) = (0, none, some 0) ∧
    tokensReached (undisturbed true 0 .droppedAfter) = (0, none, some 1) ∧
    tokensReached (undisturbed true 1 .answered) = (0, none, some 0) ∧
    ¬Kept 1 (continueExchange dueAtExpiry .codex heldState nextGrant
      (undisturbed true 0 .droppedAfter)) ∧
    ¬Kept 1 (continueExchange dueAtExpiry .codex heldState nextGrant
      (undisturbed true 1 .answered)) := by
  decide

end ProviderCore.Accounts
