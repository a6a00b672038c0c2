import ProviderCore.Accounts.Manager

/-!
# The installed account and its stored credential

With every storage call succeeding and operations run one at a time, the object installed for an
enabled account should carry the credential of its row.  It does as long as no discovery writes
the row behind the back of the operation it serves: the object of a discovery that wins its
compare-and-swap moves the stored revision, so the commit that follows meets a conflict, its
object is thrown away and the installed one stays behind.
-/

namespace ProviderCore.Accounts

variable {τ : Type} {refreshAt : RefreshAt τ}

/-- The object carries the credential of the row and nothing is left to write. -/
structure AccountState.Mirrors (object : AccountState τ) (account : StoredAccount τ) : Prop where
  revision : object.revision = account.credential.revision
  credentials : object.credentials = account.credential.credentials
  expiresAt : object.expiresAt = account.credential.expiresAt
  nothingPending : object.pendingUpdate = none

variable {account : StoredAccount τ}

/-- An enabled account is installed with its stored credential. -/
def Slot.Aligned (slot : Slot τ) : Prop :=
  ∀ account, slot.row = some account → account.enabled = true →
    ∃ object, slot.installed = some object ∧ object.Mirrors account

theorem fromStored_mirrors (account : StoredAccount τ) :
    (fromStored refreshAt account).Mirrors account :=
  ⟨rfl, rfl, rfl, rfl⟩

/-! ## Calls that write nothing -/

/-- At most the auth state of the row has changed. -/
def Remarked (row row' : Option (StoredAccount τ)) : Prop :=
  row' = row ∨ ∃ state code, row' = updateAuthState state code row

/-- A call left the credential of the object and of the row as they were. -/
structure Unwritten (object : AccountState τ) (row : Option (StoredAccount τ))
    (after : AccountState τ × Option (StoredAccount τ)) : Prop where
  revision : after.1.revision = object.revision
  credentials : after.1.credentials = object.credentials
  expiresAt : after.1.expiresAt = object.expiresAt
  pending : after.1.pendingUpdate = object.pendingUpdate
  row : Remarked row after.2

variable {object : AccountState τ} {row : Option (StoredAccount τ)}

theorem Unwritten.refl (object : AccountState τ) (row : Option (StoredAccount τ)) :
    Unwritten object row (object, row) :=
  ⟨rfl, rfl, rfl, rfl, .inl rfl⟩

theorem Remarked.trans {row row' row'' : Option (StoredAccount τ)} (h : Remarked row row')
    (h' : Remarked row' row'') : Remarked row row'' := by
  rcases h' with rfl | ⟨state', code', rfl⟩
  · exact h
  · rcases h with rfl | ⟨state, code, rfl⟩
    · exact .inr ⟨state', code', rfl⟩
    · exact .inr ⟨state', code', by cases row <;> rfl⟩

theorem Unwritten.trans {after after' : AccountState τ × Option (StoredAccount τ)}
    (h : Unwritten object row after) (h' : Unwritten after.1 after.2 after') :
    Unwritten object row after' :=
  ⟨h'.revision.trans h.revision, h'.credentials.trans h.credentials,
    h'.expiresAt.trans h.expiresAt, h'.pending.trans h.pending, h.row.trans h'.row⟩

variable {row' : Option (StoredAccount τ)}

theorem Remarked.some (h : Remarked (some account) row') : ∃ state code,
      row' = some { account with authState := state, safeErrorCode := code } := by
  rcases h with rfl | ⟨state, code, rfl⟩
  · exact ⟨account.authState, account.safeErrorCode, rfl⟩
  · exact ⟨state, code, rfl⟩

/-- The row cannot be the one the object expects. -/
def Outdated (object : AccountState τ) (row : Option (StoredAccount τ)) : Prop :=
  ∀ account, row = some account → account.credential.revision ≠ object.revision

variable {after : AccountState τ × Option (StoredAccount τ)}

theorem Outdated.of_unwritten
    (h : Outdated object row) (h' : Unwritten object row after) : Outdated after.1 after.2 := by
  intro account haccount
  rw [h'.revision]
  rcases h'.row with hrow | ⟨state, code, hrow⟩
  · exact h account (hrow ▸ haccount)
  · rw [hrow, updateAuthState, Option.map_eq_some_iff] at haccount
    obtain ⟨stored, hstored, rfl⟩ := haccount
    exact h stored hstored

variable {update : CredentialUpdate τ}

theorem Outdated.compareAndSwap (h : Outdated object row)
    (hupdate : update.expectedRevision = object.revision) :
    compareAndSwapCredential update row = (.conflict, row) := by
  rcases row with _ | account
  · rfl
  · exact if_neg fun he => h account rfl (he.trans hupdate)

variable {provider : ProviderKind} {now : ℤ} {answer : ExchangeAnswer τ}

/-- A refresh that is not granted tokens, or whose write must lose, writes nothing. -/
theorem refreshCredentials_unwritten (hpending : object.pendingUpdate = none)
    (h : Outdated object row ∨ ∀ tokens expiresAt, answer ≠ .granted tokens expiresAt) :
    Unwritten object row (refreshCredentials refreshAt provider now answer object row).1 := by
  unfold refreshCredentials AccountState.beginRefresh
  simp only [hpending]
  by_cases hauth : object.authState = .reauthRequired
  · simp only [hauth, if_true]
    exact .refl object row
  · simp only [hauth, if_false]
    have hmark : Unwritten object row
        ((object.markReauthRequired provider (some (now + persistenceRetrySeconds)) row.isSome).1,
          updateAuthState .reauthRequired (some "refresh_reauth_required") row) := by
      unfold AccountState.markReauthRequired
      split <;> exact ⟨rfl, rfl, rfl, rfl, .inr ⟨_, _, rfl⟩⟩
    cases answer with
    | granted tokens expiresAt =>
      have hlost := h.resolve_right fun hnot => hnot tokens expiresAt rfl
      simp only [refreshNext]
      rw [hlost.compareAndSwap rfl]
      exact .refl object row
    | unusable defect =>
      by_cases hkind : unusableKind provider defect = .reauthRequired
      · simp only [refreshNext, hkind, if_true]
        exact hmark
      · simp only [refreshNext, hkind, if_false]
        exact .refl object row
    | refused kind =>
      cases kind with
      | reauthRequired => exact hmark
      | transient | internal => exact .refl object row

/-- The subject is known, cannot be found out, or is found out in vain. -/
def NothingToComplete (subject : Option String) (object : AccountState τ)
    (row : Option (StoredAccount τ)) : Prop :=
  Outdated object row ∨ object.credentials.subject.isSome ∨ subject = none

variable {subject : Option String}

theorem credentialsForRequest_unwritten (h : NothingToComplete subject object row) :
    Unwritten object row (credentialsForRequest subject object row).1 := by
  unfold credentialsForRequest
  rcases hknown : object.credentials.subject with _ | known
  · rcases subject with _ | projectId
    · exact .refl object row
    · have hlost : Outdated object row := by simpa [NothingToComplete, hknown] using h
      simp only
      rw [hlost.compareAndSwap rfl]
      exact .refl object row
  · exact .refl object row

theorem credentialsWithUpstreamUserId_unwritten
    (hpending : object.pendingUpdate = none) (h : NothingToComplete subject object row) :
    Unwritten object row (credentialsWithUpstreamUserId subject object row).1 := by
  unfold credentialsWithUpstreamUserId
  rcases hknown : object.credentials.subject with _ | known
  · rcases subject with _ | userId
    · exact .refl object row
    · have hlost : Outdated object row := by simpa [NothingToComplete, hknown] using h
      simp only [AccountState.mergeUserId, hpending]
      rw [hlost.compareAndSwap rfl]
      exact .refl object row
  · exact .refl object row

/-- When the discovery of models leaves the row alone. -/
def QuietDiscovery (provider : ProviderKind) (now : ℤ) (upstream : Upstream τ)
    (object : AccountState τ) : Prop :=
  match provider with
  | .grok => object.credentials.subject.isSome ∨ upstream.subject = none
  | .antigravity =>
    (object.refreshDue now = true →
      ∀ tokens expiresAt, upstream.exchange ≠ .granted tokens expiresAt) ∧
    (object.credentials.subject.isSome ∨ upstream.subject = none)
  | .codex | .openAiCompatible | .anthropicCompatible => True

variable {upstream : Upstream τ}

theorem discoverModels_unwritten (hpending : object.pendingUpdate = none)
    (h : Outdated object row ∨ QuietDiscovery provider now upstream object) :
    Unwritten object row (discoverModels refreshAt provider now upstream object row).1 := by
  cases provider with
  | grok => exact credentialsWithUpstreamUserId_unwritten hpending h
  | antigravity =>
    have hrefreshed : Unwritten object row
        (if object.refreshDue now then
          refreshCredentials refreshAt .antigravity now upstream.exchange object row
        else ((object, row), .ok ())).1 := by
      split
      · next hdue =>
          exact refreshCredentials_unwritten hpending (h.imp_right fun hquiet => hquiet.1 hdue)
      · exact .refl object row
    unfold discoverModels
    simp only
    generalize (if object.refreshDue now then
        refreshCredentials refreshAt .antigravity now upstream.exchange object row
      else ((object, row), .ok ())) = refreshed at hrefreshed ⊢
    split
    · exact hrefreshed
    · refine hrefreshed.trans (credentialsForRequest_unwritten ?_)
      rcases h with houtdated | hquiet
      · exact .inl (houtdated.of_unwritten hrefreshed)
      · refine .inr ?_
        rw [hrefreshed.credentials]
        exact hquiet.2
  | codex | openAiCompatible | anthropicCompatible => exact .refl object row

/-! ## Calls on the object that mirrors the row -/

/-- A call on an object and its row that keeps them together. -/
def StaysMirrored (account : StoredAccount τ)
    (after : AccountState τ × Option (StoredAccount τ)) : Prop :=
  ∃ account', after.2 = some account' ∧ after.1.Mirrors account' ∧
    account'.enabled = account.enabled

theorem Unwritten.staysMirrored (hmirrors : object.Mirrors account)
    (h : Unwritten object (some account) after) : StaysMirrored account after := by
  obtain ⟨_, _, hrow⟩ := h.row.some
  refine ⟨_, hrow, ⟨?_, ?_, ?_, ?_⟩, rfl⟩
  · exact h.revision.trans hmirrors.revision
  · exact h.credentials.trans hmirrors.credentials
  · exact h.expiresAt.trans hmirrors.expiresAt
  · exact h.pending.trans hmirrors.nothingPending

theorem AccountState.Mirrors.compareAndSwap (h : object.Mirrors account)
    (hupdate : update.expectedRevision = object.revision) :
    compareAndSwapCredential update (some account) =
      (.updated (object.revision + 1),
        some { account with
          authState := .active
          safeErrorCode := none
          credential := { account.credential with
            revision := object.revision + 1
            credentials := update.credentials
            expiresAt := update.expiresAt } }) := by
  rw [compareAndSwapCredential, if_pos (h.revision.symm.trans hupdate.symm), hupdate]

theorem refreshCredentials_staysMirrored (h : object.Mirrors account) :
    StaysMirrored account
      (refreshCredentials refreshAt provider now answer object (some account)).1 := by
  by_cases hgranted : ∃ tokens expiresAt, answer = .granted tokens expiresAt
  · obtain ⟨_, _, rfl⟩ := hgranted
    unfold refreshCredentials AccountState.beginRefresh
    simp only [h.nothingPending]
    by_cases hauth : object.authState = .reauthRequired
    · simp only [hauth, if_true]
      exact (Unwritten.refl object _).staysMirrored h
    · simp only [hauth, if_false, refreshNext]
      rw [h.compareAndSwap rfl]
      exact ⟨_, rfl, ⟨rfl, rfl, rfl, rfl⟩, rfl⟩
  · refine (refreshCredentials_unwritten h.nothingPending (.inr ?_)).staysMirrored h
    exact fun tokens expiresAt he => hgranted ⟨tokens, expiresAt, he⟩

theorem refreshCredentials_enabled {current account : StoredAccount τ}
    (h : (refreshCredentials refreshAt provider now answer object (some current)).1.2 =
      some account) : account.enabled = current.enabled := by
  have hswap : ∀ (update : CredentialUpdate τ) (account : StoredAccount τ),
      (compareAndSwapCredential update (some current)).2 = some account →
        account.enabled = current.enabled := by
    intro update account haccount
    simp only [compareAndSwapCredential] at haccount
    split at haccount <;> cases haccount <;> rfl
  unfold refreshCredentials at h
  split at h
  · exact hswap _ _ h
  · cases h
    rfl
  · split at h
    · exact hswap _ _ h
    · cases h
      rfl
    · cases h
      rfl

theorem credentialsForRequest_staysMirrored (h : object.Mirrors account) :
    StaysMirrored account (credentialsForRequest subject object (some account)).1 := by
  by_cases hnothing : object.credentials.subject.isSome ∨ subject = none
  · exact (credentialsForRequest_unwritten (.inr hnothing)).staysMirrored h
  · obtain ⟨hunknown, hanswer⟩ := not_or.mp hnothing
    obtain ⟨_, rfl⟩ := Option.ne_none_iff_exists'.mp hanswer
    rw [Bool.not_eq_true, Option.isSome_eq_false_iff, Option.isNone_iff_eq_none] at hunknown
    unfold credentialsForRequest
    simp only [hunknown]
    rw [h.compareAndSwap rfl]
    exact ⟨_, rfl, ⟨rfl, rfl, rfl, rfl⟩, rfl⟩

theorem fetchQuota_staysMirrored (h : object.Mirrors account) :
    StaysMirrored account (fetchQuota provider upstream object (some account)).1 := by
  cases provider with
  | antigravity => exact credentialsForRequest_staysMirrored h
  | grok | codex | openAiCompatible | anthropicCompatible =>
    exact (Unwritten.refl object _).staysMirrored h

theorem fetchQuotaRefreshing_staysMirrored {unauthorized : Bool} (h : object.Mirrors account) :
    StaysMirrored account
      (fetchQuotaRefreshing refreshAt provider now unauthorized upstream object
        (some account)) := by
  unfold fetchQuotaRefreshing
  obtain ⟨first, hfirst, hmirrors, henabled⟩ :=
    @fetchQuota_staysMirrored _ _ _ provider upstream h
  simp only
  split
  · obtain ⟨second, hsecond, hmirrors₂, henabled₂⟩ :=
      @refreshCredentials_staysMirrored _ refreshAt _ _ provider now upstream.exchange hmirrors
    rw [hfirst]
    split
    · obtain ⟨third, hthird, hmirrors₃, henabled₃⟩ :=
        @fetchQuota_staysMirrored _ _ _ provider upstream hmirrors₂
      rw [hsecond]
      exact ⟨third, hthird, hmirrors₃, henabled₃.trans (henabled₂.trans henabled)⟩
    · exact ⟨second, hsecond, hmirrors₂, henabled₂.trans henabled⟩
  · exact ⟨first, hfirst, hmirrors, henabled⟩

/-! ## Operations -/

variable {slot : Slot τ}

theorem Slot.Aligned.remarked (h : slot.Aligned) (hrow : Remarked slot.row row') :
    Slot.Aligned ⟨row', slot.installed⟩ := by
  intro account haccount henabled
  rcases hstored : slot.row with _ | stored
  · rw [hstored] at hrow
    rcases hrow with rfl | ⟨state, code, rfl⟩ <;> cases haccount
  · rw [hstored] at hrow
    obtain ⟨_, _, hnew⟩ := hrow.some
    obtain rfl := Option.some.inj (hnew.symm.trans haccount)
    obtain ⟨object, hobject, hmirrors⟩ := h stored hstored henabled
    exact ⟨object, hobject, hmirrors.1, hmirrors.2, hmirrors.3, hmirrors.4⟩

variable {candidate : StoredAccount τ} {expectedRevision : Option ℕ}

/-- What an operation on an existing account must not do. -/
def Settles (after : Slot τ × Except ManagerError Unit) : Prop :=
  after.1.Aligned ∧ after.2 ≠ .error .conflict

/-- A commit over the revision that is stored goes through and installs the object. -/
theorem commitCandidate_settles (hmirrors : object.Mirrors candidate)
    (hexpected : slot.row.map (·.credential.revision) = expectedRevision) :
    Settles (commitCandidate candidate object expectedRevision slot) := by
  have hinstalled : ∀ account : StoredAccount τ, account.credential = candidate.credential →
      account.enabled = candidate.enabled →
      Slot.Aligned ⟨some account, if candidate.enabled then some object else none⟩ := by
    rintro _ hcredential henabled _ ⟨⟩ hon
    refine ⟨object, if_pos (henabled ▸ hon), ?_, ?_, ?_, hmirrors.nothingPending⟩
    · exact hcredential ▸ hmirrors.revision
    · exact hcredential ▸ hmirrors.credentials
    · exact hcredential ▸ hmirrors.expiresAt
  subst hexpected
  rcases slot with ⟨_ | stored, installed⟩
  · exact ⟨hinstalled candidate rfl rfl, nofun⟩
  · simp only [commitCandidate, commitProviderSnapshot, Option.map_some, if_true]
    refine ⟨?_, nofun⟩
    split
    · exact hinstalled _ rfl rfl
    · exact hinstalled _ rfl rfl

theorem Remarked.revision (h : Remarked row row') :
    row'.map (·.credential.revision) = row.map (·.credential.revision) := by
  rcases h with rfl | ⟨state, code, rfl⟩
  · rfl
  · exact Option.map_map ..

/-- A discovery that leaves the row alone, followed by its commit. -/
theorem discoverAndCommit_settles {required : Bool} (h : slot.Aligned)
    (hquiet : Outdated (fromStored refreshAt candidate) slot.row ∨
      QuietDiscovery candidate.provider now upstream (fromStored refreshAt candidate))
    (hexpected : slot.row.map (·.credential.revision) = expectedRevision) :
    Settles
      (discoverAndCommit refreshAt candidate expectedRevision now upstream required slot) := by
  have hun := @discoverModels_unwritten _ refreshAt (fromStored refreshAt candidate) slot.row
    candidate.provider now upstream rfl hquiet
  unfold discoverAndCommit
  generalize discoverModels refreshAt candidate.provider now upstream
    (fromStored refreshAt candidate) slot.row = found at hun ⊢
  obtain ⟨⟨_, row⟩, _⟩ := found
  have hslot : Slot.Aligned ⟨row, slot.installed⟩ := h.remarked hun.row
  simp only
  split
  · exact ⟨hslot, nofun⟩
  · exact commitCandidate_settles ⟨hun.revision, hun.credentials, hun.expiresAt, hun.pending⟩
      (hun.row.revision.trans hexpected)

/-- The operations whose discovery writes nothing.  A new account has a fresh random id. -/
def Slot.Quiet (refreshAt : RefreshAt τ) (now : ℤ) (upstream : Upstream τ) (slot : Slot τ) :
    Operation τ → Prop
  | .create .. => slot.row = none
  | .updateAccount priority configJson => ∀ current, slot.row = some current →
      ¬(current.configJson = configJson ∧ current.priority = priority) →
        QuietDiscovery current.provider now upstream (fromStored refreshAt current)
  | .setAccountEnabled enabled => ∀ current, slot.row = some current → enabled = true →
      QuietDiscovery current.provider now upstream (fromStored refreshAt current)
  | .refreshModels => ∀ current, slot.row = some current →
      QuietDiscovery current.provider now upstream (fromStored refreshAt current)
  | .refreshCatalog => ∀ current, slot.row = some current → current.enabled = true →
      QuietDiscovery current.provider now upstream (fromStored refreshAt current)
  | _ => True

/-- The operations on an existing account. -/
def Operation.creates : Operation τ → Bool
  | .create .. => true
  | _ => false

section Existing

variable {installed : Option (AccountState τ)} {current : StoredAccount τ}
  (h : Slot.Aligned ⟨some current, installed⟩)

include h

/-- The object of a replaced credential is one revision ahead, so it cannot write the old row. -/
theorem updateAccountWithCredential_settles (priority : ℕ) (configJson : String)
    (credentials : Credentials τ) (expiresAt : Option ℤ) :
    Settles (updateAccountWithCredential refreshAt now upstream priority configJson credentials
      expiresAt current ⟨some current, installed⟩) := by
  refine discoverAndCommit_settles h (.inl ?_) rfl
  rintro _ ⟨⟩
  exact (Nat.succ_ne_self _).symm

theorem updateAccount_settles {priority : ℕ} {configJson : String}
    (hquiet : ¬(current.configJson = configJson ∧ current.priority = priority) →
      QuietDiscovery current.provider now upstream (fromStored refreshAt current)) :
    Settles (updateAccount refreshAt now upstream priority configJson current
      ⟨some current, installed⟩) := by
  unfold updateAccount
  split
  · exact ⟨h, nofun⟩
  · next hchanged => exact discoverAndCommit_settles h (.inr (hquiet hchanged)) rfl

theorem setAccountEnabled_settles {enabled : Bool} (hquiet : enabled = true →
      QuietDiscovery current.provider now upstream (fromStored refreshAt current)) :
    Settles (setAccountEnabled refreshAt now upstream enabled current
      ⟨some current, installed⟩) := by
  unfold setAccountEnabled
  split
  · next hon => exact discoverAndCommit_settles h (.inr (hquiet hon)) rfl
  · exact commitCandidate_settles (fromStored_mirrors _) rfl

theorem refreshModels_settles
    (hquiet : QuietDiscovery current.provider now upstream (fromStored refreshAt current)) :
    Settles (refreshModels refreshAt now upstream current ⟨some current, installed⟩) :=
  discoverAndCommit_settles h (.inr hquiet) rfl

omit h in
/-- A call on the installed object. -/
theorem aligned_of_staysMirrored
    (hstays : StaysMirrored current after) : Slot.Aligned ⟨after.2, some after.1⟩ := by
  obtain ⟨_, hrow', hmirrors, -⟩ := hstays
  rintro _ haccount -
  obtain rfl := Option.some.inj (hrow'.symm.trans haccount)
  exact ⟨after.1, rfl, hmirrors⟩

theorem quota_aligned {unauthorized : Bool} :
    (quota refreshAt now upstream unauthorized current ⟨some current, installed⟩).Aligned := by
  unfold quota
  split
  · next hon =>
      obtain ⟨_, rfl, hmirrors⟩ := h current rfl hon
      simp only
      split
      · exact aligned_of_staysMirrored (fetchQuotaRefreshing_staysMirrored hmirrors)
      · exact h
  · next hoff =>
      simp only
      split
      · -- The account is disabled and stays so: nothing has to be installed.
        obtain ⟨_, hrow', -, henabled⟩ := @fetchQuotaRefreshing_staysMirrored _ refreshAt
          _ _ current.provider now upstream unauthorized
          (@fromStored_mirrors _ refreshAt current)
        intro account haccount hon
        obtain rfl := Option.some.inj (hrow'.symm.trans haccount)
        exact absurd (henabled ▸ hon) hoff
      · exact h

theorem refreshInstalled_aligned :
    (refreshInstalled refreshAt now upstream current ⟨some current, installed⟩).Aligned := by
  rcases installed with _ | object
  · exact h
  · by_cases hon : current.enabled = true
    · obtain ⟨_, ⟨⟩, hmirrors⟩ := h current rfl hon
      exact aligned_of_staysMirrored (refreshCredentials_staysMirrored hmirrors)
    · -- A disabled account is not enabled by a refresh, so nothing has to be installed.
      intro account haccount hon'
      exact absurd ((refreshCredentials_enabled haccount).symm.trans hon') hon

end Existing

theorem Slot.Aligned.perform {operation : Operation τ} (h : slot.Aligned)
    (hquiet : slot.Quiet refreshAt now upstream operation) :
    Settles (slot.perform refreshAt now upstream operation) := by
  rcases slot with ⟨_ | current, installed⟩
  · cases operation with
    | create => exact discoverAndCommit_settles h (.inl fun _ => nofun) rfl
    | _ => exact ⟨h, nofun⟩
  · cases operation with
    | rejected => exact ⟨h, nofun⟩
    | create => cases hquiet
    | updateAccount => exact updateAccount_settles h (hquiet current rfl)
    | updateAccountWithCredential | updateCredential =>
      exact updateAccountWithCredential_settles h ..
    | setAccountEnabled => exact setAccountEnabled_settles h (hquiet current rfl)
    | deleteAccount => exact ⟨fun _ => nofun, nofun⟩
    | refreshModels => exact refreshModels_settles h (hquiet current rfl)
    | refreshCatalog =>
      simp only [Slot.perform]
      split
      · next hon => exact refreshModels_settles h (hquiet current rfl hon)
      · exact ⟨h, nofun⟩
    | quota => exact ⟨quota_aligned h, nofun⟩
    | refresh => exact ⟨refreshInstalled_aligned h, nofun⟩

/-! ## Runs -/

/-- The accounts by id. -/
abbrev World (τ : Type) := String → Slot τ

/-- An operation on an account, with the clock and the upstream it meets. -/
structure Command (τ : Type) where
  accountId : String
  now : ℤ
  upstream : Upstream τ
  operation : Operation τ

variable (refreshAt)

/-- The enabled accounts are installed when the server starts. -/
def startup (rows : String → Option (StoredAccount τ)) : World τ := fun id =>
  ⟨rows id, ((rows id).filter StoredAccount.enabled).map (fromStored refreshAt)⟩

def World.perform (world : World τ) (command : Command τ) : World τ × Except ManagerError Unit :=
  let (slot, result) :=
    (world command.accountId).perform refreshAt command.now command.upstream command.operation
  (Function.update world command.accountId slot, result)

def World.run : (world : World τ) → (commands : List (Command τ)) →
    List (Command τ × World τ × Except ManagerError Unit)
  | _, [] => []
  | world, command :: commands =>
    let after := World.perform refreshAt world command
    (command, after) :: World.run after.1 commands

/-- No discovery of the run writes the row of its account. -/
def World.QuietRun : (world : World τ) → (commands : List (Command τ)) → Prop
  | _, [] => True
  | world, command :: commands =>
    (world command.accountId).Quiet refreshAt command.now command.upstream command.operation ∧
      World.QuietRun (World.perform refreshAt world command).1 commands

variable {refreshAt}

theorem startup_aligned (rows : String → Option (StoredAccount τ)) (id : String) :
    (startup refreshAt rows id).Aligned := by
  intro account haccount henabled
  have hrow : rows id = some account := haccount
  refine ⟨fromStored refreshAt account, ?_, fromStored_mirrors account⟩
  simp [startup, hrow, Option.filter, henabled]

variable {world : World τ}

theorem World.aligned_perform (h : ∀ id, (world id).Aligned) {command : Command τ}
    (hquiet : (world command.accountId).Quiet refreshAt command.now command.upstream
      command.operation) (id : String) :
    ((World.perform refreshAt world command).1 id).Aligned := by
  simp only [World.perform, Function.update_apply]
  split
  · exact ((h command.accountId).perform hquiet).1
  · exact h id

theorem World.aligned_run (h : ∀ id, (world id).Aligned)
    {commands : List (Command τ)} (hquiet : World.QuietRun refreshAt world commands) :
    ∀ step ∈ World.run refreshAt world commands, (∀ id, (step.2.1 id).Aligned) ∧
      (step.1.operation.creates = true ∨ step.2.2 ≠ .error .conflict) := by
  induction commands generalizing world with
  | nil => exact fun _ hstep => absurd hstep List.not_mem_nil
  | cons command _ ih =>
    have hnext := World.aligned_perform h hquiet.1
    exact List.forall_mem_cons.mpr
      ⟨⟨hnext, .inr ((h command.accountId).perform hquiet.1).2⟩, ih hnext hquiet.2⟩

/-- In every run of operations and refreshes, executed one at a time on what was stored at the
start, in which no discovery writes the row of its account: after each of them every enabled
account is installed with its stored revision and credential, and no operation on an existing
account is turned down as a concurrent change. -/
theorem installed_accounts_mirror_rows (refreshAt : RefreshAt τ)
    (rows : String → Option (StoredAccount τ)) (commands : List (Command τ))
    (hquiet : World.QuietRun refreshAt (startup refreshAt rows) commands) :
    ∀ step ∈ World.run refreshAt (startup refreshAt rows) commands,
      (∀ id account, (step.2.1 id).row = some account → account.enabled = true →
        ∃ object, (step.2.1 id).installed = some object ∧
          object.revision = account.credential.revision ∧
          object.credentials = account.credential.credentials) ∧
      (step.1.operation.creates = true ∨ step.2.2 ≠ .error .conflict) := by
  intro step hstep
  obtain ⟨haligned, hresult⟩ := World.aligned_run (startup_aligned rows) hquiet step hstep
  refine ⟨fun id account hrow henabled => ?_, hresult⟩
  obtain ⟨object, hobject, hmirrors⟩ := haligned id account hrow henabled
  exact ⟨object, hobject, hmirrors.revision, hmirrors.credentials⟩

/-! ## Three accounts -/

def sampleRows : String → Option (StoredAccount ℕ)
  | "antigravity" => some (sampleAccount .antigravity true (some "project"))
  | "disabled" => some (sampleAccount .antigravity false (some "project"))
  | "grok" => some (sampleAccount .grok true none)
  | _ => none

/-- An upstream that answers everything. -/
def willing : Upstream ℕ := ⟨.granted 1 (some 500), some "user", true⟩

/-- A model refresh before the credential is due, and then a scheduled refresh. -/
theorem installed_accounts_mirror_rows_refreshed :
    let commands : List (Command ℕ) :=
      [⟨"antigravity", 50, willing, .refreshModels⟩, ⟨"antigravity", 200, willing, .refresh⟩]
    World.QuietRun dueAtExpiry (startup dueAtExpiry sampleRows) commands ∧
      ∀ step ∈ World.run dueAtExpiry (startup dueAtExpiry sampleRows) commands,
        (∀ id account, (step.2.1 id).row = some account → account.enabled = true →
          ∃ object, (step.2.1 id).installed = some object ∧
            object.revision = account.credential.revision ∧
            object.credentials = account.credential.credentials) ∧
        (step.1.operation.creates = true ∨ step.2.2 ≠ .error .conflict) := by
  intro commands
  have hquiet : World.QuietRun dueAtExpiry (startup dueAtExpiry sampleRows) commands := by
    refine ⟨?_, trivial, trivial⟩
    rintro current ⟨⟩
    exact ⟨fun hdue => absurd hdue (by decide), .inl rfl⟩
  exact ⟨hquiet, installed_accounts_mirror_rows dueAtExpiry sampleRows _ hquiet⟩

/-- The result of a command on the sample accounts, and afterwards the stored and the installed
revision of its account. -/
def afterCommand (command : Command ℕ) : Except ManagerError Unit × Option ℕ × Option ℕ :=
  let after := World.perform dueAtExpiry (startup dueAtExpiry sampleRows) command
  let slot := after.1 command.accountId
  (after.2, slot.row.map (·.credential.revision), slot.installed.map (·.revision))

/-- A model refresh of an Antigravity account whose credential is due, and a change of priority of
a Grok account without a user id, are turned down as concurrent changes and leave the installed
account a revision behind.  An Antigravity account that was disabled past its expiry cannot be
enabled. -/
theorem discovery_outruns_commit :
    afterCommand ⟨"antigravity", 200, willing, .refreshModels⟩ =
        (.error .conflict, some 1, some 0) ∧
      afterCommand ⟨"grok", 50, willing, .updateAccount 2 ""⟩ =
        (.error .conflict, some 1, some 0) ∧
      afterCommand ⟨"disabled", 200, willing, .setAccountEnabled true⟩ =
        (.error .conflict, some 1, none) :=
  ⟨rfl, rfl, rfl⟩

end ProviderCore.Accounts
