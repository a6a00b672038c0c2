import ProviderCore.Lib.Await
import ProviderCore.Lib.Fold
import ProviderCore.Storage.AuthRepository

/-!
# The API key authenticator

`ApiKeyAuthenticator` of `provider-auth/src/service.rs` answers every request from a map of the
active keys in memory and edits that map beside the store.  The mutations run one at a time
under a lock.  Each takes the `Fate` of its awaited repository calls, so that one application of
a mutation is one call with one pattern of answers, failures and cancellation: a call that ends
`cancelled` leaves behind what it had done until its future was dropped.

The digest of a secret is a parameter.  The groups a user can see are looked up in tables of
their own, so each of those answers is an input.
-/

namespace ProviderCore.Auth

open Storage Await

inductive AuthError
  | alreadyConfigured
  | invalidCredentials
  | invalidSession
  | invalidApiKey
  | invalidApiKeyValue
  | forbidden
  | conflict
  | notFound
  | lastEnabledSuperAdmin
  | userHasProviderAccounts
  | invalidInvitation
  | invalidUsername
  | invalidLabel
  | invalidExpiry
  | invalidQuotaLimit
  | groupNotFound
  | invalidGroup
  | passwordTask
  | credential
  | repository
deriving DecidableEq

/-! ## Input checks -/

def normalizeGroupLabel (groupLabel : String) : Except AuthError String :=
  let groupLabel := Text.trim groupLabel
  if groupLabel.toList = [] ∨ 64 < groupLabel.toList.length then .error .invalidGroup
  else .ok groupLabel

/-- Trim the labels and keep the first of each. -/
def normalizeGroupLabels (groupLabels : List String) : Except AuthError (List String) := do
  let normalized ← groupLabels.foldlM (fun normalized groupLabel => do
    let groupLabel ← normalizeGroupLabel groupLabel
    pure (if groupLabel ∈ normalized then normalized else normalized ++ [groupLabel])) []
  if normalized = [] then .error .invalidGroup else .ok normalized

/-- A printable ASCII character other than the space. -/
def isAsciiGraphic (c : Char) : Bool := 0x21 ≤ c.toNat && c.toNat ≤ 0x7E

def validateApiKeySecret (key : String) : Except AuthError Unit :=
  if key.toList = [] ∨ 1024 < key.utf8ByteSize ∨ ¬key.toList.all isAsciiGraphic then
    .error .invalidApiKeyValue
  else .ok ()

/-- Trim a text that may be up to 128 bytes long. -/
def normalizeText (invalid : AuthError) (text : String) : Except AuthError String :=
  let text := Text.trim text
  if text.toList = [] ∨ 128 < text.utf8ByteSize then .error invalid else .ok text

def normalizeUsername (username : String) : Except AuthError String :=
  normalizeText .invalidUsername username

def normalizeLabel (label : String) : Except AuthError String := normalizeText .invalidLabel label

/-- An expiry that has passed. -/
def expired (expiresAt : Option ℤ) (now : ℤ) : Bool := expiresAt.any (· ≤ now)

def parseQuotaLimit (quotaLimitUsd : String) : Except AuthError String :=
  match parseQuotaLimitUsd quotaLimitUsd with
  | .ok atoms => .ok atoms
  | .error _ => .error .invalidQuotaLimit

/-- All but the first and last three characters are hidden. -/
def maskApiKey (key : String) : String :=
  let characters := key.toList
  if characters.length ≤ 6 then .ofList (List.replicate characters.length '*')
  else .ofList (characters.take 3 ++ List.replicate (characters.length - 6) '*' ++
    characters.drop (characters.length - 3))

structure ApiKeySummary where
  id : String
  ownerUserId : String
  groupLabels : List String
  label : String
  key : String
  enabled : Bool
  expiresAt : Option ℤ
  quotaLimitAtoms : Option String
  spentAtoms : String
deriving DecidableEq

def apiKeySummary (key : ApiKeyRow) : ApiKeySummary where
  id := key.id
  ownerUserId := key.ownerUserId
  groupLabels := key.groupLabels
  label := key.label
  key := maskApiKey key.key
  enabled := key.enabled
  expiresAt := key.expiresAt
  quotaLimitAtoms := key.quotaLimitAtoms
  spentAtoms := key.spentAtoms

/-! ## The map -/

structure ActiveApiKey where
  id : String
  ownerUserId : String
  label : String
  groupLabels : List String
  quotaLimitAtoms : Option String
  expiresAt : Option ℤ
deriving DecidableEq

/-- The map in memory, by the digest of the secret. -/
abbrev ActiveKeys (δ : Type) := Table (Prod.fst : δ × ActiveApiKey → δ)

variable {δ : Type} [DecidableEq δ] (digestSecret : String → δ) (active : ActiveKeys δ)

/-- The entry of a stored key. -/
def activeEntry (key : ApiKeyRow) : δ × ActiveApiKey :=
  (digestSecret key.key,
    { id := key.id
      ownerUserId := key.ownerUserId
      label := key.label
      groupLabels := key.groupLabels
      quotaLimitAtoms := key.quotaLimitAtoms
      expiresAt := key.expiresAt })

/-- Collect entries into a map; a later entry replaces an earlier one of its digest. -/
def extend (entries : List (δ × ActiveApiKey)) : ActiveKeys δ :=
  entries.foldl Table.upsert active

def activeKeyMap (keys : List ApiKeyRow) : ActiveKeys δ :=
  extend Table.empty (keys.map (activeEntry digestSecret))

def removeActive (ownerUserId keyId : String) : Option (δ × ActiveApiKey) × ActiveKeys δ :=
  match active.rows.find? fun entry =>
      entry.2.id = keyId ∧ entry.2.ownerUserId = ownerUserId with
  | none => (none, active)
  | some entry => (some entry, active.filter fun other => other.1 ≠ entry.1)

def restoreActive (removed : Option (δ × ActiveApiKey)) : ActiveKeys δ :=
  match removed with
  | none => active
  | some entry => active.upsert entry

def removeOwnerActive (ownerUserId : String) : List (δ × ActiveApiKey) × ActiveKeys δ :=
  (active.rows.filter fun entry => entry.2.ownerUserId = ownerUserId,
    active.filter fun entry => entry.2.ownerUserId ≠ ownerUserId)

structure AuthenticatedApiKey where
  keyId : String
  ownerUserId : String
  label : String
  groupLabels : List String
  quotaLimitAtoms : Option String
deriving DecidableEq

def authenticate (key : String) (now : ℤ) : Except AuthError AuthenticatedApiKey :=
  match active.find? (digestSecret key) with
  | none => .error .invalidApiKey
  | some (_, key) =>
    if expired key.expiresAt now then .error .invalidApiKey
    else .ok
      { keyId := key.id
        ownerUserId := key.ownerUserId
        label := key.label
        groupLabels := key.groupLabels
        quotaLimitAtoms := key.quotaLimitAtoms }

/-- The store and the map beside it. -/
structure Keyring (δ : Type) where
  db : AuthDb
  active : ActiveKeys δ

def load (db : AuthDb) : Keyring δ := ⟨db, activeKeyMap digestSecret (loadActiveApiKeys db)⟩

/-! ## Mutations of keys -/

/-- Every group has an account the owner can see, one lookup after the other. -/
def requireVisibleGroups :
    (groupLabels : List String) → (lookups : List (Reply (List String))) → Ended AuthError Unit
  | [], _ => .returned ()
  | _ :: _, [] => .cancelled
  | _ :: groupLabels, .answer accountIds :: lookups =>
    if accountIds = [] then .failed .groupNotFound
    else requireVisibleGroups groupLabels lookups
  | _ :: _, .error :: _ => .failed .repository
  | _ :: _, .dropped :: _ => .cancelled

structure CreateApiKeyInput where
  ownerUserId : String
  secret : String
  groupLabels : List String
  label : String
  expiresAt : Option ℤ
  quotaLimitUsd : Option String
  now : ℤ
deriving DecidableEq

/-- The checked row of a new key. -/
def newApiKey (input : CreateApiKeyInput) (id : String) : Except AuthError ApiKeyRow := do
  let label ← normalizeLabel input.label
  let groupLabels ← normalizeGroupLabels input.groupLabels
  validateApiKeySecret input.secret
  if expired input.expiresAt input.now then .error .invalidExpiry
  let quotaLimitAtoms ← input.quotaLimitUsd.mapM parseQuotaLimit
  pure
    { id, ownerUserId := input.ownerUserId, groupLabels, label, key := input.secret
      enabled := true, expiresAt := input.expiresAt, quotaLimitAtoms, spentAtoms := "0" }

theorem newApiKey_enabled {input : CreateApiKeyInput} {id : String} {key : ApiKeyRow}
    (h : newApiKey input id = .ok key) : key.enabled = true := by
  obtain ⟨_, -, h⟩ := Fold.bind_eq_ok.mp h
  obtain ⟨_, -, h⟩ := Fold.bind_eq_ok.mp h
  obtain ⟨-, -, h⟩ := Fold.bind_eq_ok.mp h
  split at h
  · cases h
  · obtain ⟨_, -, h⟩ := Fold.bind_eq_ok.mp h
    cases h
    rfl

variable (ring : Keyring δ)

/-- The end of `create`, from the insertion on. -/
def insertKey (key : ApiKeyRow) (created : Fate) :
    Ended AuthError (ApiKeySummary × String) × Keyring δ :=
  match created.perform (createApiKey key) ring.db with
  | (.answer true, db) =>
    (.returned (apiKeySummary key, key.key),
      ⟨db, ring.active.upsert (activeEntry digestSecret key)⟩)
  | (.answer false, db) => (.failed .conflict, ⟨db, ring.active⟩)
  | (.error, db) => (.failed .repository, ⟨db, ring.active⟩)
  | (.dropped, db) => (.cancelled, ⟨db, ring.active⟩)

def create (input : CreateApiKeyInput) (id : String)
    (lookups : List (Reply (List String))) (created : Fate) :
    Ended AuthError (ApiKeySummary × String) × Keyring δ :=
  match newApiKey input id with
  | .error error => (.failed error, ring)
  | .ok key =>
    match requireVisibleGroups key.groupLabels lookups with
    | .returned () => insertKey digestSecret ring key created
    | .failed error => (.failed error, ring)
    | .cancelled => (.cancelled, ring)

structure ApiKeyPatch where
  label : Option String
  groupLabels : Option (List String)
  enabled : Option Bool
  expiresAt : Option (Option ℤ)
  quotaLimitUsd : Option (Option String)
  updatedAt : ℤ
deriving DecidableEq

/-- The checked update of a stored key. -/
def storedApiKeyUpdate (patch : ApiKeyPatch) (current : ApiKeyRow) :
    Except AuthError StoredApiKeyUpdate := do
  if expired patch.expiresAt.join patch.updatedAt then .error .invalidExpiry
  let label ← match patch.label with
    | some value => normalizeLabel value
    | none => pure current.label
  let groupLabels ← match patch.groupLabels with
    | some value => normalizeGroupLabels value
    | none => pure current.groupLabels
  let quotaLimitAtoms ← patch.quotaLimitUsd.mapM fun limit => limit.mapM parseQuotaLimit
  pure
    { groupLabels, label, quotaLimitAtoms
      enabled := patch.enabled.getD current.enabled
      expiresAt := patch.expiresAt.getD current.expiresAt }

/-- The end of `update`, from the edit of the map on. -/
def changeKey (ownerUserId keyId : String) (change : StoredApiKeyUpdate)
    (updated : Fate) : Ended AuthError ApiKeySummary × Keyring δ :=
  let (removed, active) := removeActive ring.active ownerUserId keyId
  match updated.perform (some ∘ updateApiKey ownerUserId keyId change) ring.db with
  | (.answer (some key), db) =>
    (.returned (apiKeySummary key),
      ⟨db, if key.enabled then active.upsert (activeEntry digestSecret key) else active⟩)
  | (.answer none, db) => (.failed .notFound, ⟨db, restoreActive active removed⟩)
  | (.error, db) => (.failed .repository, ⟨db, restoreActive active removed⟩)
  | (.dropped, db) => (.cancelled, ⟨db, active⟩)

def update (ownerUserId keyId : String) (patch : ApiKeyPatch) (loaded : Fate)
    (lookups : List (Reply (List String))) (updated : Fate) :
    Ended AuthError ApiKeySummary × Keyring δ :=
  match loaded.read (loadApiKey ring.db ownerUserId keyId) with
  | .error => (.failed .repository, ring)
  | .dropped => (.cancelled, ring)
  | .answer none => (.failed .notFound, ring)
  | .answer (some current) =>
    match storedApiKeyUpdate patch current with
    | .error error => (.failed error, ring)
    | .ok change =>
      match requireVisibleGroups change.groupLabels lookups with
      | .returned () => changeKey digestSecret ring ownerUserId keyId change updated
      | .failed error => (.failed error, ring)
      | .cancelled => (.cancelled, ring)

def delete (ownerUserId keyId : String) (deleted : Fate) : Ended AuthError Unit × Keyring δ :=
  let (removed, active) := removeActive ring.active ownerUserId keyId
  match deleted.perform (some ∘ deleteApiKey ownerUserId keyId) ring.db with
  | (.answer true, db) => (.returned (), ⟨db, active⟩)
  | (.answer false, db) => (.failed .notFound, ⟨db, restoreActive active removed⟩)
  | (.error, db) => (.failed .repository, ⟨db, restoreActive active removed⟩)
  | (.dropped, db) => (.cancelled, ⟨db, active⟩)

/-! ## Mutations of users -/

/-- A user as a session check saw it. -/
abbrev UserSummary := UserRow

/-- `AuthService::set_user_enabled`, which reads the user back after the change. -/
def authSetUserEnabled (db : AuthDb) (actor : UserSummary) (userId : String) (enabled : Bool)
    (now : ℤ) (changed loaded : Fate) : Ended AuthError UserSummary × AuthDb :=
  if actor.role ≠ .superAdmin then (.failed .forbidden, db)
  else if !enabled ∧ actor.id = userId then (.failed .forbidden, db)
  else match changed.perform (some ∘ Storage.setUserEnabled userId enabled now) db with
    | (.answer .updated, db) =>
      match loaded.read (db.users.find? userId) with
      | .answer (some user) => (.returned user, db)
      | .answer none => (.failed .notFound, db)
      | .error => (.failed .repository, db)
      | .dropped => (.cancelled, db)
    | (.answer .notFound, db) => (.failed .notFound, db)
    | (.answer .lastEnabledSuperAdmin, db) => (.failed .lastEnabledSuperAdmin, db)
    | (.error, db) => (.failed .repository, db)
    | (.dropped, db) => (.cancelled, db)

/-- `AuthService::delete_user`. -/
def authDeleteUser (db : AuthDb) (actor : UserSummary) (userId : String) (deleted : Fate) :
    Ended AuthError Unit × AuthDb :=
  if actor.role ≠ .superAdmin then (.failed .forbidden, db)
  else if actor.id = userId then (.failed .forbidden, db)
  else match deleted.perform (some ∘ Storage.deleteUser userId) db with
    | (.answer .deleted, db) => (.returned (), db)
    | (.answer .notFound, db) => (.failed .notFound, db)
    | (.answer .lastEnabledSuperAdmin, db) => (.failed .lastEnabledSuperAdmin, db)
    | (.answer .hasProviderAccounts, db) => (.failed .userHasProviderAccounts, db)
    | (.error, db) => (.failed .repository, db)
    | (.dropped, db) => (.cancelled, db)

/-- Both mutations of users take the user's keys out of the map first and put them back if the
change to the user ends in an error. -/
def withoutOwner {α : Type} (removed : List (δ × ActiveApiKey))
    (active : ActiveKeys δ) (change : AuthDb → Ended AuthError α × AuthDb) :
    Ended AuthError α × Keyring δ :=
  match change ring.db with
  | (.returned value, db) => (.returned value, ⟨db, active⟩)
  | (.failed error, db) => (.failed error, ⟨db, extend active removed⟩)
  | (.cancelled, db) => (.cancelled, ⟨db, active⟩)

def setUserEnabled (actor : UserSummary) (userId : String) (enabled : Bool)
    (now : ℤ) (changed loaded : Fate) : Ended AuthError UserSummary × Keyring δ :=
  let (removed, active) :=
    if enabled then ([], ring.active) else removeOwnerActive ring.active userId
  withoutOwner ring removed active fun db =>
    authSetUserEnabled db actor userId enabled now changed loaded

def deleteUser (actor : UserSummary) (userId : String) (deleted : Fate) :
    Ended AuthError Unit × Keyring δ :=
  let (removed, active) := removeOwnerActive ring.active userId
  withoutOwner ring removed active fun db => authDeleteUser db actor userId deleted

/-! ## Runs -/

/-- One call of a mutation, with what becomes of its repository calls. -/
inductive Call
  /-- Dropped while it waited for the lock. -/
  | abandoned
  | create (input : CreateApiKeyInput) (id : String) (lookups : List (Reply (List String)))
      (created : Fate)
  | update (ownerUserId keyId : String) (patch : ApiKeyPatch) (loaded : Fate)
      (lookups : List (Reply (List String))) (updated : Fate)
  | delete (ownerUserId keyId : String) (deleted : Fate)
  | setUserEnabled (actor : UserSummary) (userId : String) (enabled : Bool) (now : ℤ)
      (changed loaded : Fate)
  | deleteUser (actor : UserSummary) (userId : String) (deleted : Fate)

def Keyring.perform : Call → Keyring δ
  | .abandoned => ring
  | .create input id lookups created => (create digestSecret ring input id lookups created).2
  | .update ownerUserId keyId patch loaded lookups updated =>
    (update digestSecret ring ownerUserId keyId patch loaded lookups updated).2
  | .delete ownerUserId keyId deleted => (delete ring ownerUserId keyId deleted).2
  | .setUserEnabled actor userId enabled now changed loaded =>
    (setUserEnabled ring actor userId enabled now changed loaded).2
  | .deleteUser actor userId deleted => (deleteUser ring actor userId deleted).2

end ProviderCore.Auth
