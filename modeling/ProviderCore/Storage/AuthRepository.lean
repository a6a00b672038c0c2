import ProviderCore.Storage.Schema

/-!
# Users, sessions and API keys in storage

The statements of `provider-storage/src/sqlite/auth.rs` that the API key authenticator and the
account administration run.  The uniqueness of secrets, session tokens and user names and the
foreign keys are fields of the database, so no statement can leave a database without them; one
that would violate a constraint has no result.  Digests are texts.  The time stamps of updates
are left out, and of an account only the owner is kept.
-/

namespace ProviderCore.Storage

open List

inductive UserRole
  | superAdmin
  | user
deriving DecidableEq

structure UserRow where
  id : String
  username : String
  passwordHash : String
  role : UserRole
  enabled : Bool
  createdAt : ℤ
deriving DecidableEq

structure SessionRow where
  id : String
  userId : String
  tokenHash : String
  expiresAt : ℤ
  revokedAt : Option ℤ
deriving DecidableEq

structure InvitationRow where
  tokenHash : String
  role : UserRole
  expiresAt : ℤ
deriving DecidableEq

/-- What `COLLATE NOCASE` compares: ASCII letters without their case. -/
def nocase (username : String) : List Char := username.toList.map Char.toLower

/-- The part of the database the authenticator and the administration work on. -/
structure AuthDb where
  users : Table UserRow.id
  /-- The user column of the one row of `auth_setup`. -/
  initialUserId : Option String
  invitations : Table InvitationRow.tokenHash
  sessions : Table SessionRow.id
  apiKeys : Table ApiKeyRow.id
  /-- The owner column of the provider accounts. -/
  accountOwners : List (Option String)
  usernamesNodup : (users.rows.map fun user => nocase user.username).Nodup
  tokensNodup : (sessions.rows.map SessionRow.tokenHash).Nodup
  secretsNodup : (apiKeys.rows.map ApiKeyRow.key).Nodup
  setupOwned : ∀ userId ∈ initialUserId, (users.find? userId).isSome
  sessionsOwned : ∀ session ∈ sessions.rows, (users.find? session.userId).isSome
  keysOwned : ∀ key ∈ apiKeys.rows, (users.find? key.ownerUserId).isSome

namespace AuthDb

def userEnabled (db : AuthDb) (userId : String) : Bool :=
  (db.users.find? userId).any UserRow.enabled

/-- Is there an enabled super admin besides this user? -/
def otherSuperAdmin (db : AuthDb) (userId : String) : Bool :=
  db.users.rows.any fun other =>
    other.id ≠ userId && other.role == .superAdmin && other.enabled

variable {key key' : ApiKeyRow} {db : AuthDb}

theorem secret_inj (h : key ∈ db.apiKeys.rows)
    (h' : key' ∈ db.apiKeys.rows) (hkey : key.key = key'.key) : key = key' :=
  inj_on_of_nodup_map db.secretsNodup h h' hkey

theorem id_inj (h : key ∈ db.apiKeys.rows)
    (h' : key' ∈ db.apiKeys.rows) (hid : key.id = key'.id) : key = key' :=
  inj_on_of_nodup_map db.apiKeys.nodup h h' hid

end AuthDb

/-! ## Statements on API keys -/

/-- `INSERT … ON CONFLICT DO NOTHING`, and whether a row was inserted. -/
def createApiKey (key : ApiKeyRow) (db : AuthDb) : Option (Bool × AuthDb) :=
  if hfree : db.apiKeys.find? key.id = none ∧ key.key ∉ db.apiKeys.rows.map ApiKeyRow.key then
    if howner : (db.users.find? key.ownerUserId).isSome then
      some (true,
        { db with
          apiKeys := db.apiKeys.insertNew key
          secretsNodup := by
            rw [Table.rows_insertNew hfree.1, map_append, nodup_append]
            refine ⟨db.secretsNodup, by simp, fun a ha b hb => ?_⟩
            obtain rfl : b = key.key := by simpa using hb
            exact fun he => hfree.2 (he ▸ ha)
          keysOwned := fun key' hkey' => by
            rcases Table.mem_insertNew hkey' with h | ⟨rfl, -⟩
            · exact db.keysOwned key' h
            · exact howner })
    else none
  else some (false, db)

def loadApiKey (db : AuthDb) (ownerUserId keyId : String) : Option ApiKeyRow :=
  (db.apiKeys.find? keyId).filter fun key => key.ownerUserId = ownerUserId

structure StoredApiKeyUpdate where
  groupLabels : List String
  label : String
  enabled : Bool
  expiresAt : Option ℤ
  quotaLimitAtoms : Option (Option String)
deriving DecidableEq

/-- The row an update leaves.  An absent limit keeps the stored one. -/
def StoredApiKeyUpdate.apply (update : StoredApiKeyUpdate) (key : ApiKeyRow) : ApiKeyRow :=
  { key with
    groupLabels := update.groupLabels
    label := update.label
    enabled := update.enabled
    expiresAt := update.expiresAt
    quotaLimitAtoms := update.quotaLimitAtoms.getD key.quotaLimitAtoms }

/-- Change keys in place, leaving their id, secret and owner alone. -/
def AuthDb.mapKeys (db : AuthDb) (f : ApiKeyRow → ApiKeyRow)
    (hf : ∀ key, (f key).id = key.id ∧ (f key).key = key.key ∧
      (f key).ownerUserId = key.ownerUserId) : AuthDb :=
  { db with
    apiKeys := ⟨db.apiKeys.rows.map f, by
      rw [map_map, show ApiKeyRow.id ∘ f = ApiKeyRow.id from funext fun key => (hf key).1]
      exact db.apiKeys.nodup⟩
    secretsNodup := by
      rw [map_map, show ApiKeyRow.key ∘ f = ApiKeyRow.key from funext fun key => (hf key).2.1]
      exact db.secretsNodup
    keysOwned := fun key hkey => by
      obtain ⟨key', hkey', rfl⟩ := mem_map.mp hkey
      rw [(hf key').2.2]
      exact db.keysOwned key' hkey' }

/-- `UPDATE … WHERE id = ? AND owner_user_id = ? RETURNING …`. -/
def updateApiKey (ownerUserId keyId : String) (update : StoredApiKeyUpdate) (db : AuthDb) :
    Option ApiKeyRow × AuthDb :=
  ((loadApiKey db ownerUserId keyId).map update.apply,
    db.mapKeys
      (fun key => if key.id = keyId ∧ key.ownerUserId = ownerUserId then update.apply key else key)
      (fun key => by split <;> exact ⟨rfl, rfl, rfl⟩))

def AuthDb.filterKeys (db : AuthDb) (p : ApiKeyRow → Bool) : AuthDb :=
  { db with
    apiKeys := db.apiKeys.filter p
    secretsNodup := (filter_sublist.map _).nodup db.secretsNodup
    keysOwned := fun key hkey => db.keysOwned key (Table.mem_filter.mp hkey).1 }

def deleteApiKey (ownerUserId keyId : String) (db : AuthDb) : Bool × AuthDb :=
  ((loadApiKey db ownerUserId keyId).isSome,
    db.filterKeys fun key => ¬(key.id = keyId ∧ key.ownerUserId = ownerUserId))

/-- `WHERE k.enabled = 1 AND u.enabled = 1`. -/
def loadActiveApiKeys (db : AuthDb) : List ApiKeyRow :=
  db.apiKeys.rows.filter fun key => key.enabled && db.userEnabled key.ownerUserId

variable {ownerUserId keyId : String} {db : AuthDb}

theorem loadApiKey_eq_some {key : ApiKeyRow} :
    loadApiKey db ownerUserId keyId = some key ↔
      key ∈ db.apiKeys.rows ∧ key.id = keyId ∧ key.ownerUserId = ownerUserId := by
  simp [loadApiKey, Option.filter_eq_some_iff, Table.find?_eq_some, and_assoc]

theorem loadApiKey_eq_none :
    loadApiKey db ownerUserId keyId = none ↔
      ∀ key ∈ db.apiKeys.rows, ¬(key.id = keyId ∧ key.ownerUserId = ownerUserId) := by
  constructor
  · intro h key hkey hmatch
    have := loadApiKey_eq_some.mpr ⟨hkey, hmatch⟩
    rw [h] at this
    cases this
  · intro h
    rcases hload : loadApiKey db ownerUserId keyId with _ | key
    · rfl
    · obtain ⟨hkey, hmatch⟩ := loadApiKey_eq_some.mp hload
      exact absurd hmatch (h key hkey)

/-! ## Changes to the rows of users and sessions -/

namespace AuthDb

def mapUser (db : AuthDb) (userId : String) (f : UserRow → UserRow)
    (hf : ∀ user, (f user).id = user.id ∧ (f user).username = user.username) : AuthDb :=
  { db with
    users := db.users.modify userId f fun user => (hf user).1
    usernamesNodup := by
      have hnames : ∀ user, nocase (if user.id = userId then f user else user).username =
          nocase user.username := fun user => by
        split
        · rw [(hf user).2]
        · rfl
      simpa [Table.modify, Function.comp_def, hnames] using db.usernamesNodup
    setupOwned := fun id hid => by
      rw [Table.isSome_find?_modify]
      exact db.setupOwned id hid
    sessionsOwned := fun session hsession => by
      rw [Table.isSome_find?_modify]
      exact db.sessionsOwned session hsession
    keysOwned := fun key hkey => by
      rw [Table.isSome_find?_modify]
      exact db.keysOwned key hkey }

/-- Change sessions in place, leaving their id, token and user alone. -/
def mapSessions (db : AuthDb) (f : SessionRow → SessionRow)
    (hf : ∀ session, (f session).id = session.id ∧ (f session).tokenHash = session.tokenHash ∧
      (f session).userId = session.userId) : AuthDb :=
  { db with
    sessions := ⟨db.sessions.rows.map f, by
      rw [map_map, show SessionRow.id ∘ f = SessionRow.id from funext fun row => (hf row).1]
      exact db.sessions.nodup⟩
    tokensNodup := by
      rw [map_map,
        show SessionRow.tokenHash ∘ f = SessionRow.tokenHash from funext fun row => (hf row).2.1]
      exact db.tokensNodup
    sessionsOwned := fun session hsession => by
      obtain ⟨session', hsession', rfl⟩ := mem_map.mp hsession
      rw [(hf session').2.2]
      exact db.sessionsOwned session' hsession' }

/-- Close the sessions that satisfy `p` and are open. -/
def closeSessions (db : AuthDb) (p : SessionRow → Bool) (revokedAt : ℤ) : AuthDb :=
  db.mapSessions
    (fun session => if p session ∧ session.revokedAt = none then
      { session with revokedAt := some revokedAt } else session)
    (fun session => by split <;> exact ⟨rfl, rfl, rfl⟩)

/-- `UPDATE user_sessions … WHERE user_id = ? AND revoked_at IS NULL`. -/
def revokeSessions (db : AuthDb) (userId : String) (revokedAt : ℤ) : AuthDb :=
  db.closeSessions (fun session => session.userId = userId) revokedAt

end AuthDb

/-! ## Statements on users -/

inductive UserUpdateOutcome
  | updated
  | notFound
  | lastEnabledSuperAdmin
deriving DecidableEq

inductive UserDeleteOutcome
  | deleted
  | notFound
  | lastEnabledSuperAdmin
  | hasProviderAccounts
deriving DecidableEq

/-- Set the flag of one user, who exists afterwards if before. -/
def AuthDb.setEnabled (db : AuthDb) (userId : String) (enabled : Bool) : AuthDb :=
  db.mapUser userId (fun user => { user with enabled := enabled }) fun _ => ⟨rfl, rfl⟩

/-- Revoke the open sessions and disable the keys of a user. -/
def AuthDb.revoke (db : AuthDb) (userId : String) (updatedAt : ℤ) : AuthDb :=
  (db.revokeSessions userId updatedAt).mapKeys
    (fun key => if key.ownerUserId = userId then { key with enabled := false } else key)
    (fun key => by split <;> exact ⟨rfl, rfl, rfl⟩)

/-- The status transaction: the last enabled super admin stays enabled, and a disabled user
loses sessions and keys. -/
def setUserEnabled (userId : String) (enabled : Bool) (updatedAt : ℤ) (db : AuthDb) :
    UserUpdateOutcome × AuthDb :=
  match db.users.find? userId with
  | none => (.notFound, db)
  | some user =>
    if enabled || user.role != .superAdmin || !user.enabled || db.otherSuperAdmin userId then
      let changed := db.setEnabled userId enabled
      (.updated, if enabled then changed else changed.revoke userId updatedAt)
    else (.lastEnabledSuperAdmin, db)

/-- The role transaction.  A role that the user has already is no change and keeps the sessions
open. -/
def setUserRole (userId : String) (role : UserRole) (updatedAt : ℤ) (db : AuthDb) :
    UserUpdateOutcome × AuthDb :=
  match db.users.find? userId with
  | none => (.notFound, db)
  | some user =>
    if user.role = role then (.updated, db)
    else if user.role != .superAdmin || !user.enabled || role == .superAdmin ||
        db.otherSuperAdmin userId then
      (.updated, (db.mapUser userId (fun user => { user with role := role })
        fun _ => ⟨rfl, rfl⟩).revokeSessions userId updatedAt)
    else (.lastEnabledSuperAdmin, db)

/-- The password transaction, and whether there is such a user. -/
def resetUserPassword (userId passwordHash : String) (updatedAt : ℤ) (db : AuthDb) :
    Bool × AuthDb :=
  if (db.users.find? userId).isSome then
    (true, (db.mapUser userId (fun user => { user with passwordHash := passwordHash })
      fun _ => ⟨rfl, rfl⟩).revokeSessions userId updatedAt)
  else (false, db)

/-- `ORDER BY created_at, id`. -/
def UserRow.before (user other : UserRow) : Bool :=
  user.createdAt < other.createdAt || (user.createdAt == other.createdAt && user.id ≤ other.id)

def firstUser : List UserRow → Option UserRow
  | [] => none
  | user :: users => match firstUser users with
    | none => some user
    | some other => some (if user.before other then user else other)

variable {users : List UserRow} {user : UserRow}

theorem firstUser_mem (h : firstUser users = some user) : user ∈ users := by
  induction users generalizing user with
  | nil => cases h
  | cons _ users ih =>
    rw [firstUser] at h
    rcases hrest : firstUser users with _ | other
    · rw [hrest] at h
      cases h
      exact mem_cons_self
    · rw [hrest] at h
      cases h
      split
      · exact mem_cons_self
      · exact mem_cons_of_mem _ (ih hrest)

theorem firstUser_isSome (h : user ∈ users) : (firstUser users).isSome := by
  cases users with
  | nil => cases h
  | cons =>
    rw [firstUser]
    split <;> rfl

namespace AuthDb

/-- The initial user once `userId` is to go: setup passes to the first of the others. -/
def setupHeir (db : AuthDb) (userId : String) : Option String :=
  if db.initialUserId = some userId then
    (firstUser (db.users.rows.filter fun user => user.id ≠ userId)).map UserRow.id
  else db.initialUserId

variable {db : AuthDb}

/-- A user other than the deleted one is still there. -/
theorem isSome_find?_drop {userId other : String} (hne : other ≠ userId)
    (h : (db.users.find? other).isSome) :
    ((db.users.filter fun user => user.id ≠ userId).find? other).isSome := by
  obtain ⟨user, huser⟩ := Option.isSome_iff_exists.mp h
  obtain ⟨hmem, hid⟩ := Table.find?_eq_some.mp huser
  refine Option.isSome_iff_exists.mpr ⟨user, Table.find?_eq_some.mpr ⟨?_, hid⟩⟩
  exact Table.mem_filter.mpr ⟨hmem, by simpa [hid] using hne⟩

theorem setupHeir_owned {userId heir : String} (h : db.setupHeir userId = some heir) :
    heir ≠ userId ∧ (db.users.find? heir).isSome := by
  unfold setupHeir at h
  split at h
  · obtain ⟨user, hfirst, rfl⟩ := Option.map_eq_some_iff.mp h
    obtain ⟨hmem, hne⟩ := mem_filter.mp (firstUser_mem hfirst)
    exact ⟨by simpa using hne,
      Option.isSome_iff_exists.mpr ⟨user, Table.find?_eq_some.mpr ⟨hmem, rfl⟩⟩⟩
  · next hinitial =>
      exact ⟨fun he => hinitial (he ▸ h), db.setupOwned heir h⟩

/-- Delete a user with the sessions and keys that reference it, after setup has passed on. -/
def dropUser (db : AuthDb) (userId : String) : AuthDb where
  users := db.users.filter fun user => user.id ≠ userId
  initialUserId := db.setupHeir userId
  invitations := db.invitations
  sessions := db.sessions.filter fun session => session.userId ≠ userId
  apiKeys := db.apiKeys.filter fun key => key.ownerUserId ≠ userId
  accountOwners := db.accountOwners
  usernamesNodup := (filter_sublist.map _).nodup db.usernamesNodup
  tokensNodup := (filter_sublist.map _).nodup db.tokensNodup
  secretsNodup := (filter_sublist.map _).nodup db.secretsNodup
  setupOwned _ hheir := isSome_find?_drop (setupHeir_owned hheir).1 (setupHeir_owned hheir).2
  sessionsOwned session hsession := by
    obtain ⟨hsession, huser⟩ := Table.mem_filter.mp hsession
    exact isSome_find?_drop (by simpa using huser) (db.sessionsOwned session hsession)
  keysOwned key hkey := by
    obtain ⟨hkey, howner⟩ := Table.mem_filter.mp hkey
    exact isSome_find?_drop (by simpa using howner) (db.keysOwned key hkey)

end AuthDb

/-- The deletion transaction, which an owner of provider accounts and the last enabled super
admin survive. -/
def deleteUser (userId : String) (db : AuthDb) : UserDeleteOutcome × AuthDb :=
  match db.users.find? userId with
  | none => (.notFound, db)
  | some user =>
    if some userId ∈ db.accountOwners then (.hasProviderAccounts, db)
    else if user.role != .superAdmin || !user.enabled || db.otherSuperAdmin userId then
      (.deleted, db.dropUser userId)
    else (.lastEnabledSuperAdmin, db)

/-- The `CHECK` on user names, whose `trim` strips spaces only. -/
def usernameAllowed (username : String) : Bool :=
  username.toList.any (· != ' ') && username.toList.length ≤ 128

namespace AuthDb

/-- Neither the id nor the name is taken. -/
def UserFree (db : AuthDb) (user : UserRow) : Prop :=
  db.users.find? user.id = none ∧
    nocase user.username ∉ db.users.rows.map fun other => nocase other.username

instance (db : AuthDb) (user : UserRow) : Decidable (db.UserFree user) :=
  inferInstanceAs (Decidable (_ ∧ _))

def insertUser (db : AuthDb) (user : UserRow) (hfree : db.UserFree user) : AuthDb :=
  { db with
    users := db.users.insertNew user
    usernamesNodup := by
      rw [Table.rows_insertNew hfree.1, map_append, nodup_append]
      refine ⟨db.usernamesNodup, by simp, fun a ha b hb => ?_⟩
      obtain rfl : b = nocase user.username := by simpa using hb
      exact fun he => hfree.2 (he ▸ ha)
    setupOwned := fun id hid => Table.isSome_find?_insertNew user (db.setupOwned id hid)
    sessionsOwned := fun session hsession =>
      Table.isSome_find?_insertNew user (db.sessionsOwned session hsession)
    keysOwned := fun key hkey => Table.isSome_find?_insertNew user (db.keysOwned key hkey) }

end AuthDb

/-- `INSERT … ON CONFLICT DO NOTHING`, and whether a row was inserted. -/
def createUser (user : UserRow) (db : AuthDb) : Option (Bool × AuthDb) :=
  if usernameAllowed user.username then
    if hfree : db.UserFree user then some (true, db.insertUser user hfree) else some (false, db)
  else none

def loadUserByUsername (db : AuthDb) (username : String) : Option UserRow :=
  db.users.rows.find? fun user => nocase user.username = nocase username

/-! ## Statements on sessions -/

structure NewSession where
  id : String
  userId : String
  tokenHash : String
  expiresAt : ℤ
deriving DecidableEq

def NewSession.row (session : NewSession) : SessionRow :=
  ⟨session.id, session.userId, session.tokenHash, session.expiresAt, none⟩

/-- A plain `INSERT`: a taken id or token and a missing user are errors. -/
def createSession (session : NewSession) (db : AuthDb) : Option AuthDb :=
  if hfree : db.sessions.find? session.id = none ∧
      session.tokenHash ∉ db.sessions.rows.map SessionRow.tokenHash then
    if huser : (db.users.find? session.userId).isSome then
      some
        { db with
          sessions := db.sessions.insertNew session.row
          tokensNodup := by
            rw [Table.rows_insertNew (r := session.row) hfree.1, map_append, nodup_append]
            refine ⟨db.tokensNodup, by simp, fun a ha b hb => ?_⟩
            obtain rfl : b = session.tokenHash := by simpa [NewSession.row] using hb
            exact fun he => hfree.2 (he ▸ ha)
          sessionsOwned := fun row hrow => by
            rcases Table.mem_insertNew hrow with h | ⟨rfl, -⟩
            · exact db.sessionsOwned row h
            · exact huser }
    else none
  else none

/-- The session with a token and the user it is joined to. -/
def loadSessionByTokenHash (db : AuthDb) (tokenHash : String) : Option (SessionRow × UserRow) :=
  (db.sessions.rows.find? fun session => session.tokenHash = tokenHash).bind fun session =>
    (db.users.find? session.userId).map fun user => (session, user)

/-- `UPDATE user_sessions … WHERE id = ? AND revoked_at IS NULL`. -/
def revokeSession (sessionId : String) (revokedAt : ℤ) (db : AuthDb) : Bool × AuthDb :=
  ((db.sessions.find? sessionId).any fun session => session.revokedAt.isNone,
    db.closeSessions (fun session => session.id = sessionId) revokedAt)

/-! ## Setup and registration -/

def setupRequired (db : AuthDb) : Bool := db.initialUserId.isNone

inductive InitialUserCreateOutcome
  | created
  | alreadyConfigured
deriving DecidableEq

inductive RegisterUserOutcome
  | created
  | invalidCode
  | conflict
deriving DecidableEq

/-- Point the row of `auth_setup` at a user that exists. -/
def AuthDb.claimSetup (db : AuthDb) (userId : String) : Option AuthDb :=
  if huser : (db.users.find? userId).isSome then
    some { db with
      initialUserId := some userId
      setupOwned := fun id hid => by
        obtain rfl : userId = id := by simpa using hid
        exact huser }
  else none

/-- Accounts without an owner go to the user. -/
def AuthDb.adoptAccounts (db : AuthDb) (userId : String) : AuthDb :=
  { db with accountOwners := db.accountOwners.map fun owner => some (owner.getD userId) }

/-- The setup transaction.  Only `created` commits. -/
def createInitialUser (user : UserRow) (session : NewSession) (db : AuthDb) :
    Option (InitialUserCreateOutcome × AuthDb) :=
  if session.userId ≠ user.id then none
  else (createUser user db).bind fun (inserted, db') =>
    if !inserted then some (.alreadyConfigured, db)
    else if db'.initialUserId.isSome then some (.alreadyConfigured, db)
    else (db'.claimSetup user.id).bind fun claimed =>
      (createSession session (claimed.adoptAccounts user.id)).map fun db => (.created, db)

def createInvitation (invitation : InvitationRow) (db : AuthDb) : Option (Unit × AuthDb) :=
  if db.invitations.find? invitation.tokenHash = none then
    some ((), { db with invitations := db.invitations.insertNew invitation })
  else none

def invitationRole (db : AuthDb) (tokenHash : String) (now : ℤ) : Option UserRole :=
  ((db.invitations.find? tokenHash).filter fun invitation => now < invitation.expiresAt).map
    InvitationRow.role

/-- The registration transaction, which uses the invitation up.  Only `created` commits. -/
def registerUser (tokenHash : String) (user : UserRow) (session : NewSession) (now : ℤ)
    (db : AuthDb) : Option (RegisterUserOutcome × AuthDb) :=
  if session.userId ≠ user.id then none
  else if invitationRole db tokenHash now ≠ some user.role then some (.invalidCode, db)
  else
    let consumed := { db with
      invitations := db.invitations.filter fun invitation => invitation.tokenHash ≠ tokenHash }
    (createUser user consumed).bind fun (inserted, db') =>
      if !inserted then some (.conflict, db)
      else (createSession session db').map fun db => (.created, db)

end ProviderCore.Storage
