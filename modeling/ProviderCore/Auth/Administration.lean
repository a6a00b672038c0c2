import ProviderCore.Auth.ApiKeys

/-!
# Account administration

The calls of `AuthService` that change users: setup, registration by invitation, status, role,
password and deletion.  Each makes its checks and then runs one transaction, whose `Fate` it is
given; what it drew at random or had read before arrives as an argument, so a run of calls is
any interleaving of the transactions of concurrent callers.

Setup is claimed once.  From then on some user is an enabled super admin
(`administration_never_lost`): every statement that could take the last one away asks for
another first, and the deletion of the user that setup points at hands setup on to somebody who
exists.
-/

namespace ProviderCore.Auth

open Storage Await List

variable (digestSecret : String → String)

/-! ## Users and sessions to be created -/

def requireSuperAdmin (user : UserSummary) : Except AuthError Unit :=
  if user.role ≠ .superAdmin then .error .forbidden else .ok ()

/-- What a call draws at random.  The source of randomness may be unavailable when the session
token is drawn. -/
structure Draw where
  userId : String
  sessionId : String
  secret : Option String

/-- Hashing happens elsewhere; its outcome is given. -/
def newUser (username : String) (passwordHash : Except AuthError String) (role : UserRole)
    (draw : Draw) (now : ℤ) : Except AuthError UserRow := do
  let username ← normalizeUsername username
  let passwordHash ← passwordHash
  return ⟨draw.userId, username, passwordHash, role, true, now⟩

def sessionTtlSeconds : ℤ := 7 * 24 * 60 * 60

def invitationTtlSeconds : ℤ := 7 * 24 * 60 * 60

def checkedAdd (value seconds : ℤ) : Except AuthError ℤ :=
  if -2 ^ 63 ≤ value + seconds ∧ value + seconds < 2 ^ 63 then .ok (value + seconds)
  else .error .credential

structure SessionGrant where
  user : UserSummary
  sessionToken : String
  expiresAt : ℤ

def newSessionGrant (user : UserSummary) (draw : Draw) (now : ℤ) :
    Except AuthError (NewSession × SessionGrant) :=
  match draw.secret with
  | none => .error .credential
  | some secret => do
      let expiresAt ← checkedAdd now sessionTtlSeconds
      return (⟨draw.sessionId, user.id, digestSecret secret, expiresAt⟩, ⟨user, secret, expiresAt⟩)

/-- A user together with a first session. -/
def newUserSession (username : String) (passwordHash : Except AuthError String) (role : UserRole)
    (draw : Draw) (now : ℤ) : Except AuthError (UserRow × NewSession × SessionGrant) := do
  let user ← newUser username passwordHash role draw now
  let (session, grant) ← newSessionGrant digestSecret user draw now
  return (user, session, grant)

def normalizeInvitationToken (token : String) : Except AuthError String :=
  let token := Text.trim token
  if token.utf8ByteSize ≠ 43 ∨
      ¬token.toList.all (fun c => c.isAlphanum || c == '-' || c == '_') then
    .error .invalidInvitation
  else .ok token

/-! ## The calls -/

/-- How a call ends once its transaction has. -/
def ended {α β : Type} (reply : Reply α) (answer : α → Ended AuthError β) : Ended AuthError β :=
  match reply with
  | .answer value => answer value
  | .error => .failed .repository
  | .dropped => .cancelled

/-- Run a transaction after checks that may refuse the call. -/
def transact {α β γ : Type} (db : AuthDb) (checked : Except AuthError γ) (fate : Fate)
    (statement : γ → AuthDb → Option (α × AuthDb)) (answer : γ → α → Ended AuthError β) :
    Ended AuthError β × AuthDb :=
  match checked with
  | .error error => (.failed error, db)
  | .ok value =>
    let (reply, db) := fate.perform (statement value) db
    (ended reply (answer value), db)

def setup (db : AuthDb) (username : String) (passwordHash : Except AuthError String)
    (draw : Draw) (now : ℤ) (created : Fate) : Ended AuthError SessionGrant × AuthDb :=
  transact db (newUserSession digestSecret username passwordHash .superAdmin draw now) created
    (fun (user, session, _) => createInitialUser user session)
    fun (_, _, grant) outcome => match outcome with
      | .created => .returned grant
      | .alreadyConfigured => .failed .alreadyConfigured

def authCreateInvitation (db : AuthDb) (actor : UserSummary) (role : UserRole)
    (secret : Option String) (now : ℤ) (created : Fate) : Ended AuthError String × AuthDb :=
  let checked : Except AuthError (String × ℤ) := do
    requireSuperAdmin actor
    match secret with
    | none => .error .credential
    | some secret => return (secret, ← checkedAdd now invitationTtlSeconds)
  transact db checked created
    (fun (secret, expiresAt) => createInvitation ⟨digestSecret secret, role, expiresAt⟩)
    fun (secret, _) _ => .returned secret

/-- The role was read from the invitation before the password was hashed. -/
def authRegisterUser (db : AuthDb) (invitationToken username : String)
    (role : Except AuthError (Option UserRole)) (passwordHash : Except AuthError String)
    (draw : Draw) (now : ℤ) (registered : Fate) : Ended AuthError SessionGrant × AuthDb :=
  let checked : Except AuthError (String × UserRow × NewSession × SessionGrant) := do
    let token ← normalizeInvitationToken invitationToken
    match ← role with
    | none => .error .invalidInvitation
    | some role =>
      return (digestSecret token, ← newUserSession digestSecret username passwordHash role draw now)
  transact db checked registered
    (fun (tokenHash, user, session, _) => registerUser tokenHash user session now)
    fun (_, _, _, grant) outcome => match outcome with
      | .created => .returned grant
      | .invalidCode => .failed .invalidInvitation
      | .conflict => .failed .conflict

/-- What a change to a user reports. -/
def userUpdate : UserUpdateOutcome → Ended AuthError Unit
  | .updated => .returned ()
  | .notFound => .failed .notFound
  | .lastEnabledSuperAdmin => .failed .lastEnabledSuperAdmin

def readBack (userId : String) (loaded : Fate) (changed : Ended AuthError Unit × AuthDb) :
    Ended AuthError UserSummary × AuthDb :=
  (match changed.1 with
    | .returned () => ended (loaded.read (changed.2.users.find? userId)) fun
        | some user => .returned user
        | none => .failed .notFound
    | .failed error => .failed error
    | .cancelled => .cancelled, changed.2)

def authSetUserRole (db : AuthDb) (actor : UserSummary) (userId : String) (role : UserRole)
    (now : ℤ) (changed loaded : Fate) : Ended AuthError UserSummary × AuthDb :=
  let checked : Except AuthError Unit := do
    requireSuperAdmin actor
    if actor.id = userId then .error .forbidden
  readBack userId loaded
    (transact db checked changed (fun _ => some ∘ setUserRole userId role now) fun _ => userUpdate)

def authResetUserPassword (db : AuthDb) (actor : UserSummary) (userId : String)
    (passwordHash : Except AuthError String) (now : ℤ) (changed loaded : Fate) :
    Ended AuthError UserSummary × AuthDb :=
  let checked : Except AuthError String := do
    requireSuperAdmin actor
    passwordHash
  readBack userId loaded
    (transact db checked changed (fun hash => some ∘ resetUserPassword userId hash now)
      fun _ found => if found then .returned () else .failed .notFound)

/-- One call, with what becomes of its repository calls.  The account manager adds and deletes
accounts and the sign-ins open and close sessions beside the administration. -/
inductive AdminCall
  | setup (username : String) (passwordHash : Except AuthError String) (draw : Draw) (now : ℤ)
      (created : Fate)
  | createUser (user : UserRow) (created : Fate)
  | createInvitation (actor : UserSummary) (role : UserRole) (secret : Option String) (now : ℤ)
      (created : Fate)
  | registerUser (invitationToken username : String) (role : Except AuthError (Option UserRole))
      (passwordHash : Except AuthError String) (draw : Draw) (now : ℤ) (registered : Fate)
  | setUserEnabled (actor : UserSummary) (userId : String) (enabled : Bool) (now : ℤ)
      (changed loaded : Fate)
  | setUserRole (actor : UserSummary) (userId : String) (role : UserRole) (now : ℤ)
      (changed loaded : Fate)
  | resetUserPassword (actor : UserSummary) (userId : String)
      (passwordHash : Except AuthError String) (now : ℤ) (changed loaded : Fate)
  | deleteUser (actor : UserSummary) (userId : String) (deleted : Fate)
  | createSession (session : NewSession) (created : Fate)
  | revokeSession (sessionId : String) (now : ℤ) (revoked : Fate)
  | accounts (owners : List (Option String))

namespace AdminCall

def perform (db : AuthDb) : AdminCall → AuthDb
  | .setup username passwordHash draw now created =>
    (Auth.setup digestSecret db username passwordHash draw now created).2
  | .createUser user created => (created.perform (Storage.createUser user) db).2
  | .createInvitation actor role secret now created =>
    (authCreateInvitation digestSecret db actor role secret now created).2
  | .registerUser token username role passwordHash draw now registered =>
    (authRegisterUser digestSecret db token username role passwordHash draw now registered).2
  | .setUserEnabled actor userId enabled now changed loaded =>
    (authSetUserEnabled db actor userId enabled now changed loaded).2
  | .setUserRole actor userId role now changed loaded =>
    (authSetUserRole db actor userId role now changed loaded).2
  | .resetUserPassword actor userId passwordHash now changed loaded =>
    (authResetUserPassword db actor userId passwordHash now changed loaded).2
  | .deleteUser actor userId deleted => (authDeleteUser db actor userId deleted).2
  | .createSession session created =>
    (created.perform (fun db => (Storage.createSession session db).map ((), ·)) db).2
  | .revokeSession sessionId now revoked =>
    (revoked.perform (some ∘ Storage.revokeSession sessionId now) db).2
  | .accounts owners => { db with accountOwners := owners }

/-- A setup whose transaction commits, whether or not its caller learns of it. -/
def SetsUp (db : AuthDb) : AdminCall → Prop
  | .setup username passwordHash draw now created =>
    created.reached = true ∧ ∃ user session grant db',
      newUserSession digestSecret username passwordHash .superAdmin draw now =
          .ok (user, session, grant) ∧
        createInitialUser user session db = some (.created, db')
  | _ => False

end AdminCall

/-! ## An enabled super admin -/

/-- Setup is claimed and somebody administers the users. -/
structure Administered (db : AuthDb) : Prop where
  configured : db.initialUserId.isSome
  admin : ∃ user ∈ db.users.rows, user.role = .superAdmin ∧ user.enabled = true

variable {db db' : AuthDb} {userId : String} {user : UserRow}

/-- The guard that status, role and deletion share: unless the user is the last enabled super
admin, there is another. -/
theorem Administered.besides (h : Administered db) (huser : db.users.find? userId = some user)
    (hguard : user.role ≠ .superAdmin ∨ user.enabled = false ∨ db.otherSuperAdmin userId = true) :
    ∃ other ∈ db.users.rows,
      other.id ≠ userId ∧ other.role = .superAdmin ∧ other.enabled = true := by
  obtain ⟨admin, hadmin, hrole, henabled⟩ := h.admin
  have hself : admin.id = userId → admin = user := by
    intro hid
    have := huser.symm.trans (Table.find?_eq_some.mpr ⟨hadmin, hid⟩)
    exact (Option.some.inj this).symm
  rcases hguard with hguard | hguard | hguard
  · exact ⟨admin, hadmin, fun hid => hguard (hself hid ▸ hrole), hrole, henabled⟩
  · refine ⟨admin, hadmin, fun hid => ?_, hrole, henabled⟩
    rw [hself hid, hguard] at henabled
    cases henabled
  · simpa [AuthDb.otherSuperAdmin, and_assoc] using hguard

section Changed

variable {f : UserRow → UserRow} (h : Administered db)
  (hinitial : db'.initialUserId = db.initialUserId)
  (husers : db'.users.rows =
    db.users.rows.map fun user => if user.id = userId then f user else user)

include h hinitial husers

/-- A change to one user that another super admin survives. -/
theorem Administered.changed_of_other (hother : ∃ other ∈ db.users.rows,
      other.id ≠ userId ∧ other.role = .superAdmin ∧ other.enabled = true) : Administered db' := by
  obtain ⟨other, hmem, hne, hadmin⟩ := hother
  refine ⟨hinitial ▸ h.configured, other, ?_, hadmin⟩
  rw [husers]
  exact mem_map.mpr ⟨other, hmem, if_neg hne⟩

/-- A change that makes nobody less than a super admin. -/
theorem Administered.changed_of_raises
    (hraises : ∀ user : UserRow, user.role = .superAdmin → user.enabled = true →
      (f user).role = .superAdmin ∧ (f user).enabled = true) : Administered db' := by
  obtain ⟨admin, hadmin, hrole, henabled⟩ := h.admin
  refine ⟨hinitial ▸ h.configured, if admin.id = userId then f admin else admin, ?_, ?_⟩
  · rw [husers]
    exact mem_map.mpr ⟨admin, hadmin, rfl⟩
  · split
    · exact hraises admin hrole henabled
    · exact ⟨hrole, henabled⟩

end Changed

theorem Administered.setUserEnabled (h : Administered db) (enabled : Bool) (now : ℤ) :
    Administered (Storage.setUserEnabled userId enabled now db).2 := by
  unfold Storage.setUserEnabled
  rcases huser : db.users.find? userId with _ | user
  · exact h
  · simp only []
    split
    · next hguard =>
        cases enabled with
        | true => exact h.changed_of_raises rfl rfl fun _ hrole _ => ⟨hrole, rfl⟩
        | false =>
          exact h.changed_of_other rfl rfl
            (h.besides huser (by simpa [or_assoc] using hguard))
    · exact h

theorem Administered.setUserRole (h : Administered db) (role : UserRole) (now : ℤ) :
    Administered (Storage.setUserRole userId role now db).2 := by
  unfold Storage.setUserRole
  rcases huser : db.users.find? userId with _ | user
  · exact h
  · simp only []
    split
    · exact h
    · split
      · next hguard =>
          by_cases hrole : role = .superAdmin
          · exact h.changed_of_raises rfl rfl fun _ _ henabled => ⟨hrole, henabled⟩
          · exact h.changed_of_other rfl rfl
              (h.besides huser (by simpa [or_assoc, hrole] using hguard))
      · exact h

theorem Administered.resetUserPassword (h : Administered db) (passwordHash : String) (now : ℤ) :
    Administered (Storage.resetUserPassword userId passwordHash now db).2 := by
  unfold Storage.resetUserPassword
  split
  · exact h.changed_of_raises rfl rfl fun _ hrole henabled => ⟨hrole, henabled⟩
  · exact h

/-- Setup is never left without a user while there are others. -/
theorem setupHeir_isSome (h : db.initialUserId.isSome)
    (hother : ∃ other ∈ db.users.rows, other.id ≠ userId) : (db.setupHeir userId).isSome := by
  unfold AuthDb.setupHeir
  split
  · obtain ⟨other, hmem, hne⟩ := hother
    have hkept : other ∈ db.users.rows.filter fun user => user.id ≠ userId :=
      mem_filter.mpr ⟨hmem, by simpa using hne⟩
    simpa using firstUser_isSome hkept
  · exact h

theorem Administered.deleteUser (h : Administered db) :
    Administered (Storage.deleteUser userId db).2 := by
  unfold Storage.deleteUser
  rcases huser : db.users.find? userId with _ | user
  · exact h
  · simp only []
    split
    · exact h
    · split
      · next hguard =>
          obtain ⟨other, hmem, hne, hadmin⟩ :=
            h.besides huser (by simpa [or_assoc] using hguard)
          refine ⟨setupHeir_isSome h.configured ⟨other, hmem, hne⟩, other, ?_, hadmin⟩
          exact Table.mem_filter.mpr ⟨hmem, by simpa using hne⟩
      · exact h

/-! ## New users -/

/-- Users and setup are as before, but for users that are new. -/
structure Grows (db db' : AuthDb) : Prop where
  initialUserId : db'.initialUserId = db.initialUserId
  users : ∀ user ∈ db.users.rows, user ∈ db'.users.rows

theorem Grows.administered (h : Grows db db') (hdb : Administered db) : Administered db' := by
  obtain ⟨admin, hmem, hadmin⟩ := hdb.admin
  exact ⟨h.initialUserId ▸ hdb.configured, admin, h.users admin hmem, hadmin⟩

theorem createUser_grows {inserted : Bool} (h : createUser user db = some (inserted, db')) :
    Grows db db' ∧ (inserted = true → user ∈ db'.users.rows) := by
  unfold createUser at h
  split at h
  · split at h
    · next hfree =>
        cases h
        refine ⟨⟨rfl, fun other hother => Table.mem_insertNew_of_mem hother⟩, fun _ => ?_⟩
        change user ∈ (db.users.insertNew user).rows
        rw [Table.rows_insertNew hfree.1]
        exact mem_append_right _ (mem_singleton_self user)
    · cases h
      exact ⟨⟨rfl, fun _ => id⟩, by simp⟩
  · cases h

variable {session : NewSession}

theorem createSession_grows (h : createSession session db = some db') : Grows db db' := by
  unfold createSession at h
  split at h
  · split at h
    · cases h
      exact ⟨rfl, fun _ => id⟩
    · cases h
  · cases h

/-- Only an unclaimed setup creates the initial user, and it is claimed afterwards. -/
theorem createInitialUser_cases {outcome : InitialUserCreateOutcome}
    (h : createInitialUser user session db = some (outcome, db')) :
    (outcome = .alreadyConfigured ∧ db' = db) ∨
      (outcome = .created ∧ db.initialUserId = none ∧ db'.initialUserId = some user.id ∧
        user ∈ db'.users.rows) := by
  unfold createInitialUser at h
  split at h
  · cases h
  · obtain ⟨⟨inserted, _⟩, hinsert, h⟩ := Option.bind_eq_some_iff.mp h
    obtain ⟨hgrows, hnew⟩ := createUser_grows hinsert
    cases inserted with
    | false =>
      cases h
      exact .inl ⟨rfl, rfl⟩
    | true =>
      simp only [Bool.not_true, Bool.false_eq_true, if_false] at h
      split at h
      · cases h
        exact .inl ⟨rfl, rfl⟩
      · next hfree =>
          obtain ⟨_, hclaim, h⟩ := Option.bind_eq_some_iff.mp h
          obtain ⟨_, hsession, hfinal⟩ := Option.map_eq_some_iff.mp h
          cases hfinal
          obtain ⟨hinitial, husers⟩ := createSession_grows hsession
          unfold AuthDb.claimSetup at hclaim
          split at hclaim
          · cases hclaim
            refine .inr ⟨rfl, ?_, hinitial, husers _ (hnew rfl)⟩
            rw [← hgrows.initialUserId]
            simpa using hfree
          · cases hclaim

theorem registerUser_grows {tokenHash : String} {now : ℤ} {outcome : RegisterUserOutcome}
    (h : registerUser tokenHash user session now db = some (outcome, db')) : Grows db db' := by
  unfold registerUser at h
  split at h
  · cases h
  · split at h
    · cases h
      exact ⟨rfl, fun _ => id⟩
    · obtain ⟨⟨inserted, _⟩, hinsert, h⟩ := Option.bind_eq_some_iff.mp h
      obtain ⟨hgrows, -⟩ := createUser_grows hinsert
      cases inserted with
      | false =>
        cases h
        exact ⟨rfl, fun _ => id⟩
      | true =>
        obtain ⟨_, hsession, hfinal⟩ := Option.map_eq_some_iff.mp h
        cases hfinal
        obtain ⟨hinitial, husers⟩ := createSession_grows hsession
        exact ⟨hinitial.trans hgrows.initialUserId, fun user h => husers user (hgrows.users user h)⟩

/-! ## Every call -/

theorem newUserSession_admin {username : String} {passwordHash : Except AuthError String}
    {role : UserRole} {draw : Draw} {now : ℤ} {grant : SessionGrant}
    (h : newUserSession digestSecret username passwordHash role draw now =
      .ok (user, session, grant)) : user.role = role ∧ user.enabled = true := by
  obtain ⟨user', huser, h⟩ := Fold.bind_eq_ok.mp h
  obtain ⟨⟨session', grant'⟩, -, h⟩ := Fold.bind_eq_ok.mp h
  cases h
  obtain ⟨name, -, huser⟩ := Fold.bind_eq_ok.mp huser
  obtain ⟨hash, -, huser⟩ := Fold.bind_eq_ok.mp huser
  cases huser
  exact ⟨rfl, rfl⟩

theorem transact_keeps {α β γ : Type} {P : AuthDb → Prop} {checked : Except AuthError γ}
    {fate : Fate} {statement : γ → AuthDb → Option (α × AuthDb)}
    {answer : γ → α → Ended AuthError β} (hdb : P db) (hstatement : ∀ value, checked = .ok value →
      ∀ outcome db', statement value db = some (outcome, db') → P db') :
    P (transact db checked fate statement answer).2 := by
  rcases checked with error | value
  · exact hdb
  · exact fate.perform_keeps hdb (hstatement value rfl)

/-- No call takes administration away. -/
theorem Administered.perform (h : Administered db) (call : AdminCall) :
    Administered (call.perform digestSecret db) := by
  cases call with
  | setup =>
    refine transact_keeps h fun ⟨user, session, grant⟩ _ outcome db' hcreate => ?_
    rcases createInitialUser_cases hcreate with ⟨-, rfl⟩ | ⟨-, hfree, -⟩
    · exact h
    · have := h.configured
      simp [hfree] at this
  | createUser _ created =>
    exact created.perform_keeps h fun _ _ hcreate => (createUser_grows hcreate).1.administered h
  | createInvitation =>
    refine transact_keeps h fun value _ outcome db' hcreate => ?_
    simp only [Storage.createInvitation] at hcreate
    split at hcreate
    · cases hcreate
      exact ⟨h.configured, h.admin⟩
    · cases hcreate
  | registerUser =>
    exact transact_keeps h fun _ _ _ _ hregister => (registerUser_grows hregister).administered h
  | setUserEnabled actor userId enabled now changed =>
    have hset := changed.perform_some_keeps h (@h.setUserEnabled _ userId enabled now)
    rw [AdminCall.perform, authSetUserEnabled]
    split
    · exact h
    · split
      · exact h
      · split <;> simp_all
        split <;> exact hset
  | setUserRole _ _ role now =>
    rw [AdminCall.perform, authSetUserRole, readBack]
    refine transact_keeps h fun _ _ _ _ hset => ?_
    obtain rfl := eq_snd_of_some hset
    exact h.setUserRole role now
  | resetUserPassword _ _ _ now =>
    rw [AdminCall.perform, authResetUserPassword, readBack]
    refine transact_keeps h fun hash _ _ _ hset => ?_
    obtain rfl := eq_snd_of_some hset
    exact h.resetUserPassword hash now
  | deleteUser actor userId deleted =>
    have hdelete := deleted.perform_some_keeps h (@h.deleteUser _ userId)
    rw [AdminCall.perform, authDeleteUser]
    split
    · exact h
    · split
      · exact h
      · split <;> simp_all
  | createSession _ created =>
    refine created.perform_keeps h fun _ db' hcreate => ?_
    obtain ⟨_, hfinal, heq⟩ := Option.map_eq_some_iff.mp hcreate
    cases heq
    exact (createSession_grows hfinal).administered h
  | revokeSession _ _ revoked =>
    exact revoked.perform_some_keeps h ⟨h.configured, h.admin⟩
  | accounts => exact ⟨h.configured, h.admin⟩

theorem Administered.run (h : Administered db) (calls : List AdminCall) :
    ∀ db' ∈ calls.scanl (AdminCall.perform digestSecret) db, Administered db' := by
  induction calls generalizing db with
  | nil => exact forall_mem_singleton.mpr h
  | cons call _ ih =>
    rw [scanl_cons]
    exact forall_mem_cons.mpr ⟨h, ih (h.perform digestSecret call)⟩

/-- A setup that commits leaves its user in charge. -/
theorem AdminCall.SetsUp.administered {call : AdminCall} (h : call.SetsUp digestSecret db) :
    Administered (call.perform digestSecret db) := by
  cases call with
  | setup username passwordHash draw now created =>
    obtain ⟨hreached, user, session, grant, db', hnew, hcreate⟩ := h
    obtain ⟨hrole, henabled⟩ := newUserSession_admin digestSecret hnew
    have hperform : AdminCall.perform digestSecret db
        (.setup username passwordHash draw now created) = db' := by
      rw [AdminCall.perform, Auth.setup, hnew]
      cases created <;> simp_all [transact, Fate.perform, Fate.reached]
    rw [hperform]
    rcases createInitialUser_cases hcreate with ⟨hne, -⟩ | ⟨-, -, hinitial, hmem⟩
    · cases hne
    · exact ⟨by simp [hinitial], user, hmem, hrole, henabled⟩
  | _ => exact h.elim

theorem Administered.not_setsUp (h : Administered db) (call : AdminCall) :
    ¬call.SetsUp digestSecret db := by
  intro hsets
  cases call with
  | setup =>
    obtain ⟨-, _, _, _, _, -, hcreate⟩ := hsets
    rcases createInitialUser_cases hcreate with ⟨hne, -⟩ | ⟨-, hfree, -⟩
    · cases hne
    · have := h.configured
      simp [hfree] at this
  | _ => exact hsets

/-- Once a setup has committed, whatever calls follow it, whoever makes them and whatever
becomes of their transactions: between any two of them there is an enabled super admin, setup is
not required, and no setup can commit. -/
theorem administration_never_lost (first : AdminCall) (db : AuthDb)
    (hfirst : first.SetsUp digestSecret db) (calls : List AdminCall) :
    ∀ later ∈ calls.scanl (AdminCall.perform digestSecret) (first.perform digestSecret db),
      (∃ user ∈ later.users.rows, user.role = .superAdmin ∧ user.enabled = true) ∧
        setupRequired later = false ∧
        ∀ call : AdminCall, ¬call.SetsUp digestSecret later := by
  intro later hlater
  have hadministered := (hfirst.administered digestSecret).run digestSecret calls later hlater
  refine ⟨hadministered.admin, ?_, hadministered.not_setsUp digestSecret⟩
  simpa [setupRequired] using hadministered.configured

/-- The database that the migrations leave. -/
def freshDb : AuthDb where
  users := Table.empty
  initialUserId := none
  invitations := Table.empty
  sessions := Table.empty
  apiKeys := Table.empty
  accountOwners := []
  usernamesNodup := nodup_nil
  tokensNodup := nodup_nil
  secretsNodup := nodup_nil
  setupOwned := by simp
  sessionsOwned := by simp [Table.empty]
  keysOwned := by simp [Table.empty]

def rootSetup : AdminCall := .setup "root" (.ok "hash") ⟨"u1", "s1", some "token"⟩ 0 .answered

theorem rootSetup_setsUp : rootSetup.SetsUp id freshDb := by
  refine ⟨rfl, ⟨"u1", "root", "hash", .superAdmin, true, 0⟩, ⟨"s1", "u1", "token", 604800⟩, ?_⟩
  exact ⟨_, _, rfl, rfl⟩

/-- The first admin promotes a second, who then demotes and deletes the first. -/
theorem administration_never_lost_handover :
    let first : UserRow := ⟨"u1", "root", "hash", .superAdmin, true, 0⟩
    let second : UserRow := ⟨"u2", "ann", "hash", .superAdmin, true, 0⟩
    ∀ later ∈ [AdminCall.createUser { second with role := .user } .answered,
        .setUserRole first "u2" .superAdmin 1 .answered .answered,
        .setUserRole second "u1" .user 2 .answered .answered,
        .deleteUser second "u1" .answered].scanl (AdminCall.perform id)
          (rootSetup.perform id freshDb),
      (∃ user ∈ later.users.rows, user.role = .superAdmin ∧ user.enabled = true) ∧
        setupRequired later = false ∧
        ∀ call : AdminCall, ¬call.SetsUp id later :=
  administration_never_lost id rootSetup freshDb rootSetup_setsUp _

end ProviderCore.Auth
