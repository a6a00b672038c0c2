import ProviderCore.Auth.Administration

/-!
# Logins and what ends them

A login reads the user, checks the password against the hash it has read and inserts a session:
three moments, between which other transactions commit.  A password reset, an effective role
change and a disabling close the sessions that are open when they run.

`LoginSystem` counts these operations for each user (`epochs`) and remembers for each session the
count at which its login had read the user (`granted`).  If no login inserts its session after
the count has moved on, every session that `authenticateSession` accepts was granted by a login
that began after all of them (`older_logins_ended`).  The insertion itself asks for nothing, so a
login that is overtaken does get its session (`overtaken_login_accepted`).
-/

namespace ProviderCore.Auth

open Storage Await List

/-! ## Login and session checks -/

variable (verifyPassword : String → String → Except AuthError Bool)
  (digestSecret : String → String)

/-- What a login has in hand between its read of the user and its insertion. -/
structure PendingLogin where
  user : UserRow
  password : String
  /-- How many operations had ended logins of the user when it was read. -/
  epoch : ℕ

/-- The first moment of `login`. -/
def readLogin (db : AuthDb) (username : String) : Except AuthError UserRow := do
  let username ← normalizeUsername username
  match loadUserByUsername db username with
  | none => .error .invalidCredentials
  | some user => .ok user

/-- The check of the password, on the user as it was read. -/
def verifyLogin (login : PendingLogin) : Except AuthError Unit := do
  let passwordValid ← verifyPassword login.password login.user.passwordHash
  if !passwordValid || !login.user.enabled then .error .invalidCredentials else .ok ()

def loginSession (login : PendingLogin) (draw : Draw) (now : ℤ) : Except AuthError NewSession := do
  verifyLogin verifyPassword login
  let (session, _) ← newSessionGrant digestSecret login.user draw now
  return session

structure AuthenticatedSession where
  sessionId : String
  user : UserSummary
deriving DecidableEq

def authenticateSession (db : AuthDb) (sessionToken : String) (now : ℤ) :
    Except AuthError AuthenticatedSession :=
  match loadSessionByTokenHash db (digestSecret sessionToken) with
  | none => .error .invalidSession
  | some (session, user) =>
    if session.revokedAt.isSome || session.expiresAt ≤ now || !user.enabled then
      .error .invalidSession
    else .ok ⟨session.id, user⟩

/-! ## Operations on a user -/

/-- The operations that the service offers on one user.  The checks on the actor can only refuse
one and are left out. -/
inductive UserChange
  | setEnabled (enabled : Bool)
  | setRole (role : UserRole)
  | resetPassword (passwordHash : String)
deriving DecidableEq

namespace UserChange

def apply (userId : String) (now : ℤ) (db : AuthDb) : UserChange → AuthDb
  | .setEnabled enabled => (Storage.setUserEnabled userId enabled now db).2
  | .setRole role => (setUserRole userId role now db).2
  | .resetPassword passwordHash => (resetUserPassword userId passwordHash now db).2

/-- A disabling that went through, a role that was another one, a password that was set. -/
def endsLogins (userId : String) (now : ℤ) (db : AuthDb) : UserChange → Bool
  | .setEnabled enabled => !enabled && (Storage.setUserEnabled userId enabled now db).1 == .updated
  | .setRole role => (db.users.find? userId).any (fun user => user.role != role) &&
      (setUserRole userId role now db).1 == .updated
  | .resetPassword passwordHash => (resetUserPassword userId passwordHash now db).1

end UserChange

/-! ## Runs -/

structure LoginSystem where
  db : AuthDb
  /-- The logins under way. -/
  pending : ℕ → Option PendingLogin
  /-- How many committed operations have ended the logins of a user. -/
  epochs : String → ℕ
  /-- The count that the login behind a session had read; the sessions that are stored at first are
  from before all of them. -/
  granted : String → ℕ

def LoginSystem.start (db : AuthDb) : LoginSystem := ⟨db, fun _ => none, fun _ => 0, fun _ => 0⟩

inductive LoginEvent
  | read (login : ℕ) (username password : String)
  | insert (login : ℕ) (draw : Draw) (now : ℤ) (created : Fate)
  | logout (sessionId : String) (now : ℤ) (revoked : Fate)
  | change (userId : String) (change : UserChange) (now : ℤ) (changed : Fate)

namespace LoginSystem

def read (s : LoginSystem) (login : ℕ) (username password : String) : LoginSystem :=
  match readLogin s.db username with
  | .error _ => s
  | .ok user =>
    { s with pending := Function.update s.pending login (some ⟨user, password, s.epochs user.id⟩) }

def insert (s : LoginSystem) (login : ℕ) (draw : Draw) (now : ℤ) (created : Fate) : LoginSystem :=
  match s.pending login with
  | none => s
  | some pending =>
    let ended := { s with pending := Function.update s.pending login none }
    match loginSession verifyPassword digestSecret pending draw now with
    | .error _ => ended
    | .ok session =>
      match created.reached, createSession session s.db with
      | true, some db =>
        { ended with
          db
          granted := Function.update s.granted session.id pending.epoch }
      | _, _ => ended

def logout (s : LoginSystem) (sessionId : String) (now : ℤ) (revoked : Fate) : LoginSystem :=
  if revoked.reached then { s with db := (revokeSession sessionId now s.db).2 } else s

def change (s : LoginSystem) (userId : String) (change : UserChange) (now : ℤ) (changed : Fate) :
    LoginSystem :=
  if changed.reached then
    { s with
      db := change.apply userId now s.db
      epochs := if change.endsLogins userId now s.db then
          Function.update s.epochs userId (s.epochs userId + 1)
        else s.epochs }
  else s

def step (s : LoginSystem) : LoginEvent → LoginSystem
  | .read login username password => s.read login username password
  | .insert login draw now created => s.insert verifyPassword digestSecret login draw now created
  | .logout sessionId now revoked => s.logout sessionId now revoked
  | .change userId change now changed => s.change userId change now changed

/-- No login inserts its session after an operation has ended the logins of its user. -/
def Current (s : LoginSystem) : LoginEvent → Prop
  | .insert login _ _ _ => ∀ pending ∈ s.pending login, pending.epoch = s.epochs pending.user.id
  | _ => True

/-- Every insertion of the run is current when it happens. -/
def CurrentRun (s : LoginSystem) : List LoginEvent → Prop
  | [] => True
  | event :: events =>
    s.Current event ∧ CurrentRun (s.step verifyPassword digestSecret event) events

end LoginSystem

/-! ## Open sessions -/

variable {db : AuthDb} {session : SessionRow} {userId : String}

/-- The session is stored and not revoked. -/
def OpenIn (db : AuthDb) (session : SessionRow) : Prop :=
  session ∈ db.sessions.rows ∧ session.revokedAt = none

variable {now : ℤ}

theorem openIn_closeSessions {p : SessionRow → Bool}
    (h : OpenIn (db.closeSessions p now) session) : OpenIn db session ∧ p session = false := by
  obtain ⟨hmem, hopen⟩ := h
  obtain ⟨row, hrow, rfl⟩ := mem_map.mp hmem
  by_cases hclosed : p row ∧ row.revokedAt = none
  · rw [if_pos hclosed] at hopen
    cases hopen
  · rw [if_neg hclosed] at hopen ⊢
    refine ⟨⟨hrow, hopen⟩, ?_⟩
    rw [← Bool.not_eq_true]
    exact fun hp => hclosed ⟨hp, hopen⟩

theorem openIn_revokeSessions (h : OpenIn (db.revokeSessions userId now) session) :
    OpenIn db session ∧ session.userId ≠ userId := by
  obtain ⟨hopen, hne⟩ := openIn_closeSessions h
  exact ⟨hopen, by simpa using hne⟩

/-- An operation on a user opens no session, and one that ends logins leaves none of the user's
open. -/
theorem openIn_change {change : UserChange} (h : OpenIn (change.apply userId now db) session) :
    OpenIn db session ∧ (change.endsLogins userId now db = true → session.userId ≠ userId) := by
  cases change with
  | setEnabled enabled =>
    simp only [UserChange.apply, UserChange.endsLogins, Storage.setUserEnabled] at h ⊢
    split at h
    · exact ⟨h, by simp⟩
    · split at h
      · cases enabled with
        | true => exact ⟨h, by simp⟩
        | false =>
          -- disabling the keys leaves the closed sessions as they are
          have hrevoked : OpenIn (db.setEnabled userId false) session ∧
            session.userId ≠ userId := openIn_revokeSessions h
          exact ⟨hrevoked.1, fun _ => hrevoked.2⟩
      · next hguard =>
          refine ⟨h, fun hends => ?_⟩
          rw [if_neg hguard] at hends
          simp at hends
  | setRole =>
    simp only [UserChange.apply, UserChange.endsLogins, setUserRole] at h ⊢
    split at h
    · next hnone => exact ⟨h, by simp⟩
    · next user huser =>
        split at h
        · next hsame => exact ⟨h, by simp [huser, hsame]⟩
        · split at h
          · obtain ⟨hopen, hne⟩ := openIn_revokeSessions h
            exact ⟨hopen, fun _ => hne⟩
          · next hother hguard =>
              refine ⟨h, fun hends => ?_⟩
              rw [if_neg hother, if_neg hguard] at hends
              simp at hends
  | resetPassword =>
    simp only [UserChange.apply, UserChange.endsLogins, resetUserPassword] at h ⊢
    split at h
    · obtain ⟨hopen, hne⟩ := openIn_revokeSessions h
      exact ⟨hopen, fun _ => hne⟩
    · next hnone =>
        refine ⟨h, fun hends => ?_⟩
        rw [if_neg hnone] at hends
        cases hends

variable {new : NewSession}

theorem createSession_eq_some {db' : AuthDb} (h : createSession new db = some db') :
    db'.sessions.rows = db.sessions.rows ++ [new.row] ∧
      ∀ row ∈ db.sessions.rows, row.id ≠ new.id := by
  unfold createSession at h
  split at h
  · next hfree =>
      split at h
      · cases h
        exact ⟨Table.rows_insertNew (r := new.row) hfree.1, Table.find?_eq_none.mp hfree.1⟩
      · cases h
  · cases h

theorem loginSession_userId {login : PendingLogin} {draw : Draw}
    (h : loginSession verifyPassword digestSecret login draw now = .ok new) :
    new.userId = login.user.id := by
  obtain ⟨_, -, h⟩ := Fold.bind_eq_ok.mp h
  obtain ⟨⟨_, _⟩, hgrant, h⟩ := Fold.bind_eq_ok.mp h
  cases h
  unfold newSessionGrant at hgrant
  split at hgrant
  · cases hgrant
  · obtain ⟨_, -, hgrant⟩ := Fold.bind_eq_ok.mp hgrant
    cases hgrant
    rfl

/-- Only an open session of an enabled user is accepted. -/
theorem authenticateSession_open {token : String} {accepted : AuthenticatedSession}
    (h : authenticateSession digestSecret db token now = .ok accepted) :
    ∃ session, OpenIn db session ∧ session.id = accepted.sessionId ∧
      session.userId = accepted.user.id := by
  unfold authenticateSession loadSessionByTokenHash at h
  rcases hfind : db.sessions.rows.find? (fun session => session.tokenHash = digestSecret token)
    with _ | session
  · simp [hfind] at h
  · rcases huser : db.users.find? session.userId with _ | user
    · simp [hfind, huser] at h
    · simp only [hfind, huser, Option.bind_some, Option.map_some] at h
      split at h
      · cases h
      · next hguard =>
          cases h
          refine ⟨session, ⟨mem_of_find?_eq_some hfind, ?_⟩, rfl, ?_⟩
          · simp only [Bool.or_eq_true, not_or, Option.isSome_iff_ne_none, ne_eq,
              Decidable.not_not] at hguard
            exact hguard.1.1
          · exact (Table.find?_eq_some.mp huser).2.symm

/-! ## Sessions that were granted in time -/

/-- The login behind an open session read its user after every operation that ended logins. -/
def LoginSystem.InTime (s : LoginSystem) : Prop :=
  ∀ session, OpenIn s.db session → s.granted session.id = s.epochs session.userId

namespace LoginSystem

variable {s : LoginSystem}

theorem inTime_start (db : AuthDb) : (start db).InTime := fun _ _ => rfl

theorem InTime.read (h : s.InTime) (login : ℕ) (username password : String) :
    (s.read login username password).InTime := by
  unfold LoginSystem.read
  split <;> exact h

theorem InTime.insert (h : s.InTime) {login : ℕ} {draw : Draw} {now : ℤ} {created : Fate}
    (hcurrent : s.Current (.insert login draw now created)) :
    (s.insert verifyPassword digestSecret login draw now created).InTime := by
  unfold LoginSystem.insert
  rcases hpending : s.pending login with _ | pending
  · exact h
  · simp only []
    split
    · exact h
    · next new hnew =>
        split
        · next db' hreached hcreate =>
            obtain ⟨hrows, hfresh⟩ := createSession_eq_some hcreate
            rintro session ⟨hmem, hopen⟩
            show Function.update s.granted new.id pending.epoch session.id = _
            rw [hrows, mem_append, mem_singleton] at hmem
            rcases hmem with hmem | rfl
            · -- the new session has an id of its own
              rw [Function.update_of_ne (hfresh session hmem)]
              exact h session ⟨hmem, hopen⟩
            · rw [show new.row.id = new.id from rfl, Function.update_self]
              have huser := loginSession_userId verifyPassword digestSecret hnew
              exact (hcurrent pending hpending).trans (congrArg s.epochs huser.symm)
        · exact h

theorem InTime.logout (h : s.InTime) (sessionId : String) (now : ℤ) (revoked : Fate) :
    (s.logout sessionId now revoked).InTime := by
  unfold LoginSystem.logout
  split
  · intro session hopen
    exact h session (openIn_closeSessions hopen).1
  · exact h

theorem InTime.change (h : s.InTime) (userId : String) (change : UserChange) (now : ℤ)
    (changed : Fate) : (s.change userId change now changed).InTime := by
  unfold LoginSystem.change
  split
  · intro session hopen
    obtain ⟨hbefore, hended⟩ := openIn_change hopen
    have hepochs := h session hbefore
    simp only []
    split
    · next hends => rwa [Function.update_of_ne (hended hends)]
    · exact hepochs
  · exact h

theorem InTime.step (h : s.InTime) {event : LoginEvent} (hcurrent : s.Current event) :
    (s.step verifyPassword digestSecret event).InTime := by
  cases event with
  | read login username password => exact h.read login username password
  | insert => exact h.insert verifyPassword digestSecret hcurrent
  | logout sessionId now revoked => exact h.logout sessionId now revoked
  | change userId change now changed => exact h.change userId change now changed

theorem InTime.run (h : s.InTime) {events : List LoginEvent}
    (hcurrent : s.CurrentRun verifyPassword digestSecret events) :
    ∀ s' ∈ events.scanl (LoginSystem.step verifyPassword digestSecret) s, s'.InTime := by
  induction events generalizing s with
  | nil => exact forall_mem_singleton.mpr h
  | cons _ _ ih =>
    rw [scanl_cons]
    exact forall_mem_cons.mpr
      ⟨h, ih (h.step verifyPassword digestSecret hcurrent.1) hcurrent.2⟩

end LoginSystem

/-- In every run whose logins insert their sessions in time, each session that is accepted at any
moment was granted by a login that had read its user after every password reset, effective role
change and disabling of that user that has committed. -/
theorem older_logins_ended (db : AuthDb) (events : List LoginEvent)
    (hcurrent : (LoginSystem.start db).CurrentRun verifyPassword digestSecret events) :
    ∀ s ∈ events.scanl (LoginSystem.step verifyPassword digestSecret) (LoginSystem.start db),
      ∀ token now accepted, authenticateSession digestSecret s.db token now = .ok accepted →
        s.granted accepted.sessionId = s.epochs accepted.user.id := by
  intro s hs token now accepted haccepted
  have hintime := (LoginSystem.inTime_start db).run verifyPassword digestSecret hcurrent s hs
  obtain ⟨session, hopen, hid, huser⟩ := authenticateSession_open digestSecret haccepted
  rw [← huser, ← hid]
  exact hintime session hopen

/-- The store after setup and the creation of a second user. -/
def annDb : AuthDb :=
  (AdminCall.createUser ⟨"u2", "ann", "old", .user, true, 0⟩ .answered).perform id
    (rootSetup.perform id freshDb)

/-- A hash that is the password itself. -/
def samePassword (password passwordHash : String) : Except AuthError Bool :=
  .ok (password == passwordHash)

def annSession : Draw := ⟨"", "s2", some "ann-token"⟩

/-- A login with the new password after a reset. -/
theorem older_logins_ended_afterReset :
    let events := [LoginEvent.change "u2" (.resetPassword "new") 5 .answered,
      .read 0 "ann" "new", .insert 0 annSession 6 .answered]
    ∀ s ∈ events.scanl (LoginSystem.step samePassword id) (LoginSystem.start annDb),
      ∀ token now accepted, authenticateSession id s.db token now = .ok accepted →
        s.granted accepted.sessionId = s.epochs accepted.user.id := by
  refine older_logins_ended samePassword id annDb _ ⟨trivial, trivial, ?_, trivial⟩
  intro pending hpending
  cases hpending
  rfl

/-- After a run: whom the token of the session belongs to if it is accepted, the count its login
had read, and the count of the user. -/
def annStatus (events : List LoginEvent) : Option String × ℕ × ℕ :=
  let s := events.foldl (LoginSystem.step samePassword id) (LoginSystem.start annDb)
  ((authenticateSession id s.db "ann-token" 7).toOption.map fun accepted => accepted.user.id,
    s.granted "s2", s.epochs "u2")

/-- A login that has read the user and inserts its session after a reset, after a role change, or
after a disabling that is taken back is accepted, though the operation committed and returned
after the read. -/
theorem overtaken_login_accepted :
    annStatus [.read 0 "ann" "old", .change "u2" (.resetPassword "new") 5 .answered,
        .insert 0 annSession 6 .answered] = (some "u2", 0, 1) ∧
      annStatus [.read 0 "ann" "old", .change "u2" (.setRole .superAdmin) 5 .answered,
        .insert 0 annSession 6 .answered] = (some "u2", 0, 1) ∧
      annStatus [.read 0 "ann" "old", .change "u2" (.setEnabled false) 5 .answered,
        .insert 0 annSession 6 .answered, .change "u2" (.setEnabled true) 6 .answered] =
          (some "u2", 0, 1) := by
  decide

end ProviderCore.Auth
