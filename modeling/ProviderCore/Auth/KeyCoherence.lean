import ProviderCore.Auth.ApiKeys

/-!
# The map of active keys and the store

A keyring is coherent when its map holds exactly the keys that are enabled in the store and
whose owner is enabled, with their stored fields.  A mutation edits the map and the store at
different moments; `Orderly` says, from the store before the call and the fates of its repository
calls, when both edits meet again.  The main result is exact: along any sequence of calls the
keyring is coherent throughout if and only if every call is orderly.
-/

namespace ProviderCore.Auth

open Storage Await List

variable {δ : Type} (digestSecret : String → δ)

/-! ## What a map holds -/

/-- The map holds the entries of the keys in `P` and nothing else. -/
def Holds (active : ActiveKeys δ) (P : ApiKeyRow → Prop) : Prop :=
  ∀ entry, entry ∈ active.rows ↔ ∃ key, P key ∧ activeEntry digestSecret key = entry

/-- The keys that may authenticate. -/
def Active (db : AuthDb) (key : ApiKeyRow) : Prop :=
  key ∈ db.apiKeys.rows ∧ key.enabled = true ∧ db.userEnabled key.ownerUserId = true

/-- The map in memory agrees with the store. -/
def Keyring.Coherent (ring : Keyring δ) : Prop := Holds digestSecret ring.active (Active ring.db)

/-- Keys are told apart by their ids. -/
def Distinct (P : ApiKeyRow → Prop) : Prop :=
  ∀ key key', P key → P key' → key.id = key'.id → key = key'

/-- No two stored keys have the same digest. -/
def CollisionFree (db : AuthDb) : Prop :=
  ∀ key ∈ db.apiKeys.rows, ∀ key' ∈ db.apiKeys.rows,
    digestSecret key.key = digestSecret key'.key → key = key'

variable {P Q : ApiKeyRow → Prop}

theorem Distinct.mono (h : Distinct Q) (hsub : ∀ key, P key → Q key) : Distinct P :=
  fun key key' hkey hkey' => h key key' (hsub key hkey) (hsub key' hkey')

theorem distinct_stored (db : AuthDb) : Distinct (· ∈ db.apiKeys.rows) := fun _ _ => AuthDb.id_inj

theorem distinct_active (db : AuthDb) : Distinct (Active db) :=
  (distinct_stored db).mono fun _ h => h.1

variable {digestSecret}

variable {active : ActiveKeys δ}

section

variable (h : Holds digestSecret active P)

include h

theorem Holds.congr (hPQ : ∀ key, P key ↔ Q key) : Holds digestSecret active Q := fun entry =>
  (h entry).trans (exists_congr fun key => and_congr_left fun _ => hPQ key)

theorem Holds.subset {R : ApiKeyRow → Prop}
    (h' : Holds digestSecret active Q) (hR : Distinct R) (hP : ∀ key, P key → R key)
    (hQ : ∀ key, Q key → R key) : ∀ key, P key → Q key := by
  intro key hkey
  obtain ⟨key', hkey', he⟩ := (h' _).mp ((h _).mpr ⟨key, hkey, rfl⟩)
  have hid : key'.id = key.id := congrArg (fun entry => entry.2.id) he
  rwa [← hR key' key (hQ key' hkey') (hP key hkey) hid]

/-- A map that holds fewer keys than it should lacks one of them. -/
theorem Holds.iff_of_subset (hsub : ∀ key, P key → Q key) (hQ : Distinct Q) :
    Holds digestSecret active Q ↔ ∀ key, Q key → P key :=
  ⟨fun hheld => hheld.subset h hQ (fun _ => id) hsub,
    fun hsup => h.congr fun key => ⟨hsub key, hsup key⟩⟩

/-- A map that holds more keys than it should holds a wrong one. -/
theorem Holds.iff_of_superset (hsub : ∀ key, Q key → P key) (hP : Distinct P) :
    Holds digestSecret active Q ↔ ∀ key, P key → Q key :=
  ⟨fun hheld => h.subset hheld hP (fun _ => id) hsub,
    fun hsup => h.congr fun key => ⟨hsup key, hsub key⟩⟩

variable {key : ApiKeyRow} {on : Prop}

/-- A map that was not told of a new key is right if the key is off. -/
theorem Holds.untold_iff
    (hadded : ∀ key', Q key' ↔ (key' = key ∧ on) ∨ P key') (hnew : ¬P key) (hQ : Distinct Q) :
    Holds digestSecret active Q ↔ ¬on := by
  refine (h.iff_of_subset (fun key' hkey' => (hadded key').mpr (.inr hkey')) hQ).trans ?_
  constructor
  · intro hall hon
    exact hnew (hall key ((hadded key).mpr (.inl ⟨rfl, hon⟩)))
  · intro hoff key' hkey'
    exact ((hadded key').mp hkey').resolve_left fun hnow => hoff hnow.2

/-! ## Edits of the map -/

variable [DecidableEq δ]

theorem Holds.upsert
    (hnew : ∀ key', P key' → digestSecret key'.key ≠ digestSecret key.key) :
    Holds digestSecret (active.upsert (activeEntry digestSecret key))
      (fun key' => key' = key ∨ P key') := by
  intro entry
  rw [Table.mem_upsert, h entry]
  constructor
  · rintro (rfl | ⟨⟨key', hkey', rfl⟩, -⟩)
    · exact ⟨key, .inl rfl, rfl⟩
    · exact ⟨key', .inr hkey', rfl⟩
  · rintro ⟨key', rfl | hkey', rfl⟩
    · exact .inl rfl
    · exact .inr ⟨⟨key', hkey', rfl⟩, fun he => hnew key' hkey' he⟩

/-- A map that was told of a new key is right if the key is on. -/
theorem Holds.upsert_iff
    (hnew : ∀ key', P key' → digestSecret key'.key ≠ digestSecret key.key)
    (hdistinct : Distinct fun key' => key' = key ∨ P key')
    (hadded : ∀ key', Q key' ↔ (key' = key ∧ on) ∨ P key') :
    Holds digestSecret (active.upsert (activeEntry digestSecret key)) Q ↔ on := by
  refine ((h.upsert hnew).iff_of_superset
    (fun key' hkey' => ((hadded key').mp hkey').imp_left And.left) hdistinct).trans ?_
  constructor
  · intro hall
    rcases (hadded key).mp (hall key (.inl rfl)) with ⟨-, hon⟩ | hold
    · exact hon
    · exact absurd rfl (hnew key hold)
  · rintro hon key' (rfl | hkey')
    · exact (hadded key').mpr (.inl ⟨rfl, hon⟩)
    · exact (hadded key').mpr (.inr hkey')

omit [DecidableEq δ] in
theorem Holds.filter (p : δ × ActiveApiKey → Bool) :
    Holds digestSecret (active.filter p)
      (fun key => P key ∧ p (activeEntry digestSecret key) = true) := by
  intro entry
  rw [Table.mem_filter, h entry]
  constructor
  · rintro ⟨⟨key, hkey, rfl⟩, hp⟩
    exact ⟨key, ⟨hkey, hp⟩, rfl⟩
  · rintro ⟨key, ⟨hkey, hp⟩, rfl⟩
    exact ⟨⟨key, hkey, rfl⟩, hp⟩

variable (ownerUserId keyId : String)

theorem Holds.removeActive (hP : Distinct P)
    (hdigest : ∀ key key', P key → P key' → digestSecret key.key = digestSecret key'.key →
      key = key') :
    Holds digestSecret (removeActive active ownerUserId keyId).2
      (fun key => P key ∧ ¬(key.id = keyId ∧ key.ownerUserId = ownerUserId)) := by
  unfold Auth.removeActive
  split
  · next hnone =>
      refine h.congr fun key => (and_iff_left_of_imp fun hkey hmatch => ?_).symm
      have := List.find?_eq_none.mp hnone _ ((h _).mpr ⟨key, hkey, rfl⟩)
      simp [activeEntry, hmatch.1, hmatch.2] at this
  · next entry hsome =>
      obtain ⟨key₀, hkey₀, rfl⟩ := (h entry).mp (mem_of_find?_eq_some hsome)
      have hmatch := List.find?_some hsome
      replace hmatch : key₀.id = keyId ∧ key₀.ownerUserId = ownerUserId :=
        decide_eq_true_iff.mp hmatch
      refine (h.filter _).congr fun key => and_congr_right fun hkey => ?_
      rw [decide_eq_true_iff]
      refine not_congr ⟨fun he => ?_, fun hm => ?_⟩
      · rwa [hdigest key key₀ hkey hkey₀ he]
      · rw [hP key key₀ hkey hkey₀ (hm.1.trans hmatch.1.symm)]

variable {ownerUserId keyId} in
/-- Putting the entry back undoes its removal. -/
theorem Holds.restoreActive :
    Holds digestSecret (restoreActive (Auth.removeActive active ownerUserId keyId).2
      (Auth.removeActive active ownerUserId keyId).1) P := by
  intro entry
  refine .trans ?_ (h entry)
  unfold Auth.removeActive
  split
  · rfl
  · next entry₀ hsome =>
      have hmem := mem_of_find?_eq_some hsome
      rw [Auth.restoreActive, Table.mem_upsert, Table.mem_filter, decide_eq_true_iff]
      constructor
      · rintro (rfl | ⟨⟨h, -⟩, -⟩)
        · exact hmem
        · exact h
      · intro h
        by_cases he : entry.1 = entry₀.1
        · exact .inl (inj_on_of_nodup_map active.nodup h hmem he)
        · exact .inr ⟨⟨h, he⟩, he⟩

omit [DecidableEq δ] in
theorem Holds.removeOwnerActive (userId : String) :
    Holds digestSecret (removeOwnerActive active userId).2
      (fun key => P key ∧ key.ownerUserId ≠ userId) :=
  (h.filter _).congr fun _ => and_congr_right fun _ => decide_eq_true_iff

/-- Putting a user's entries back undoes their removal. -/
theorem Holds.extend_removed (userId : String) :
    Holds digestSecret (extend (Auth.removeOwnerActive active userId).2
      (Auth.removeOwnerActive active userId).1) P := by
  intro entry
  refine .trans ?_ (h entry)
  have hnodup : ((Auth.removeOwnerActive active userId).1.map Prod.fst).Nodup :=
    (filter_sublist.map _).nodup active.nodup
  rw [extend, Table.mem_foldl_upsert hnodup, Auth.removeOwnerActive, Table.mem_filter, mem_filter,
    decide_eq_true_iff, decide_eq_true_iff]
  constructor
  · rintro (⟨h, -⟩ | ⟨⟨h, -⟩, -⟩) <;> exact h
  · intro h
    by_cases howner : entry.2.ownerUserId = userId
    · exact .inl ⟨h, howner⟩
    · refine .inr ⟨⟨h, howner⟩, fun hdigest => ?_⟩
      obtain ⟨_, hentry', he⟩ := mem_map.mp hdigest
      obtain ⟨hmem, howner'⟩ := mem_filter.mp hentry'
      obtain rfl := inj_on_of_nodup_map active.nodup hmem h he
      exact howner (by simpa using howner')

end

/-! ## Changes of the store -/

section Store

variable {db db' : AuthDb} {key : ApiKeyRow}

/-- An insertion that goes through adds a key with a new secret. -/
theorem createApiKey_true (h : createApiKey key db = some (true, db')) :
    (∀ key' ∈ db.apiKeys.rows, key'.key ≠ key.key) ∧
      (∀ key', key' ∈ db'.apiKeys.rows ↔ key' = key ∨ key' ∈ db.apiKeys.rows) ∧
        db'.users = db.users := by
  unfold createApiKey at h
  split at h
  · next hfree =>
      split at h
      · cases h
        refine ⟨fun key' hkey' he => hfree.2 (mem_map.mpr ⟨key', hkey', he⟩), ?_, rfl⟩
        intro key'
        simp only [Table.rows_insertNew hfree.1, mem_append, mem_singleton]
        exact or_comm
      · cases h
  · cases h

theorem active_createApiKey (h : createApiKey key db = some (true, db')) (key' : ApiKeyRow) :
    Active db' key' ↔
      (key' = key ∧ key.enabled = true ∧ db.userEnabled key.ownerUserId = true) ∨
        Active db key' := by
  obtain ⟨-, hmem, husers⟩ := createApiKey_true h
  simp only [Active, hmem, AuthDb.userEnabled, husers, or_and_right]
  refine or_congr_left (and_congr_right ?_)
  rintro rfl
  rfl

theorem createApiKey_false (h : createApiKey key db = some (false, db')) : db' = db := by
  unfold createApiKey at h
  split at h
  · split at h <;> cases h
  · cases h
    rfl

theorem active_updateApiKey {ownerUserId keyId : String} {current : ApiKeyRow}
    (hload : loadApiKey db ownerUserId keyId = some current) (change : StoredApiKeyUpdate)
    (key : ApiKeyRow) :
    Active (updateApiKey ownerUserId keyId change db).2 key ↔
      (key = change.apply current ∧ change.enabled = true ∧ db.userEnabled ownerUserId = true) ∨
        (Active db key ∧ ¬(key.id = keyId ∧ key.ownerUserId = ownerUserId)) := by
  obtain ⟨hcurrent, hmatch⟩ := loadApiKey_eq_some.mp hload
  constructor
  · rintro ⟨hkey, henabled, howner⟩
    obtain ⟨key₀, hkey₀, rfl⟩ := mem_map.mp hkey
    by_cases hm : key₀.id = keyId ∧ key₀.ownerUserId = ownerUserId
    · obtain rfl := AuthDb.id_inj hkey₀ hcurrent (hm.1.trans hmatch.1.symm)
      rw [if_pos hm] at henabled howner ⊢
      exact .inl ⟨rfl, henabled, hm.2 ▸ howner⟩
    · rw [if_neg hm] at henabled howner ⊢
      exact .inr ⟨⟨hkey₀, henabled, howner⟩, hm⟩
  · rintro (⟨rfl, henabled, howner⟩ | ⟨⟨hkey, hactive⟩, hm⟩)
    · refine ⟨mem_map.mpr ⟨current, hcurrent, if_pos hmatch⟩, henabled, ?_⟩
      exact hmatch.2 ▸ howner
    · exact ⟨mem_map.mpr ⟨key, hkey, if_neg hm⟩, hactive⟩

theorem active_deleteApiKey (ownerUserId keyId : String) (key : ApiKeyRow) :
    Active (deleteApiKey ownerUserId keyId db).2 key ↔
      Active db key ∧ ¬(key.id = keyId ∧ key.ownerUserId = ownerUserId) := by
  change (_ ∈ (db.apiKeys.filter _).rows ∧ _) ↔ _
  rw [Table.mem_filter, decide_eq_true_iff]
  exact and_right_comm

variable {userId : String}

theorem userEnabled_setEnabled_of_ne {other : String} (enabled : Bool)
    (h : other ≠ userId) : (db.setEnabled userId enabled).userEnabled other =
      db.userEnabled other := by
  rw [AuthDb.userEnabled, AuthDb.setEnabled, AuthDb.mapUser, Table.find?_modify_of_ne _ h.symm,
    AuthDb.userEnabled]

/-- A change of the flag goes through, or leaves the store alone. -/
theorem setUserEnabled_cases (db : AuthDb) (userId : String) (enabled : Bool) (now : ℤ) :
    (∃ user, db.users.find? userId = some user ∧ Storage.setUserEnabled userId enabled now db =
        (.updated, if enabled then db.setEnabled userId enabled
          else (db.setEnabled userId enabled).revoke userId now)) ∨
      ∃ outcome ≠ .updated, Storage.setUserEnabled userId enabled now db = (outcome, db) := by
  unfold Storage.setUserEnabled
  rcases db.users.find? userId with _ | user
  · exact .inr ⟨.notFound, nofun, rfl⟩
  · dsimp only
    split
    · exact .inl ⟨user, rfl, rfl⟩
    · exact .inr ⟨.lastEnabledSuperAdmin, nofun, rfl⟩

theorem deleteUser_cases (db : AuthDb) (userId : String) :
    Storage.deleteUser userId db = (.deleted, db.dropUser userId) ∨
      ∃ outcome ≠ .deleted, Storage.deleteUser userId db = (outcome, db) := by
  unfold Storage.deleteUser
  split
  · exact .inr ⟨.notFound, nofun, rfl⟩
  · split
    · exact .inr ⟨.hasProviderAccounts, nofun, rfl⟩
    · split
      · exact .inl rfl
      · exact .inr ⟨.lastEnabledSuperAdmin, nofun, rfl⟩

variable {user : UserRow}

theorem find?_setEnabled (enabled : Bool) (h : db.users.find? userId = some user) :
    (db.setEnabled userId enabled).users.find? userId = some { user with enabled := enabled } := by
  rw [AuthDb.setEnabled, AuthDb.mapUser, Table.find?_modify_self, h]
  rfl

/-- Enabling a user activates their enabled keys. -/
theorem active_setEnabled (h : db.users.find? userId = some user) (key : ApiKeyRow) :
    Active (db.setEnabled userId true) key ↔ key ∈ db.apiKeys.rows ∧ key.enabled = true ∧
      (key.ownerUserId = userId ∨ db.userEnabled key.ownerUserId = true) := by
  refine and_congr_right fun _ => and_congr_right fun _ => ?_
  by_cases howner : key.ownerUserId = userId
  · have henabled : (db.setEnabled userId true).userEnabled userId = true := by
      rw [AuthDb.userEnabled, find?_setEnabled true h]
      rfl
    simp [howner, henabled]
  · simp [howner, userEnabled_setEnabled_of_ne true howner]

/-- The store after a revocation that went through. -/
def Revoked (db : AuthDb) (userId : String) (db' : AuthDb) : Prop :=
  ∀ key, Active db' key ↔ Active db key ∧ key.ownerUserId ≠ userId

theorem revoked_revoke (db : AuthDb) (userId : String) (now : ℤ) :
    Revoked db userId ((db.setEnabled userId false).revoke userId now) := by
  intro key
  constructor
  · rintro ⟨hkey, henabled, howner⟩
    obtain ⟨key₀, hkey₀, rfl⟩ := mem_map.mp hkey
    by_cases hm : key₀.ownerUserId = userId
    · simp [hm] at henabled
    · rw [if_neg hm] at henabled howner ⊢
      exact ⟨⟨hkey₀, henabled, (userEnabled_setEnabled_of_ne false hm).symm.trans howner⟩, hm⟩
  · rintro ⟨⟨hkey, henabled, howner⟩, hm⟩
    refine ⟨mem_map.mpr ⟨key, hkey, if_neg hm⟩, henabled, ?_⟩
    exact (userEnabled_setEnabled_of_ne false hm).trans howner

theorem revoked_dropUser (db : AuthDb) (userId : String) :
    Revoked db userId (db.dropUser userId) := by
  intro key
  have hother : key.ownerUserId ≠ userId →
      (db.dropUser userId).userEnabled key.ownerUserId = db.userEnabled key.ownerUserId := by
    intro hne
    rw [AuthDb.userEnabled, AuthDb.dropUser, Table.find?_filter_ne (k := userId) (by simp),
      if_neg hne.symm, AuthDb.userEnabled]
  constructor
  · rintro ⟨hkey, henabled, howner⟩
    obtain ⟨hkey, hm⟩ := Table.mem_filter.mp hkey
    have hm : key.ownerUserId ≠ userId := by simpa using hm
    exact ⟨⟨hkey, henabled, (hother hm).symm.trans howner⟩, hm⟩
  · rintro ⟨⟨hkey, henabled, howner⟩, hm⟩
    exact ⟨Table.mem_filter.mpr ⟨hkey, by simpa using hm⟩, henabled, (hother hm).trans howner⟩

end Store

/-! ## Orderly calls -/

/-- The user has no key that may authenticate. -/
def NoActiveKey (db : AuthDb) (userId : String) : Prop :=
  ∀ key, Active db key → key.ownerUserId ≠ userId

/-- When the insertion of a key leaves map and store together.  Nothing happens if the id or the
secret is taken. -/
def OrderlyInsert (db : AuthDb) (key : ApiKeyRow) (created : Fate) : Prop :=
  (createApiKey key db).map Prod.fst = some true →
    (created = .answered → db.userEnabled key.ownerUserId = true) ∧
      (created = .droppedAfter → db.userEnabled key.ownerUserId = false)

/-- When the update of a stored key leaves map and store together. -/
def OrderlyUpdate (ownerEnabled wasEnabled enabled : Bool) : (updated : Fate) → Prop
  | .answered => enabled = true → ownerEnabled = true
  | .failed => True
  | .droppedBefore => ¬(wasEnabled = true ∧ ownerEnabled = true)
  | .droppedAfter => ¬(enabled = true ∧ ownerEnabled = true)

/-- When a disabling or deletion of a user, which `commits` or is refused, leaves map and store
together; `loaded` is the read that follows a commit. -/
def OrderlyRevocation (db : AuthDb) (userId : String) (commits : Prop) (loaded : Fate) :
    (changed : Fate) → Prop
  | .answered => commits → loaded = .failed → NoActiveKey db userId
  | .failed => True
  | .droppedBefore => NoActiveKey db userId
  | .droppedAfter => ¬commits → NoActiveKey db userId

/-- The calls that keep map and store together.  A caller is not dropped between the two edits
of a key that may authenticate before or after the call, the read that follows a committed
disabling does not fail for a user with such a key, keys are created and left enabled only for
an enabled owner, and a user is enabled only if no key of theirs was left enabled meanwhile. -/
def Orderly (db : AuthDb) : Call → Prop
  | .abandoned => True
  | .create input id lookups created =>
    match newApiKey input id with
    | .error _ => True
    | .ok key =>
      requireVisibleGroups key.groupLabels lookups = .returned () →
        OrderlyInsert db key created
  | .update ownerUserId keyId patch loaded lookups updated =>
    match loaded.read (loadApiKey db ownerUserId keyId) with
    | .answer (some current) =>
      match storedApiKeyUpdate patch current with
      | .error _ => True
      | .ok change =>
        requireVisibleGroups change.groupLabels lookups = .returned () →
          OrderlyUpdate (db.userEnabled ownerUserId) current.enabled change.enabled updated
    | _ => True
  | .delete ownerUserId keyId deleted => deleted = .droppedBefore →
      ∀ key, loadApiKey db ownerUserId keyId = some key → ¬Active db key
  | .setUserEnabled actor userId true _ changed _ =>
    actor.role = .superAdmin → changed = .answered ∨ changed = .droppedAfter →
      db.userEnabled userId = true ∨
        ∀ key ∈ db.apiKeys.rows, key.enabled = true → key.ownerUserId ≠ userId
  | .setUserEnabled actor userId false now changed loaded =>
    actor.role = .superAdmin → actor.id ≠ userId →
      OrderlyRevocation db userId
        ((Storage.setUserEnabled userId false now db).1 = .updated) loaded changed
  | .deleteUser actor userId deleted =>
    actor.role = .superAdmin → actor.id ≠ userId →
      OrderlyRevocation db userId ((Storage.deleteUser userId db).1 = .deleted) .answered deleted

/-! ## One call -/

section Keys

variable [DecidableEq δ] {ring : Keyring δ} {key : ApiKeyRow} {ownerUserId keyId : String}
  (hdigest : CollisionFree digestSecret ring.db) (h : ring.Coherent digestSecret)

include h

theorem coherent_insertKey_iff (henabled : key.enabled = true) (created : Fate)
    (hnext : CollisionFree digestSecret (insertKey digestSecret ring key created).2.db) :
    (insertKey digestSecret ring key created).2.Coherent digestSecret ↔
      OrderlyInsert ring.db key created := by
  unfold OrderlyInsert
  rcases hcreate : createApiKey key ring.db with _ | ⟨_ | _, db'⟩
  · cases created <;> simpa [insertKey, Fate.perform, hcreate] using h
  · obtain rfl := createApiKey_false hcreate
    cases created <;> simpa [insertKey, Fate.perform, hcreate] using h
  · obtain ⟨hfresh, hmem, -⟩ := createApiKey_true hcreate
    have hactive := active_createApiKey hcreate
    cases created with
    | answered =>
      have hdistinct : Distinct fun key' => key' = key ∨ Active ring.db key' :=
        (distinct_stored db').mono fun key' hkey' => (hmem key').mpr (hkey'.imp_right And.left)
      simp only [insertKey, Fate.perform, hcreate] at hnext ⊢
      have hnew : ∀ key', Active ring.db key' → digestSecret key'.key ≠ digestSecret key.key :=
        fun key' hkey' he => hfresh key' hkey'.1 (congrArg _ (hnext key'
          ((hmem key').mpr (.inr hkey'.1)) key ((hmem key).mpr (.inl rfl)) he))
      refine (Holds.upsert_iff h hnew hdistinct hactive).trans ?_
      simp [henabled]
    | failed | droppedBefore => simpa [insertKey, Fate.perform] using h
    | droppedAfter =>
      simp only [insertKey, Fate.perform, hcreate, Option.map_some, Option.getD_some]
      refine (Holds.untold_iff h hactive (fun hold => hfresh key hold.1 rfl)
        (distinct_active db')).trans ?_
      simp [henabled]

include hdigest

/-- The entry that is removed is that of the key, if it is active. -/
theorem holds_removed :
    Holds digestSecret (removeActive ring.active ownerUserId keyId).2
      fun key => Active ring.db key ∧ ¬(key.id = keyId ∧ key.ownerUserId = ownerUserId) :=
  Holds.removeActive h _ _ (distinct_active _) fun key key' hkey hkey' =>
    hdigest key hkey.1 key' hkey'.1

/-- A caller dropped after the removal, with the store unchanged. -/
theorem holds_removed_iff :
    Holds digestSecret (removeActive ring.active ownerUserId keyId).2 (Active ring.db) ↔
      ∀ key, loadApiKey ring.db ownerUserId keyId = some key → ¬Active ring.db key := by
  refine ((holds_removed hdigest h).iff_of_subset (fun _ hkey => hkey.1)
    (distinct_active ring.db)).trans ?_
  constructor
  · intro hall key hload hactive
    exact (hall key hactive).2 (loadApiKey_eq_some.mp hload).2
  · intro hnone key hactive
    exact ⟨hactive, fun hmatch => hnone key (loadApiKey_eq_some.mpr ⟨hactive.1, hmatch⟩) hactive⟩

theorem coherent_changeKey_iff {current : ApiKeyRow}
    (hload : loadApiKey ring.db ownerUserId keyId = some current) (change : StoredApiKeyUpdate)
    (updated : Fate) :
    (changeKey digestSecret ring ownerUserId keyId change updated).2.Coherent digestSecret ↔
      OrderlyUpdate (ring.db.userEnabled ownerUserId) current.enabled change.enabled updated := by
  obtain ⟨hcurrent, hmatch⟩ := loadApiKey_eq_some.mp hload
  have hkept := @holds_removed _ _ _ _ ownerUserId keyId hdigest h
  have hactive := active_updateApiKey hload change
  have hmem : ∀ key, key ∈ ring.db.apiKeys.rows →
      ¬(key.id = keyId ∧ key.ownerUserId = ownerUserId) →
      key ∈ (updateApiKey ownerUserId keyId change ring.db).2.apiKeys.rows :=
    fun key hkey hm => mem_map.mpr ⟨key, hkey, if_neg hm⟩
  have hchanged : change.apply current ∈
      (updateApiKey ownerUserId keyId change ring.db).2.apiKeys.rows :=
    mem_map.mpr ⟨current, hcurrent, if_pos hmatch⟩
  cases updated with
  | answered =>
    have hreply : (updateApiKey ownerUserId keyId change ring.db).1 =
        some (change.apply current) := by
      rw [updateApiKey, hload]
      rfl
    simp only [changeKey, Fate.perform, Function.comp_apply, hreply, OrderlyUpdate]
    change Holds digestSecret (if change.enabled then _ else _) _ ↔ _
    by_cases henabled : change.enabled = true
    · rw [if_pos henabled]
      have hnew : ∀ key, Active ring.db key ∧
          ¬(key.id = keyId ∧ key.ownerUserId = ownerUserId) →
          digestSecret key.key ≠ digestSecret (change.apply current).key := by
        rintro key ⟨hkey, hm⟩ he
        obtain rfl := hdigest key hkey.1 current hcurrent he
        exact hm hmatch
      have hdistinct : Distinct fun key => key = change.apply current ∨ (Active ring.db key ∧
          ¬(key.id = keyId ∧ key.ownerUserId = ownerUserId)) := by
        refine (distinct_stored (updateApiKey ownerUserId keyId change ring.db).2).mono ?_
        rintro key (rfl | ⟨hkey, hm⟩)
        · exact hchanged
        · exact hmem key hkey.1 hm
      refine (hkept.upsert_iff hnew hdistinct hactive).trans ?_
      simp [henabled]
    · rw [if_neg henabled]
      exact iff_of_true (hkept.congr fun key => ((hactive key).trans (by tauto)).symm)
        (fun hon => absurd hon henabled)
  | failed => exact iff_of_true (Holds.restoreActive h) trivial
  | droppedBefore =>
    refine (holds_removed_iff hdigest h).trans ?_
    simp [hload, Active, hcurrent, hmatch.2, OrderlyUpdate]
  | droppedAfter =>
    exact hkept.untold_iff hactive (fun hold => hold.2 hmatch) (distinct_active _)

theorem coherent_delete_iff (deleted : Fate) :
    (delete ring ownerUserId keyId deleted).2.Coherent digestSecret ↔
      Orderly ring.db (.delete ownerUserId keyId deleted) := by
  have hkept := @holds_removed _ _ _ _ ownerUserId keyId hdigest h
  have hactive := @active_deleteApiKey ring.db ownerUserId keyId
  cases deleted with
  | answered =>
    refine iff_of_true ?_ (fun hn => by cases hn)
    rcases hload : loadApiKey ring.db ownerUserId keyId with _ | key
    · -- Nothing matched: the entry goes back and no row was deleted.
      simp only [delete, Fate.perform, Function.comp_apply, deleteApiKey, hload]
      refine (Holds.restoreActive h).congr fun key => ?_
      exact ((hactive key).trans (and_iff_left_of_imp fun hkey =>
        loadApiKey_eq_none.mp hload key hkey.1)).symm
    · simp only [delete, Fate.perform, Function.comp_apply, deleteApiKey, hload]
      exact hkept.congr fun key => (hactive key).symm
  | failed => exact iff_of_true (Holds.restoreActive h) (fun hn => by cases hn)
  | droppedBefore =>
    refine (holds_removed_iff hdigest h).trans ?_
    exact ⟨fun hnone _ => hnone, fun hnone => hnone rfl⟩
  | droppedAfter =>
    exact iff_of_true (hkept.congr fun key => (hactive key).symm) (fun hn => by cases hn)

end Keys

section Users

variable [DecidableEq δ] {α : Type} {ring : Keyring δ} {userId : String}
  {change : AuthDb → Ended AuthError α × AuthDb}

variable (h : ring.Coherent digestSecret)

include h

/-- A change without effect on the store must put the entries back. -/
theorem coherent_kept_iff (hkept : (change ring.db).2 = ring.db) :
    (withoutOwner ring (removeOwnerActive ring.active userId).1
        (removeOwnerActive ring.active userId).2 change).2.Coherent digestSecret ↔
      ((∃ error, (change ring.db).1 = .failed error) ∨ NoActiveKey ring.db userId) := by
  have hremoved : Holds digestSecret (removeOwnerActive ring.active userId).2 (Active ring.db) ↔
      NoActiveKey ring.db userId := by
    refine ((Holds.removeOwnerActive h userId).iff_of_subset (fun _ hkey => hkey.1)
      (distinct_active ring.db)).trans ?_
    exact forall_congr' fun key => imp_congr_right fun hkey => and_iff_right hkey
  rcases hchange : change ring.db with ⟨_ | error | _, db'⟩
  all_goals
    obtain rfl : db' = ring.db := by rw [← hkept, hchange]
    simp only [withoutOwner, hchange, reduceCtorEq, exists_false, false_or]
  · exact hremoved
  · exact iff_of_true (Holds.extend_removed h userId) (.inl ⟨error, rfl⟩)
  · exact hremoved

/-- A change that revokes the keys must leave the entries out. -/
theorem coherent_revoked_iff (hrevoked : Revoked ring.db userId (change ring.db).2) :
    (withoutOwner ring (removeOwnerActive ring.active userId).1
        (removeOwnerActive ring.active userId).2 change).2.Coherent digestSecret ↔
      ((∃ error, (change ring.db).1 = .failed error) → NoActiveKey ring.db userId) := by
  have hremoved := (Holds.removeOwnerActive h userId).congr fun key => (hrevoked key).symm
  have hrestored := ((Holds.extend_removed h userId).iff_of_superset
    (fun key hkey => ((hrevoked key).mp hkey).1) (distinct_active ring.db)).trans <|
      forall_congr' fun key => imp_congr_right fun hkey => (hrevoked key).trans (and_iff_right hkey)
  rcases hchange : change ring.db with ⟨_ | error | _, db'⟩
  all_goals
    simp only [hchange] at hremoved hrestored
    simp only [withoutOwner, hchange, reduceCtorEq, exists_false, IsEmpty.forall_iff]
  · exact iff_of_true hremoved trivial
  · exact hrestored.trans ⟨fun hnone _ => hnone, fun hnone => hnone ⟨error, rfl⟩⟩
  · exact iff_of_true hremoved trivial

theorem coherent_disable_iff (actor : UserSummary) (userId : String) (now : ℤ)
    (changed loaded : Fate) :
    (setUserEnabled ring actor userId false now changed loaded).2.Coherent digestSecret ↔
      Orderly ring.db (.setUserEnabled actor userId false now changed loaded) := by
  change (withoutOwner ring (removeOwnerActive ring.active userId).1
    (removeOwnerActive ring.active userId).2 _).2.Coherent digestSecret ↔ (_ → _ → _)
  by_cases hrole : actor.role = .superAdmin
  · by_cases hself : actor.id = userId
    · rw [coherent_kept_iff h] <;> simp [authSetUserEnabled, hself]
    · rcases setUserEnabled_cases ring.db userId false now with
        ⟨user, huser, hset⟩ | ⟨outcome, hne, hset⟩
      · have hrevoked := revoked_revoke ring.db userId now
        have hfind : ((ring.db.setEnabled userId false).revoke userId now).users.find? userId =
          some { user with enabled := false } := find?_setEnabled false huser
        cases changed with
        | answered | droppedAfter =>
          rw [coherent_revoked_iff h (by
            cases loaded <;>
              simpa [authSetUserEnabled, hrole, hself, Fate.perform, Fate.read, hset, hfind])]
          cases loaded <;> simp [authSetUserEnabled, hrole, hself, Fate.perform, Fate.read, hset,
            hfind, OrderlyRevocation]
        | failed | droppedBefore =>
          rw [coherent_kept_iff h] <;>
            simp [authSetUserEnabled, hrole, hself, Fate.perform, OrderlyRevocation]
      · cases outcome with
        | updated => exact absurd rfl hne
        | _ =>
          rw [coherent_kept_iff h (by
            cases changed <;> simp [authSetUserEnabled, hrole, hself, Fate.perform, hset])]
          cases changed <;> simp [authSetUserEnabled, hrole, hself, Fate.perform, hset,
            OrderlyRevocation]
  · rw [coherent_kept_iff h] <;> simp [authSetUserEnabled, hrole]

theorem coherent_deleteUser_iff (actor : UserSummary) (userId : String) (deleted : Fate) :
    (deleteUser ring actor userId deleted).2.Coherent digestSecret ↔
      Orderly ring.db (.deleteUser actor userId deleted) := by
  change (withoutOwner ring (removeOwnerActive ring.active userId).1
    (removeOwnerActive ring.active userId).2 _).2.Coherent digestSecret ↔ (_ → _ → _)
  by_cases hrole : actor.role = .superAdmin
  · by_cases hself : actor.id = userId
    · rw [coherent_kept_iff h] <;> simp [authDeleteUser, hself]
    · rcases deleteUser_cases ring.db userId with hdelete | ⟨outcome, hne, hdelete⟩
      · have hrevoked := revoked_dropUser ring.db userId
        cases deleted with
        | answered | droppedAfter =>
          rw [coherent_revoked_iff h
            (by simpa [authDeleteUser, hrole, hself, Fate.perform, hdelete])]
          simp [authDeleteUser, hrole, hself, Fate.perform, hdelete, OrderlyRevocation]
        | failed | droppedBefore =>
          rw [coherent_kept_iff h] <;>
            simp [authDeleteUser, hrole, hself, Fate.perform, OrderlyRevocation]
      · cases outcome with
        | deleted => exact absurd rfl hne
        | _ =>
          rw [coherent_kept_iff h (by
            cases deleted <;> simp [authDeleteUser, hrole, hself, Fate.perform, hdelete])]
          cases deleted <;> simp [authDeleteUser, hrole, hself, Fate.perform, hdelete,
            OrderlyRevocation]
  · rw [coherent_kept_iff h] <;> simp [authDeleteUser, hrole]

omit [DecidableEq δ] in
/-- Enabling a user leaves the map alone, so it must add no active key. -/
theorem holds_enable_iff (userId : String) (now : ℤ) :
    Holds digestSecret ring.active (Active (Storage.setUserEnabled userId true now ring.db).2) ↔
      (ring.db.userEnabled userId = true ∨
        ∀ key ∈ ring.db.apiKeys.rows, key.enabled = true → key.ownerUserId ≠ userId) := by
  rcases setUserEnabled_cases ring.db userId true now with ⟨user, huser, hset⟩ | ⟨_, hne, hset⟩
  · have hactive := active_setEnabled huser
    rw [hset]
    refine (Holds.iff_of_subset h (fun key hkey => (hactive key).mpr
      ⟨hkey.1, hkey.2.1, .inr hkey.2.2⟩) (distinct_active _)).trans ?_
    constructor
    · intro hall
      by_contra hcontra
      obtain ⟨hoff, hsome⟩ := not_or.mp hcontra
      refine hsome fun key hkey henabled howner => hoff ?_
      exact howner ▸ (hall key ((hactive key).mpr ⟨hkey, henabled, .inl howner⟩)).2.2
    · intro hor key hkey
      obtain ⟨hmem, henabled, rfl | howner⟩ := (hactive key).mp hkey
      · rcases hor with hon | hnone
        · exact ⟨hmem, henabled, hon⟩
        · exact absurd rfl (hnone key hmem henabled)
      · exact ⟨hmem, henabled, howner⟩
  · rw [hset]
    refine iff_of_true h (.inr fun key hkey _ howner => hne ?_)
    obtain ⟨_, huser⟩ := Option.isSome_iff_exists.mp (ring.db.keysOwned key hkey)
    rw [howner] at huser
    simp [Storage.setUserEnabled, huser] at hset
    exact hset.1.symm

theorem coherent_enable_iff (actor : UserSummary) (userId : String) (now : ℤ)
    (changed loaded : Fate) :
    (setUserEnabled ring actor userId true now changed loaded).2.Coherent digestSecret ↔
      Orderly ring.db (.setUserEnabled actor userId true now changed loaded) := by
  have hring : (setUserEnabled ring actor userId true now changed loaded).2 =
      ⟨(authSetUserEnabled ring.db actor userId true now changed loaded).2, ring.active⟩ := by
    rcases hres : authSetUserEnabled ring.db actor userId true now changed loaded with
      ⟨_ | _ | _, _⟩ <;>
      simp [setUserEnabled, withoutOwner, hres, extend]
  rw [hring]
  unfold Orderly
  by_cases hrole : actor.role = .superAdmin
  · have hdb : (authSetUserEnabled ring.db actor userId true now changed loaded).2 =
        if changed = .answered ∨ changed = .droppedAfter then
          (Storage.setUserEnabled userId true now ring.db).2 else ring.db := by
      rcases hset : Storage.setUserEnabled userId true now ring.db with ⟨_ | _ | _, db'⟩ <;>
        cases changed <;> simp [authSetUserEnabled, hrole, Fate.perform, hset]
      rcases loaded.read (db'.users.find? userId) with (_ | _) | _ | _ <;> rfl
    rw [hdb]
    split
    · next hcommit =>
        refine (holds_enable_iff h userId now).trans ?_
        exact ⟨fun hor _ _ => hor, fun hor => hor hrole hcommit⟩
    · next hcommit => exact iff_of_true h fun _ hor => absurd hor hcommit
  · refine iff_of_true ?_ fun hsuper => absurd hsuper hrole
    simpa [authSetUserEnabled, hrole] using h

end Users

/-! ## Runs of calls -/

def keyIdentity (key : ApiKeyRow) : AuthenticatedApiKey where
  keyId := key.id
  ownerUserId := key.ownerUserId
  label := key.label
  groupLabels := key.groupLabels
  quotaLimitAtoms := key.quotaLimitAtoms

variable {ring : Keyring δ}

section Runs

variable [DecidableEq δ]

/-- One call keeps the map and the store together exactly if it is orderly. -/
theorem coherent_perform_iff (h : ring.Coherent digestSecret) {call : Call}
    (hdigest : CollisionFree digestSecret ring.db)
    (hnext : CollisionFree digestSecret (ring.perform digestSecret call).db) :
    (ring.perform digestSecret call).Coherent digestSecret ↔ Orderly ring.db call := by
  cases call with
  | abandoned => exact iff_of_true h trivial
  | create input id lookups created =>
    simp only [Keyring.perform, create, Orderly] at hnext ⊢
    rcases hnew : newApiKey input id with error | key
    · exact iff_of_true h trivial
    · rw [hnew] at hnext
      dsimp only at hnext ⊢
      generalize requireVisibleGroups key.groupLabels lookups = groups at hnext ⊢
      rcases groups with ⟨⟩ | error | _
      · simpa using coherent_insertKey_iff h (newApiKey_enabled hnew) created hnext
      all_goals exact iff_of_true h fun h => by cases h
  | update ownerUserId keyId patch loaded lookups updated =>
    simp only [Keyring.perform, update, Orderly]
    rcases hread : loaded.read (loadApiKey ring.db ownerUserId keyId) with (_ | current) | _ | _
    · exact iff_of_true h trivial
    · have hload : loadApiKey ring.db ownerUserId keyId = some current := by
        cases loaded <;> simp_all [Fate.read]
      dsimp only
      rcases storedApiKeyUpdate patch current with error | change
      · exact iff_of_true h trivial
      · dsimp only
        rcases requireVisibleGroups change.groupLabels lookups with ⟨⟩ | error | _
        · simpa using coherent_changeKey_iff hdigest h hload change updated
        all_goals exact iff_of_true h fun h => by cases h
    all_goals exact iff_of_true h trivial
  | delete ownerUserId keyId deleted => exact coherent_delete_iff hdigest h deleted
  | setUserEnabled actor userId enabled now changed loaded =>
    cases enabled with
    | true => exact coherent_enable_iff h actor userId now changed loaded
    | false => exact coherent_disable_iff h actor userId now changed loaded
  | deleteUser actor userId deleted => exact coherent_deleteUser_iff h actor userId deleted

theorem coherent_load {db : AuthDb} (hdigest : CollisionFree digestSecret db) :
    (load digestSecret db).Coherent digestSecret := by
  have hnodup : (((loadActiveApiKeys db).map (activeEntry digestSecret)).map Prod.fst).Nodup := by
    rw [map_map]
    refine Nodup.map_on (fun key hkey key' hkey' he => ?_) (db.apiKeys.nodup.of_map _ |>.filter _)
    exact hdigest key (mem_of_mem_filter hkey) key' (mem_of_mem_filter hkey') he
  intro entry
  change entry ∈ (List.foldl Table.upsert Table.empty _).rows ↔ _
  rw [Table.mem_foldl_upsert hnodup, mem_map]
  simp [Table.empty, loadActiveApiKeys, Active, load]

/-- On a coherent keyring a secret authenticates exactly as the active key it belongs to. -/
theorem authenticate_eq_ok_iff (h : ring.Coherent digestSecret) {secret : String}
    (hsecret : ∀ key ∈ ring.db.apiKeys.rows, digestSecret key.key = digestSecret secret →
      key.key = secret) {now : ℤ} {identity : AuthenticatedApiKey} :
    authenticate digestSecret ring.active secret now = .ok identity ↔
      ∃ key, Active ring.db key ∧ key.key = secret ∧ expired key.expiresAt now = false ∧
        keyIdentity key = identity := by
  unfold authenticate
  rcases hfind : ring.active.find? (digestSecret secret) with _ | entry
  · refine iff_of_false nofun ?_
    rintro ⟨key, hkey, rfl, -⟩
    exact Table.find?_eq_none.mp hfind _ ((h _).mpr ⟨key, hkey, rfl⟩) rfl
  · obtain ⟨hmem, hfst⟩ := Table.find?_eq_some.mp hfind
    obtain ⟨key, hkey, rfl⟩ := (h entry).mp hmem
    have hsecret : key.key = secret := hsecret key hkey.1 hfst
    have hunique : ∀ key', Active ring.db key' → key'.key = secret → key' = key :=
      fun key' hkey' he => AuthDb.secret_inj hkey'.1 hkey.1 (he.trans hsecret.symm)
    constructor
    · intro hok
      by_cases hexp : expired key.expiresAt now = true
      · simp [activeEntry, hexp] at hok
      · rw [Bool.not_eq_true] at hexp
        refine ⟨key, hkey, hsecret, hexp, ?_⟩
        simpa [activeEntry, hexp, keyIdentity] using hok
    · rintro ⟨key', hkey', he, hexp, rfl⟩
      obtain rfl := hunique key' hkey' he
      simp [activeEntry, hexp, keyIdentity]

end Runs

/-- The map agrees with the store, so that a secret whose digest is not that of another stored one
authenticates exactly if it belongs to an enabled, unexpired key of an enabled owner. -/
structure Keyring.Exact [DecidableEq δ] (digestSecret : String → δ) (ring : Keyring δ) : Prop where
  coherent : ring.Coherent digestSecret
  authenticates : ∀ secret, (∀ key ∈ ring.db.apiKeys.rows,
      digestSecret key.key = digestSecret secret → key.key = secret) → ∀ now identity,
    authenticate digestSecret ring.active secret now = .ok identity ↔
      ∃ key, Active ring.db key ∧ key.key = secret ∧ expired key.expiresAt now = false ∧
        keyIdentity key = identity

/-- Every call of the run is orderly in the store it finds. -/
def Keyring.OrderlyRun [DecidableEq δ] (digestSecret : String → δ) :
    (ring : Keyring δ) → (calls : List Call) → Prop
  | _, [] => True
  | ring, call :: calls => Orderly ring.db call ∧
      Keyring.OrderlyRun digestSecret (ring.perform digestSecret call) calls

theorem mem_scanl_self {α β : Type} (f : β → α → β) (b : β) (l : List α) : b ∈ l.scanl f b := by
  cases l <;> simp

theorem coherent_scanl_iff [DecidableEq δ] {calls : List Call} (h : ring.Coherent digestSecret)
    (hdigest : ∀ ring' ∈ calls.scanl (Keyring.perform digestSecret) ring,
      CollisionFree digestSecret ring'.db) :
    (∀ ring' ∈ calls.scanl (Keyring.perform digestSecret) ring, ring'.Coherent digestSecret) ↔
      ring.OrderlyRun digestSecret calls := by
  induction calls generalizing ring with
  | nil => exact iff_of_true (by simpa using h) trivial
  | cons call calls ih =>
    rw [scanl_cons, forall_mem_cons] at hdigest ⊢
    have hfirst := mem_scanl_self (Keyring.perform digestSecret)
      (ring.perform digestSecret call) calls
    have hperform := coherent_perform_iff h hdigest.1 (hdigest.2 _ hfirst)
    rw [Keyring.OrderlyRun, and_iff_right h]
    constructor
    · intro hall
      exact ⟨hperform.mp (hall _ hfirst), (ih (hall _ hfirst) hdigest.2).mp hall⟩
    · rintro ⟨horderly, hrest⟩
      exact (ih (hperform.mpr horderly) hdigest.2).mpr hrest

/-- Along every sequence of calls on a loaded authenticator, whatever their repository calls do and
wherever they are dropped, and as long as no two stored secrets collide, the map is exact between
any two calls if and only if every call is orderly. -/
theorem active_keys_exact_iff [DecidableEq δ] (digestSecret : String → δ) (db : AuthDb)
    (calls : List Call)
    (hdigest : ∀ ring ∈ calls.scanl (Keyring.perform digestSecret) (load digestSecret db),
      CollisionFree digestSecret ring.db) :
    (∀ ring ∈ calls.scanl (Keyring.perform digestSecret) (load digestSecret db),
        ring.Exact digestSecret) ↔
      (load digestSecret db).OrderlyRun digestSecret calls := by
  have hdb : CollisionFree digestSecret db := hdigest _ (mem_scanl_self _ _ _)
  rw [← coherent_scanl_iff (coherent_load hdb) hdigest]
  refine forall_congr' fun ring => imp_congr_right fun _ =>
    ⟨Keyring.Exact.coherent, fun h => ⟨h, fun _ hsecret _ _ => ?_⟩⟩
  exact authenticate_eq_ok_iff h hsecret

/-! ## Two users and a key -/

def adminUser : UserRow := ⟨"admin", "admin", "admin-hash", .superAdmin, true, 0⟩

/-- The key of the other user. -/
def aliceKey : ApiKeyRow :=
  { id := "k1", ownerUserId := "alice", groupLabels := ["default"], label := "laptop"
    key := "secret", enabled := true, expiresAt := none, quotaLimitAtoms := none
    spentAtoms := "0" }

def aliceDb : AuthDb where
  users := ⟨[adminUser, ⟨"alice", "alice", "alice-hash", .user, true, 0⟩], by decide⟩
  initialUserId := some "admin"
  invitations := Table.empty
  sessions := Table.empty
  apiKeys := ⟨[aliceKey], by decide⟩
  accountOwners := []
  usernamesNodup := by decide
  tokensNodup := nodup_nil
  secretsNodup := by decide
  setupOwned := by decide
  sessionsOwned := by decide
  keysOwned := by decide

/-- A disabling whose repository calls all answer, with a digest that only tells the stored secret
from the others. -/
theorem active_keys_exact_disabled :
    let digest := fun secret => decide (secret = "secret")
    let calls := [Call.setUserEnabled adminUser "alice" false 0 .answered .answered]
    (load digest aliceDb).OrderlyRun digest calls ∧
      ∀ ring ∈ calls.scanl (Keyring.perform digest) (load digest aliceDb), ring.Exact digest := by
  intro digest calls
  have hdigest : ∀ ring ∈ calls.scanl (Keyring.perform digest) (load digest aliceDb),
      CollisionFree digest ring.db := by
    unfold CollisionFree
    decide
  have horderly : (load digest aliceDb).OrderlyRun digest calls := ⟨fun _ _ _ => nofun, trivial⟩
  exact ⟨horderly, (active_keys_exact_iff digest aliceDb calls hdigest).mpr horderly⟩

def enablePatch : ApiKeyPatch := ⟨none, none, some true, none, none, 0⟩

/-- After a sequence of calls on the sample store: is the owner enabled, is the key stored and
enabled, and does its secret authenticate? -/
def aliceStatus (calls : List Call) : Bool × Bool × Bool :=
  let ring := calls.foldl (Keyring.perform id) (load id aliceDb)
  (ring.db.userEnabled "alice",
    (loadApiKey ring.db "alice" "k1").any ApiKeyRow.enabled,
    (authenticate id ring.active "secret" 0).isOk)

/-- A disabling that commits and then fails to read the user back leaves the revoked key working;
so does an update that the disabled owner had under way.  A deletion or disabling whose caller is
dropped before the commit stops a key that nobody revoked. -/
theorem revoked_key_authenticates :
    aliceStatus [.setUserEnabled adminUser "alice" false 0 .answered .failed] =
        (false, false, true) ∧
      aliceStatus [.setUserEnabled adminUser "alice" false 0 .answered .answered,
          .update "alice" "k1" enablePatch .answered [.answer ["account"]] .answered] =
        (false, true, true) ∧
      aliceStatus [.delete "alice" "k1" .droppedBefore] = (true, true, false) ∧
      aliceStatus [.setUserEnabled adminUser "alice" false 0 .droppedBefore .answered] =
        (true, true, false) := by
  decide

end ProviderCore.Auth
