import Mathlib.Tactic.MkIffOfInductiveProp
import ProviderCore.Accounts.Interleaving

/-!
# Credentials move forward

What a discovery writes back is the copy that it made before it asked the upstream.  Antigravity
writes it over whatever revision it finds afterwards, Grok over the revision of the copy, or into
whatever write is pending at that revision, so a copy from before an exchange can replace the
tokens of that exchange.  As long as no copy of Antigravity is out when an exchange is answered,
and an older copy of Grok meets a revision that has moved on, nothing is ever overwritten with
older tokens.
-/

namespace ProviderCore.Accounts

/-! ## Forward steps -/

/-- A step overwrites no credential with tokens from before the latest exchange. -/
@[mk_iff]
structure Forward (s s' : Interleaved) : Prop where
  object : s'.object.credentials ≠ s.object.credentials →
    s.produced ≤ s'.object.credentials.tokens
  pending : s'.object.pendingUpdate ≠ s.object.pendingUpdate →
    ∀ update ∈ s'.object.pendingUpdate, s.produced ≤ update.credentials.tokens
  stored : s'.row.map (·.credential.credentials) ≠ s.row.map (·.credential.credentials) →
    ∀ account ∈ s'.row, s.produced ≤ account.credential.credentials.tokens

/-- The tokens that a request copied, or is about to write, and the revision they are for. -/
def DiscoveryPhase.copy : DiscoveryPhase → Option (ℕ × ℕ)
  | .waiting => none
  | .asking current => some (current.credentials.tokens, current.revision)
  | .writing _ update | .wrote _ update _ =>
    some (update.credentials.tokens, update.expectedRevision)

/-- The store has taken the copy, and the request is still to be told. -/
def DiscoveryPhase.accepted : DiscoveryPhase → Bool
  | .wrote _ _ (some (.updated _)) => true
  | _ => false

/-- No exchange is answered with tokens while a write is pending, a request of Antigravity holds a
copy of the credential or one of Grok has had its copy stored; a request of Antigravity copies the
credential only when it is that of the latest exchange; and an older copy finds no write pending at
its revision when it is answered, and a row that has moved on when it is written. -/
def Apart (provider : ProviderKind) (s : Interleaved) : Event → Prop
  | .exchangeAnswer (.granted _) => s.object.pendingUpdate = none ∧
      ∀ phase ∈ s.discoveries, phase.entered = false ∨
        provider ≠ .antigravity ∧ phase.accepted = false
  | .enterGate _ => s.object.credentials.tokens = s.produced
  | .subjectAnswer index (some _) =>
    ∀ phase ∈ s.discoveries[index]?, ∀ copy ∈ phase.copy, copy.1 = s.produced ∨
      s.object.pendingUpdate = none ∨ s.object.revision ≠ copy.2
  | .discoverySwap index true =>
    ∀ phase ∈ s.discoveries[index]?, ∀ copy ∈ phase.copy, copy.1 = s.produced ∨
      ∀ account ∈ s.row, account.credential.revision ≠ copy.2
  | _ => True

instance (s s' : Interleaved) : Decidable (Forward s s') :=
  decidable_of_iff _ (forward_iff s s').symm

instance (provider : ProviderKind) (s : Interleaved) (event : Event) :
    Decidable (Apart provider s event) := by
  unfold Apart
  split <;> infer_instance

/-- Whatever is on its way to the object or to the store is from the latest exchange, but for copies
of Grok that the store has not taken. -/
structure Interleaved.Fresh (provider : ProviderKind) (s : Interleaved) : Prop where
  refresh : ∀ phase ∈ s.refresh, ∀ credentials ∈ phase.carries, credentials.tokens = s.produced
  discovery : ∀ phase ∈ s.discoveries, ∀ copy ∈ phase.copy, copy.1 = s.produced ∨
    provider ≠ .antigravity ∧ phase.accepted = false
  pending : ∀ update ∈ s.object.pendingUpdate, update.credentials.tokens = s.produced

variable {s s' : Interleaved}

/-- Nothing is overwritten by a step that keeps the object and the row. -/
theorem Forward.of_eq (object : s'.object = s.object) (row : s'.row = s.row) : Forward s s' where
  object h := absurd (congrArg _ object) h
  pending h := absurd (congrArg _ object) h
  stored h := absurd (congrArg _ row) h

/-- A step that only writes the row writes what a phase carries. -/
theorem Forward.of_row (object : s'.object = s.object)
    (stored : s'.row.map (·.credential.credentials) ≠ s.row.map (·.credential.credentials) →
    ∀ account ∈ s'.row, s.produced ≤ account.credential.credentials.tokens) : Forward s s' where
  object h := absurd (congrArg _ object) h
  pending h := absurd (congrArg _ object) h
  stored := stored

theorem Forward.of_object (row : s'.row = s.row)
    (object : s'.object.credentials ≠ s.object.credentials →
    s'.object.credentials.tokens = s.produced)
    (pending : ∀ update ∈ s'.object.pendingUpdate, update.credentials.tokens = s.produced) :
    Forward s s' where
  object h := Nat.le_of_eq (object h).symm
  pending _ update hupdate := Nat.le_of_eq (pending update hupdate).symm
  stored h := absurd (congrArg _ row) h

theorem forward_swap {update : CredentialUpdate ℕ} {stored : Bool}
    (fresh : update.credentials.tokens = s.produced) (object : s'.object = s.object)
    (row : s'.row = (swap update stored s.row).2) : Forward s s' := by
  refine Forward.of_row object fun changed account haccount => ?_
  rw [row] at changed haccount
  rcases swap_credentials update stored s.row with same | written
  · exact absurd (congrArg _ same) changed
  · rw [written account haccount]
    exact Nat.le_of_eq fresh.symm

/-- A merged user id brings the copied tokens into the object and into the pending write. -/
theorem AccountState.mergeUserId_takes {state current merged : AccountState ℕ}
    {credentials : Credentials ℕ} (h : mergeUserId current credentials state = some merged) :
    merged.credentials = credentials ∧
      (∀ u ∈ merged.pendingUpdate, u.credentials = credentials) ∧
      state.pendingUpdate ≠ none ∧ state.revision = current.revision := by
  unfold mergeUserId at h
  split at h
  case h_2 => cases h
  case h_1 pending hp =>
    split at h
    · next same =>
        obtain rfl := Option.some.inj h
        exact ⟨rfl, by rintro _ ⟨⟩; rfl, by simp [hp], same⟩
    · cases h

/-! ### Steps of the refresh -/

section Steps

variable {refreshAt : RefreshAt ℕ} {provider : ProviderKind} {s s' : Interleaved}

variable {phase : DiscoveryPhase}

theorem DiscoveryPhase.not_accepted {current : AccountState ℕ} {update : CredentialUpdate ℕ}
    {outcome : Option CredentialWriteOutcome}
    (h : ∀ revision, outcome ≠ some (.updated revision)) :
    (wrote current update outcome).accepted = false := by
  rcases outcome with - | revision | -
  · rfl
  · exact absurd rfl (h revision)
  · rfl

theorem DiscoveryPhase.copy_eq_none_iff : phase.copy = none ↔ phase.entered = false := by
  cases phase <;> simp [copy, entered]

theorem Interleaved.Fresh.refreshStart (hs : s.Fresh provider) (h : s.refreshStart = some s') :
    s'.Fresh provider ∧ Forward s s' := by
  unfold Interleaved.refreshStart at h
  split at h
  case h_2 => cases h
  case h_1 idle =>
    obtain rfl := Option.some.inj h
    refine ⟨⟨?_, hs.discovery, hs.pending⟩, .of_eq rfl rfl⟩
    intro phase hphase credentials carried
    obtain ⟨pending, waiting, rfl⟩ :=
      RefreshPhase.carries_start (eq_ok_of_toOption hphase) carried
    exact hs.pending pending waiting

theorem Interleaved.Fresh.exchangeAnswer {answer : Answer} (hs : s.Fresh provider)
    (apart : Apart provider s (.exchangeAnswer answer))
    (h : s.exchangeAnswer provider answer = some s') : s'.Fresh provider ∧ Forward s s' := by
  simp only [Interleaved.exchangeAnswer, Option.bind_eq_bind, Option.bind_eq_some_iff,
    Option.pure_def, Option.some.injEq] at h
  obtain ⟨phase, -, next, answered, rfl⟩ := h
  have brought : ∀ phase' ∈ next.toOption, ∀ credentials ∈ phase'.carries,
      credentials.tokens = answer.produced s.produced := by
    intro phase' hphase credentials carried
    rw [eq_ok_of_toOption hphase] at answered
    obtain ⟨_, granted⟩ := RefreshPhase.carries_answer answered carried
    cases answer with
    | granted =>
      injection granted with same
      exact same.symm
    | unusable | refused => cases granted
  cases answer with
  | granted =>
    obtain ⟨pending, outside⟩ := apart
    refine ⟨⟨brought, ?_, ?_⟩, .of_eq rfl rfl⟩
    · intro phase hphase copy copied
      refine .inr ((outside phase hphase).resolve_left fun entered => ?_)
      cases (DiscoveryPhase.copy_eq_none_iff.mpr entered).symm.trans copied
    · intro update waiting
      cases pending.symm.trans waiting
  | unusable | refused => exact ⟨⟨brought, hs.discovery, hs.pending⟩, .of_eq rfl rfl⟩

variable {stored : Bool}

theorem Interleaved.Fresh.refreshSwap (hs : s.Fresh provider)
    (h : s.refreshSwap stored = some s') : s'.Fresh provider ∧ Forward s s' := by
  simp only [Interleaved.refreshSwap, Option.bind_eq_bind, Option.bind_eq_some_iff,
    Option.pure_def, Option.some.injEq] at h
  obtain ⟨phase, here, ⟨_, _⟩, reached, rfl⟩ := h
  obtain ⟨kept, written⟩ := RefreshPhase.carries_store reached
  refine ⟨⟨?_, hs.discovery, hs.pending⟩, .of_row rfl fun changed account haccount => ?_⟩
  · rintro _ ⟨⟩ credentials carried
    exact hs.refresh phase here credentials (kept credentials carried)
  · exact Nat.le_of_eq
      (hs.refresh phase here _ (written.resolve_left changed account haccount)).symm

theorem Interleaved.Fresh.refreshFinish {retryAt : Option ℤ} (hs : s.Fresh provider)
    (h : s.refreshFinish refreshAt provider retryAt = some s') :
    s'.Fresh provider ∧ Forward s s' := by
  simp only [Interleaved.refreshFinish, Option.bind_eq_bind, Option.bind_eq_some_iff,
    Option.pure_def, Option.some.injEq] at h
  obtain ⟨phase, here, ⟨object, _⟩, finished, rfl⟩ := h
  obtain ⟨credentials, pending⟩ := RefreshPhase.carries_finish finished
  have hp : ∀ update ∈ object.pendingUpdate, update.credentials.tokens = s.produced :=
    fun update hu => (pending update hu).elim (hs.pending update) (hs.refresh phase here _)
  exact ⟨⟨by rintro _ ⟨⟩, hs.discovery, hp⟩, .of_object rfl
    (fun changed => hs.refresh phase here _ (credentials.resolve_left changed)) hp⟩

/-! ### Steps of a discovery -/

/-- The other requests hold what they held. -/
theorem Interleaved.Fresh.set (hs : s.Fresh provider) (index : ℕ)
    (fresh : ∀ copy ∈ phase.copy, copy.1 = s.produced ∨
      provider ≠ .antigravity ∧ phase.accepted = false) :
    ∀ p ∈ s.discoveries.set index phase, ∀ copy ∈ p.copy, copy.1 = s.produced ∨
      provider ≠ .antigravity ∧ p.accepted = false := by
  intro p hp
  rcases List.mem_or_eq_of_mem_set hp with kept | rfl
  · exact hs.discovery p kept
  · exact fresh

theorem Interleaved.Fresh.erase (hs : s.Fresh provider) (index : ℕ) :
    ∀ p ∈ s.discoveries.eraseIdx index, ∀ copy ∈ p.copy, copy.1 = s.produced ∨
      provider ≠ .antigravity ∧ p.accepted = false :=
  fun p hp => hs.discovery p (List.mem_of_mem_eraseIdx hp)

variable {index : ℕ} {credentials : Credentials ℕ}

section

variable (hs : s.Fresh provider)

include hs

theorem Interleaved.Fresh.discoveryStart (h : s.discoveryStart provider = some s') :
    s'.Fresh provider ∧ Forward s s' := by
  unfold Interleaved.discoveryStart at h
  split at h
  case isFalse => cases h
  case isTrue =>
    obtain rfl := Option.some.inj h
    refine ⟨⟨hs.refresh, ?_, hs.pending⟩, .of_eq rfl rfl⟩
    refine List.forall_mem_append.mpr ⟨hs.discovery, List.forall_mem_singleton.mpr ?_⟩
    intro copy copied
    by_cases hp : provider = .antigravity
    · simp [hp, DiscoveryPhase.copy] at copied
    · simp [hp, DiscoveryPhase.accepted]

theorem Interleaved.Fresh.enterGate
    (apart : Apart provider s (.enterGate index)) (h : s.enterGate index = some s') :
    s'.Fresh provider ∧ Forward s s' := by
  unfold Interleaved.enterGate at h
  split at h
  case h_2 => cases h
  case h_1 =>
    split at h
    · cases h
    · split at h
      · obtain rfl := Option.some.inj h
        refine ⟨⟨hs.refresh, hs.set index ?_, hs.pending⟩, .of_eq rfl rfl⟩
        rintro _ ⟨⟩
        exact .inl apart
      · obtain rfl := Option.some.inj h
        exact ⟨⟨hs.refresh, hs.erase index, hs.pending⟩, .of_eq rfl rfl⟩

theorem Interleaved.Fresh.subjectAnswer {subject : Option String}
    (apart : Apart provider s (.subjectAnswer index subject))
    (h : s.subjectAnswer provider index subject = some s') :
    s'.Fresh provider ∧ Forward s s' := by
  unfold Interleaved.subjectAnswer at h
  split at h
  case h_1 =>
    obtain rfl := Option.some.inj h
    exact ⟨⟨hs.refresh, hs.erase index, hs.pending⟩, .of_eq rfl rfl⟩
  case h_2 current subject here =>
    have held := hs.discovery _ (List.mem_of_getElem? here) _ rfl
    simp only at h
    split at h
    · obtain rfl := Option.some.inj h
      refine ⟨⟨hs.refresh, hs.set index ?_, hs.pending⟩, .of_eq rfl rfl⟩
      rintro _ ⟨⟩
      exact held
    · split at h
      case h_1 object merge =>
        obtain rfl := Option.some.inj h
        obtain ⟨credentials, pending, waits, same⟩ := AccountState.mergeUserId_takes merge
        -- an older copy finds nothing to merge into
        have fresh : current.credentials.tokens = s.produced :=
          (apart _ here _ rfl).resolve_right fun moved =>
            moved.elim waits fun other => other same
        have hp : ∀ u ∈ object.pendingUpdate, u.credentials.tokens = s.produced :=
          fun u hu => by rw [pending u hu]; exact fresh
        exact ⟨⟨hs.refresh, hs.erase index, hp⟩,
          .of_object rfl (fun _ => by rw [credentials]; exact fresh) hp⟩
      case h_2 =>
        obtain rfl := Option.some.inj h
        refine ⟨⟨hs.refresh, hs.set index ?_, hs.pending⟩, .of_eq rfl rfl⟩
        rintro _ ⟨⟩
        exact held
  case h_3 => cases h

theorem Interleaved.Fresh.discoverySwap (apart : Apart provider s (.discoverySwap index stored))
    (h : s.discoverySwap index stored = some s') : s'.Fresh provider ∧ Forward s s' := by
  unfold Interleaved.discoverySwap at h
  split at h
  case h_2 => cases h
  case h_1 current update here =>
    obtain rfl := Option.some.inj h
    by_cases fresh : update.credentials.tokens = s.produced
    · refine ⟨⟨hs.refresh, hs.set index ?_, hs.pending⟩, forward_swap fresh rfl rfl⟩
      rintro _ ⟨⟩
      exact .inl fresh
    · have held := hs.discovery _ (List.mem_of_getElem? here) _ rfl
      obtain ⟨same, refused⟩ := @swap_of_moved _ update stored s.row (by
        rintro rfl
        exact (apart _ here _ rfl).resolve_left fresh)
      refine ⟨⟨hs.refresh, hs.set index ?_, hs.pending⟩, .of_eq rfl same⟩
      exact fun _ _ => .inr ⟨(held.resolve_left fresh).1, DiscoveryPhase.not_accepted refused⟩

theorem Interleaved.Fresh.discoveryFinish
    (h : s.discoveryFinish provider index = some s') : s'.Fresh provider ∧ Forward s s' := by
  unfold Interleaved.discoveryFinish at h
  split at h
  case h_2 => cases h
  case h_1 current update outcome here =>
    have held := hs.discovery _ (List.mem_of_getElem? here) _ rfl
    rcases held with fresh | ⟨grok, refused⟩
    · -- either driver takes over the credential of its write, or keeps what it has
      have takes : (s'.object.credentials = update.credentials ∨
            s'.object.credentials = s.object.credentials) ∧
          ∀ u ∈ s'.object.pendingUpdate, u = update ∨ u ∈ s.object.pendingUpdate := by
        obtain rfl := Option.some.inj h
        by_cases hp : provider = .antigravity
        · simp only [hp, if_true]
          rcases outcome with - | - | - <;> simp +contextual [AccountState.finishProject]
        · simp only [hp, if_false]
          rcases outcome with - | - | - <;> simp [AccountState.finishUserId]
          · simp +contextual
          · split <;> simp +contextual
          · simp +contextual
      have hp : ∀ u ∈ s'.object.pendingUpdate, u.credentials.tokens = s.produced := by
        intro u hu
        rcases takes.2 u hu with rfl | kept
        · exact fresh
        · exact hs.pending u kept
      obtain rfl := Option.some.inj h
      refine ⟨⟨hs.refresh, hs.erase index, hp⟩, .of_object rfl (fun changed => ?_) hp⟩
      rw [takes.1.resolve_right changed]
      exact fresh
    · have same : AccountState.finishUserId current update s.object outcome = s.object := by
        cases outcome with
        | none => rfl
        | some outcome =>
          cases outcome with
          | updated => cases refused
          | conflict => rfl
      rw [if_neg grok, same] at h
      obtain rfl := Option.some.inj h
      exact ⟨⟨hs.refresh, hs.erase index, hs.pending⟩, .of_eq rfl rfl⟩

theorem Interleaved.Fresh.otherWriter {expiresAt : Option ℤ}
    (h : s.otherWriter credentials expiresAt = some s') : s'.Fresh provider ∧ Forward s s' := by
  obtain rfl := Option.some.inj h
  refine ⟨⟨hs.refresh, hs.discovery, hs.pending⟩, .of_row rfl fun _ account haccount => ?_⟩
  obtain ⟨_, -, rfl⟩ := Option.map_eq_some_iff.mp haccount
  exact Nat.le_refl _

/-- What one step does, whatever it is. -/
theorem Interleaved.Fresh.step {event : Event} (apart : Apart provider s event)
    (h : s.step refreshAt provider event = some s') : s'.Fresh provider ∧ Forward s s' := by
  cases event with
  | refreshStart => exact hs.refreshStart h
  | exchangeAnswer => exact hs.exchangeAnswer apart h
  | refreshSwap => exact hs.refreshSwap h
  | refreshFinish => exact hs.refreshFinish h
  | refreshDrop =>
    obtain rfl := Option.some.inj h
    exact ⟨⟨by rintro _ ⟨⟩, hs.discovery, hs.pending⟩, .of_eq rfl rfl⟩
  | discoveryStart => exact hs.discoveryStart h
  | enterGate => exact hs.enterGate apart h
  | subjectAnswer => exact hs.subjectAnswer apart h
  | discoverySwap => exact hs.discoverySwap apart h
  | discoveryFinish => exact hs.discoveryFinish h
  | discoveryDrop index =>
    obtain rfl := Option.some.inj h
    exact ⟨⟨hs.refresh, hs.erase index, hs.pending⟩, .of_eq rfl rfl⟩
  | otherWriter => exact hs.otherWriter h

end

end Steps

/-! ## Runs -/

section Runs

variable (refreshAt : RefreshAt ℕ) (provider : ProviderKind)

/-- The state after a list of events, if each of them can happen. -/
def Interleaved.run (s : Interleaved) : List Event → Option Interleaved
  | [] => some s
  | event :: events => (s.step refreshAt provider event).bind fun s' => s'.run events

def ApartRun (s : Interleaved) : List Event → Prop
  | [] => True
  | event :: events => Apart provider s event ∧
      ∀ s' ∈ s.step refreshAt provider event, ApartRun s' events

def ForwardRun (s : Interleaved) : List Event → Prop
  | [] => True
  | event :: events =>
    ∀ s' ∈ s.step refreshAt provider event, Forward s s' ∧ ForwardRun s' events

instance instDecidableApartRun (s : Interleaved) :
    ∀ events, Decidable (ApartRun refreshAt provider s events)
  | [] => .isTrue trivial
  | _ :: events =>
    have (s' : Interleaved) := instDecidableApartRun s' events
    inferInstanceAs (Decidable (_ ∧ _))

instance instDecidableForwardRun (s : Interleaved) :
    ∀ events, Decidable (ForwardRun refreshAt provider s events)
  | [] => .isTrue trivial
  | event :: events =>
    have (s' : Interleaved) := instDecidableForwardRun s' events
    inferInstanceAs (Decidable (∀ s' ∈ s.step refreshAt provider event, _ ∧ _))

theorem Interleaved.Fresh.forwardRun (hs : s.Fresh provider) (events : List Event)
    (apart : ApartRun refreshAt provider s events) : ForwardRun refreshAt provider s events := by
  induction events generalizing s with
  | nil => trivial
  | cons _ _ ih =>
    intro s' hstep
    obtain ⟨fresh, forward⟩ := hs.step apart.1 hstep
    exact ⟨forward, ih fresh (apart.2 s' hstep)⟩

end Runs

/-- Credentials move forward in every run whose exchanges are apart from the copies that requests
hold, whatever the store does with the writes. -/
theorem credentials_move_forward (refreshAt : RefreshAt ℕ) (provider : ProviderKind)
    (account : StoredAccount ℕ) (events : List Event)
    (apart : ApartRun refreshAt provider (Interleaved.start refreshAt account) events) :
    ForwardRun refreshAt provider (Interleaved.start refreshAt account) events := by
  have hfresh : (Interleaved.start refreshAt account).Fresh provider :=
    ⟨by rintro _ ⟨⟩, by rintro _ ⟨⟩, by rintro _ ⟨⟩⟩
  exact hfresh.forwardRun refreshAt provider events apart

/-- A discovery whose write fails leaves it pending; a refresh writes it, the next one exchanges
and fails to store what it got. -/
def takingTurns : List Event :=
  [.discoveryStart, .enterGate 0, .subjectAnswer 0 (some "project"), .discoverySwap 0 false,
    .discoveryFinish 0, .refreshStart, .refreshSwap true, .refreshFinish none,
    .refreshStart, .exchangeAnswer (.granted (some 200)), .refreshSwap false,
    .refreshFinish none]

/-- A request of Grok holds a copy while a refresh exchanges and stores what it got; the write of
the copy is refused. -/
def storedMeanwhile : List Event :=
  [.discoveryStart, .refreshStart, .exchangeAnswer (.granted (some 200)), .refreshSwap true,
    .subjectAnswer 0 (some "user"), .discoverySwap 0 true, .discoveryFinish 0,
    .refreshFinish none]

theorem credentials_move_forward_takingTurns :
    (((Interleaved.start dueAtExpiry (sampleAccount .antigravity true none)).run dueAtExpiry
          .antigravity takingTurns).map (·.object.credentials.tokens) = some 1 ∧
      ForwardRun dueAtExpiry .antigravity
        (Interleaved.start dueAtExpiry (sampleAccount .antigravity true none)) takingTurns) ∧
    ((Interleaved.start dueAtExpiry (sampleAccount .grok true none)).run dueAtExpiry
          .grok storedMeanwhile).map (·.object.credentials.tokens) = some 1 ∧
      ForwardRun dueAtExpiry .grok
        (Interleaved.start dueAtExpiry (sampleAccount .grok true none)) storedMeanwhile :=
  ⟨⟨by decide, credentials_move_forward _ _ _ _ (by decide)⟩, by decide,
    credentials_move_forward _ _ _ _ (by decide)⟩

/-- A request copies the credential of Antigravity, a refresh replaces and stores the tokens, and
then the request writes its copy over the revision that it finds. -/
def projectAfterRefresh : List Event :=
  [.discoveryStart, .enterGate 0, .refreshStart, .exchangeAnswer (.granted (some 200)),
    .refreshSwap true, .refreshFinish none, .subjectAnswer 0 (some "project"),
    .discoverySwap 0 true, .discoveryFinish 0]

/-- A request copies the credential of Grok, the write of a refresh fails, and then the request
merges its copy into the pending write. -/
def userIdAfterRefresh : List Event :=
  [.discoveryStart, .refreshStart, .exchangeAnswer (.granted (some 200)), .refreshSwap false,
    .refreshFinish none, .subjectAnswer 0 (some "user")]

/-- The latest exchange, and the tokens in the object, in its pending write and in the row. -/
def Interleaved.allTokens (s : Interleaved) : ℕ × ℕ × Option ℕ × Option ℕ :=
  (s.produced, s.object.credentials.tokens,
    s.object.pendingUpdate.map (·.credentials.tokens),
    s.row.map (·.credential.credentials.tokens))

theorem discovery_restores_old_tokens :
    (((Interleaved.start dueAtExpiry (sampleAccount .antigravity true none)).run dueAtExpiry
          .antigravity projectAfterRefresh).map Interleaved.allTokens =
        some (1, 0, none, some 0) ∧
      ¬ForwardRun dueAtExpiry .antigravity
        (Interleaved.start dueAtExpiry (sampleAccount .antigravity true none))
        projectAfterRefresh) ∧
    (((Interleaved.start dueAtExpiry (sampleAccount .grok true none)).run dueAtExpiry
          .grok userIdAfterRefresh).map Interleaved.allTokens =
        some (1, 0, some 0, some 0) ∧
      ¬ForwardRun dueAtExpiry .grok
        (Interleaved.start dueAtExpiry (sampleAccount .grok true none)) userIdAfterRefresh) := by
  decide

end ProviderCore.Accounts
