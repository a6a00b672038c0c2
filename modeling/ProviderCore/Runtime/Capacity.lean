import ProviderCore.Lib.Slots
import ProviderCore.Lib.Table

/-!
# The concurrency limit of an account

Requests for the accounts of one runtime.  Each account has a pair of semaphores: a request takes a
permit of the first to be admitted, waits for one of the second, and keeps both while it calls the
upstream and while its stream is open.  A replaced account keeps its semaphores; one that was
removed and comes back gets new ones, while requests and streams from before keep the old.

Semaphore pairs are numbered in the order in which they were made.  Which waiting request gets a
free permit is left open.
-/

namespace ProviderCore.Runtime

open List

structure RuntimeConfig where
  inferenceConcurrency : ℕ
  inferenceQueueCapacity : ℕ
deriving DecidableEq

/-- The permits that are left of a pair of semaphores. -/
structure InferenceCapacity where
  active : ℕ
  admission : ℕ
deriving DecidableEq

def InferenceCapacity.new (config : RuntimeConfig) : InferenceCapacity where
  active := config.inferenceConcurrency
  admission := config.inferenceConcurrency + config.inferenceQueueCapacity

structure AccountEntry where
  accountId : String
  available : Bool
  capacity : ℕ
deriving DecidableEq

/-! ## One request -/

inductive InferenceStage
  /-- It has looked its account up. -/
  | found
  /-- It is admitted and waits for its turn. -/
  | waiting
  /-- It calls the upstream, for the first or the second time. -/
  | calling (retried : Bool)
  /-- Its first call was refused, and the credential is refreshed. -/
  | refreshing
  | streaming
  | ended
deriving DecidableEq

/-- How a call to the upstream ends. -/
inductive CallAnswer
  | opened
  | unauthorized
  /-- It failed in a way that another form of the request may avoid. -/
  | retryable
  | failed
deriving DecidableEq

inductive InferenceEvent
  /-- It asks to be admitted; `late` if its deadline has passed. -/
  | enter (late : Bool)
  | activate
  | timeout
  | answer (answer : CallAnswer)
  | refreshed (ok : Bool)
  /-- Its stream yields an item or ends. -/
  | read (last : Bool)
  /-- The caller drops the request or the stream. -/
  | drop
deriving DecidableEq

namespace InferenceStage

def holdsAdmission : InferenceStage → Bool
  | .waiting | .calling _ | .refreshing | .streaming => true
  | .found | .ended => false

def holdsActive : InferenceStage → Bool
  | .calling _ | .refreshing | .streaming => true
  | .found | .waiting | .ended => false

def inFlight : InferenceStage → Bool
  | .calling _ | .streaming => true
  | .found | .waiting | .refreshing | .ended => false

/-- Where an event takes a request, if it can happen. -/
def next (capacity : InferenceCapacity) : InferenceStage → InferenceEvent → Option InferenceStage
  | .found, .enter late =>
    some (if capacity.admission = 0 then .ended else if late then .ended else .waiting)
  | .waiting, .activate => if capacity.active = 0 then none else some (.calling false)
  | .waiting, .timeout => some .ended
  | .calling _, .answer .opened => some .streaming
  | .calling false, .answer .unauthorized => some .refreshing
  | .calling false, .answer .retryable => some (.calling true)
  | .calling _, .answer _ => some .ended
  | .refreshing, .refreshed ok => some (if ok then .calling true else .ended)
  | .streaming, .read last => some (if last then .ended else .streaming)
  | .ended, .drop => none
  | _, .drop => some .ended
  | _, _ => none

variable {capacity : InferenceCapacity} {stage stage' : InferenceStage} {event : InferenceEvent}

/-- A request that goes on has not ended. -/
theorem ne_ended_of_next (h : stage.next capacity event = some stage') : stage ≠ .ended := by
  rintro rfl
  cases event <;> simp [next] at h

end InferenceStage

/-! ## The runtime -/

structure InferenceRequest where
  accountId : String
  capacity : ℕ
  stage : InferenceStage
deriving DecidableEq

structure InferenceRuntime where
  accounts : Table AccountEntry.accountId
  /-- The semaphore pairs, oldest first. -/
  capacities : List InferenceCapacity
  requests : List InferenceRequest
deriving DecidableEq

inductive RuntimeEvent
  | register (accountId : String) (available : Bool)
  /-- Also the way an account is enabled. -/
  | replace (accountId : String) (available : Bool)
  /-- Also the way an account is disabled. -/
  | remove (accountId : String)
  /-- The account object changes its state on its own. -/
  | setAvailable (accountId : String) (available : Bool)
  | request (accountId : String)
  | progress (index : ℕ) (event : InferenceEvent)
deriving DecidableEq

/-- Give back the permits that a stage does not hold any more, and take those that it needs. -/
def InferenceCapacity.move (old new : InferenceStage) (capacity : InferenceCapacity) :
    InferenceCapacity where
  active := capacity.active + old.holdsActive.toNat - new.holdsActive.toNat
  admission := capacity.admission + old.holdsAdmission.toNat - new.holdsAdmission.toNat

namespace InferenceRuntime

def new : InferenceRuntime := ⟨Table.empty, [], []⟩

variable (config : RuntimeConfig)

section

variable (s : InferenceRuntime)

def install (accountId : String) (available : Bool) : InferenceRuntime :=
  { s with
    accounts := s.accounts.upsert ⟨accountId, available, s.capacities.length⟩
    capacities := s.capacities ++ [InferenceCapacity.new config] }

def register (accountId : String) (available : Bool) : InferenceRuntime :=
  if (s.accounts.find? accountId).isSome then s else s.install config accountId available

def replace (accountId : String) (available : Bool) : InferenceRuntime :=
  match s.accounts.find? accountId with
  | some entry => { s with accounts := s.accounts.upsert ⟨accountId, available, entry.capacity⟩ }
  | none => s.install config accountId available

def remove (accountId : String) : InferenceRuntime :=
  { s with accounts := s.accounts.filter (·.accountId ≠ accountId) }

def setAvailable (accountId : String) (available : Bool) : InferenceRuntime :=
  { s with accounts :=
      s.accounts.modify accountId (fun entry => { entry with available }) (fun _ => rfl) }

def request (accountId : String) : InferenceRuntime :=
  match s.accounts.find? accountId with
  | some entry =>
    if entry.available then
      { s with requests := s.requests ++ [⟨accountId, entry.capacity, .found⟩] }
    else s
  | none => s

def move (index : ℕ) (request : InferenceRequest) (stage : InferenceStage) : InferenceRuntime :=
  { s with
    capacities := s.capacities.modify request.capacity (·.move request.stage stage)
    requests := s.requests.set index { request with stage } }

def progress (index : ℕ) (event : InferenceEvent) : InferenceRuntime :=
  match s.requests[index]? with
  | none => s
  | some request =>
    match (s.capacities[request.capacity]?).bind (request.stage.next · event) with
    | none => s
    | some stage => s.move index request stage

def perform : RuntimeEvent → InferenceRuntime
  | .register accountId available => s.register config accountId available
  | .replace accountId available => s.replace config accountId available
  | .remove accountId => s.remove accountId
  | .setAvailable accountId available => s.setAvailable accountId available
  | .request accountId => s.request accountId
  | .progress index event => s.progress index event

def run (events : List RuntimeEvent) : InferenceRuntime :=
  events.foldl (perform config) s

def inFlight (accountId : String) : ℕ :=
  s.requests.countP fun request => request.accountId == accountId && request.stage.inFlight

def admitted (accountId : String) : ℕ :=
  s.requests.countP fun request => request.accountId == accountId && request.stage.holdsAdmission

/-- An account that has no semaphores gets new ones only if nothing of it is left. -/
def Renews : RuntimeEvent → Prop
  | .register accountId _ | .replace accountId _ => s.accounts.find? accountId = none →
      ∀ request ∈ s.requests, request.accountId = accountId → request.stage = .ended
  | _ => True

end

instance (s : InferenceRuntime) : DecidablePred s.Renews
  | .register _ _ | .replace _ _ =>
    inferInstanceAs (Decidable (_ = none → ∀ request ∈ s.requests, _ = _ → _ = _))
  | .remove _ | .setAvailable _ _ | .request _ | .progress _ _ => .isTrue trivial

def RenewsRun (s : InferenceRuntime) : List RuntimeEvent → Prop
  | [] => True
  | event :: events => s.Renews event ∧ RenewsRun (s.perform config event) events

instance instDecidableRenewsRun (s : InferenceRuntime) :
    ∀ events, Decidable (s.RenewsRun config events)
  | [] => .isTrue trivial
  | event :: events =>
    have := instDecidableRenewsRun (s.perform config event) events
    inferInstanceAs (Decidable (_ ∧ _))

/-! ## Permits are conserved -/

/-- One of the two semaphores of a pair: how many permits are left, and who holds one. -/
structure Semaphore (total : ℕ) where
  left : InferenceCapacity → ℕ
  holds : InferenceStage → Bool
  left_new : left (InferenceCapacity.new config) = total
  left_move : ∀ old new capacity,
    left (InferenceCapacity.move old new capacity) =
      left capacity + (holds old).toNat - (holds new).toNat
  holds_found : holds .found = false
  pos_of_next : ∀ capacity stage event stage',
    InferenceStage.next capacity stage event = some stage' →
      holds stage = false → holds stage' = true → 0 < left capacity

def activeSemaphore : Semaphore config config.inferenceConcurrency where
  left := InferenceCapacity.active
  holds := InferenceStage.holdsActive
  left_new := rfl
  left_move _ _ _ := rfl
  holds_found := rfl
  pos_of_next _ _ _ _ h hold hnew := by
    unfold InferenceStage.next at h
    split at h <;> grind [InferenceStage.holdsActive]

def admissionSemaphore :
    Semaphore config (config.inferenceConcurrency + config.inferenceQueueCapacity) where
  left := InferenceCapacity.admission
  holds := InferenceStage.holdsAdmission
  left_new := rfl
  left_move _ _ _ := rfl
  holds_found := rfl
  pos_of_next _ _ _ _ h hold hnew := by
    unfold InferenceStage.next at h
    split at h <;> grind [InferenceStage.holdsAdmission]

section Conserved

variable {config} {total : ℕ} (semaphore : Semaphore config total) {s : InferenceRuntime}

/-- The holders of a permit of one pair. -/
def holders (s : InferenceRuntime) (pair : ℕ) : ℕ :=
  s.requests.countP fun request => request.capacity == pair && semaphore.holds request.stage

/-- The permits of each pair are left or held. -/
def Conserved (s : InferenceRuntime) : Prop :=
  ∀ pair capacity, s.capacities[pair]? = some capacity →
    semaphore.left capacity + s.holders semaphore pair = total

/-- Requests and accounts refer to pairs that exist. -/
structure Bounded (s : InferenceRuntime) : Prop where
  requests : ∀ request ∈ s.requests, request.capacity < s.capacities.length
  accounts : ∀ entry ∈ s.accounts.rows, entry.capacity < s.capacities.length

variable {semaphore}

theorem Conserved.install (h : s.Conserved semaphore) (hbounded : s.Bounded) (accountId : String)
    (available : Bool) : (s.install config accountId available).Conserved semaphore := by
  have hnone : s.holders semaphore s.capacities.length = 0 := by
    refine countP_eq_zero.mpr fun request hrequest => ?_
    have hne := (hbounded.requests request hrequest).ne
    simp [hne]
  refine Slots.All.append h ?_
  rw [hnone, semaphore.left_new, Nat.add_zero]

theorem Conserved.request (h : s.Conserved semaphore) (entry : AccountEntry) :
    Conserved semaphore
      { s with requests := s.requests ++ [⟨entry.accountId, entry.capacity, .found⟩] } := by
  intro pair capacity hcapacity
  have hsame : holders semaphore { s with
      requests := s.requests ++ [⟨entry.accountId, entry.capacity, .found⟩] } pair =
        s.holders semaphore pair := by
    simp [holders, semaphore.holds_found]
  rw [hsame]
  exact h pair capacity hcapacity

/-- A request takes permits that are left and gives back those it held. -/
theorem Conserved.move (h : s.Conserved semaphore) {index : ℕ} {request : InferenceRequest}
    {capacity : InferenceCapacity} {event : InferenceEvent} {stage : InferenceStage}
    (hrequest : s.requests[index]? = some request)
    (hcapacity : s.capacities[request.capacity]? = some capacity)
    (hnext : request.stage.next capacity event = some stage) :
    (s.move index request stage).Conserved semaphore := by
  have hholders (pair : ℕ) : (s.move index request stage).holders semaphore pair +
        (request.capacity == pair && semaphore.holds request.stage).toNat =
      s.holders semaphore pair + (request.capacity == pair && semaphore.holds stage).toNat :=
    Slots.countP_set_add _ hrequest
  refine Slots.All.modify h (fun pair capacity' hpair htotal => ?_) fun capacity' hsame htotal => ?_
  · have hne : (request.capacity == pair) = false := beq_false_of_ne hpair.symm
    have hother := hholders pair
    simp only [hne, Bool.false_and, Bool.toNat_false, Nat.add_zero] at hother
    rw [hother]
    exact htotal
  · obtain rfl := Option.some.inj (hcapacity.symm.trans hsame)
    have hown := hholders request.capacity
    have hpos := semaphore.pos_of_next _ _ _ _ hnext
    have hmove := semaphore.left_move request.stage stage capacity
    cases hold : semaphore.holds request.stage <;> cases hnew : semaphore.holds stage <;>
      simp_all <;> omega

end Conserved

/-! ## Every run -/

variable {config} {s : InferenceRuntime}

/-- What an event can do. -/
inductive Effect (config : RuntimeConfig) (s : InferenceRuntime) (event : RuntimeEvent) :
    InferenceRuntime → Prop
  | none : Effect config s event s
  | install (accountId : String) (available : Bool)
      (renews : s.Renews event → ∀ request ∈ s.requests, request.accountId = accountId →
        request.stage = .ended) : Effect config s event (s.install config accountId available)
  /-- Entries are dropped, or rewritten with the semaphores they have. -/
  | entries (accounts : Table AccountEntry.accountId)
      (kept : ∀ entry ∈ accounts.rows, ∃ old ∈ s.accounts.rows,
        old.accountId = entry.accountId ∧ old.capacity = entry.capacity) :
      Effect config s event { s with accounts }
  | request (entry : AccountEntry) (mem : entry ∈ s.accounts.rows) :
      Effect config s event
        { s with requests := s.requests ++ [⟨entry.accountId, entry.capacity, .found⟩] }
  | move (index : ℕ) (request : InferenceRequest) (capacity : InferenceCapacity)
      (progress : InferenceEvent) (stage : InferenceStage)
      (hrequest : s.requests[index]? = some request)
      (hcapacity : s.capacities[request.capacity]? = some capacity)
      (hnext : request.stage.next capacity progress = some stage) :
      Effect config s event (s.move index request stage)

theorem perform_effect (config : RuntimeConfig) (s : InferenceRuntime) (event : RuntimeEvent) :
    Effect config s event (s.perform config event) := by
  cases event with
  | register accountId available =>
    simp only [perform, InferenceRuntime.register]
    split
    · exact .none
    · rename_i habsent
      exact .install accountId available fun h => h (Option.not_isSome_iff_eq_none.mp habsent)
  | replace accountId available =>
    simp only [perform, InferenceRuntime.replace]
    split
    · rename_i entry hentry
      obtain ⟨hmem, hid⟩ := Table.find?_eq_some.mp hentry
      refine .entries _ fun other hother => ?_
      rcases Table.mem_upsert.mp hother with rfl | ⟨hold, -⟩
      · exact ⟨entry, hmem, hid, rfl⟩
      · exact ⟨other, hold, rfl, rfl⟩
    · rename_i habsent
      exact .install accountId available fun h => h habsent
  | remove =>
    exact .entries _ fun entry hentry => ⟨entry, (Table.mem_filter.mp hentry).1, rfl, rfl⟩
  | setAvailable =>
    refine .entries _ fun entry hentry => ?_
    obtain ⟨old, hold, rfl⟩ := mem_map.mp hentry
    refine ⟨old, hold, ?_⟩
    split <;> exact ⟨rfl, rfl⟩
  | request accountId =>
    simp only [perform, InferenceRuntime.request]
    split
    · rename_i entry hentry
      obtain ⟨hmem, rfl⟩ := Table.find?_eq_some.mp hentry
      split
      · exact .request entry hmem
      · exact .none
    · exact .none
  | progress index progress =>
    simp only [perform, InferenceRuntime.progress]
    cases hrequest : s.requests[index]? with
    | none => exact .none
    | some request =>
      cases hnext : (s.capacities[request.capacity]?).bind (request.stage.next · progress) with
      | none =>
        simp only [hnext]
        exact .none
      | some stage =>
        obtain ⟨capacity, hcapacity, hstage⟩ := Option.bind_eq_some_iff.mp hnext
        simp only [hnext]
        exact .move index request capacity progress stage hrequest hcapacity hstage

/-- Requests and accounts refer to pairs whose permits are conserved. -/
structure Sound (config : RuntimeConfig) (s : InferenceRuntime) : Prop where
  bounded : s.Bounded
  active : s.Conserved (activeSemaphore config)
  admission : s.Conserved (admissionSemaphore config)

variable {s' : InferenceRuntime} {event : RuntimeEvent}

theorem Bounded.effect (h : s.Bounded) (heffect : Effect config s event s') : s'.Bounded := by
  cases heffect with
  | none => exact h
  | install accountId available _ =>
    have hlength : (s.install config accountId available).capacities.length =
        s.capacities.length + 1 := length_append
    refine ⟨fun request hrequest => ?_, fun entry hentry => ?_⟩
    · rw [hlength]
      exact (h.requests request hrequest).trans (Nat.lt_succ_self _)
    · rw [hlength]
      rcases Table.mem_upsert.mp hentry with rfl | ⟨hold, -⟩
      · exact Nat.lt_succ_self _
      · exact (h.accounts entry hold).trans (Nat.lt_succ_self _)
  | entries _ kept =>
    refine ⟨h.requests, fun entry hentry => ?_⟩
    obtain ⟨old, hold, -, hcapacity⟩ := kept entry hentry
    exact hcapacity ▸ h.accounts old hold
  | request entry mem =>
    exact ⟨forall_mem_append.mpr ⟨h.requests, forall_mem_singleton.mpr (h.accounts entry mem)⟩,
      h.accounts⟩
  | move index request _ _ stage hrequest _ _ =>
    have hlength : (s.move index request stage).capacities.length = s.capacities.length :=
      length_modify ..
    refine ⟨fun other hother => ?_, fun entry hentry => ?_⟩
    · rw [hlength]
      rcases mem_or_eq_of_mem_set hother with hold | rfl
      · exact h.requests other hold
      · exact h.requests request (mem_of_getElem? hrequest)
    · rw [hlength]
      exact h.accounts entry hentry

variable {total : ℕ} {semaphore : Semaphore config total}

theorem Conserved.effect (h : s.Conserved semaphore) (hbounded : s.Bounded)
    (heffect : Effect config s event s') : s'.Conserved semaphore := by
  cases heffect with
  | none => exact h
  | install accountId available => exact h.install hbounded accountId available
  | entries => exact h
  | request entry => exact h.request entry
  | move _ _ _ _ _ hrequest hcapacity hnext =>
    exact h.move hrequest hcapacity hnext

theorem Sound.perform (h : s.Sound config) (event : RuntimeEvent) :
    (s.perform config event).Sound config :=
  have heffect := perform_effect config s event
  ⟨h.bounded.effect heffect, h.active.effect h.bounded heffect,
    h.admission.effect h.bounded heffect⟩

/-- The requests of an account that are left all use the same semaphores, those of its entry if it
has one. -/
structure OnePair (s : InferenceRuntime) : Prop where
  entry : ∀ entry ∈ s.accounts.rows, ∀ request ∈ s.requests,
    request.accountId = entry.accountId → request.stage ≠ .ended →
      request.capacity = entry.capacity
  pair : ∀ request ∈ s.requests, ∀ other ∈ s.requests, request.accountId = other.accountId →
    request.stage ≠ .ended → other.stage ≠ .ended → request.capacity = other.capacity

theorem OnePair.effect (h : s.OnePair)
    (hrenews : s.Renews event) (heffect : Effect config s event s') : s'.OnePair := by
  cases heffect with
  | none => exact h
  | install _ _ renews =>
    refine ⟨fun entry hentry request hrequest hid hstage => ?_, h.pair⟩
    rcases Table.mem_upsert.mp hentry with rfl | ⟨hold, -⟩
    · exact absurd (renews hrenews request hrequest hid) hstage
    · exact h.entry entry hold request hrequest hid hstage
  | entries _ kept =>
    refine ⟨fun entry hentry request hrequest hid hstage => ?_, h.pair⟩
    obtain ⟨old, hold, hname, hcapacity⟩ := kept entry hentry
    rw [← hcapacity]
    exact h.entry old hold request hrequest (hid.trans hname.symm) hstage
  | request entry mem =>
    have hnew : ∀ request ∈ s.requests, request.accountId = entry.accountId →
        request.stage ≠ .ended → request.capacity = entry.capacity := h.entry entry mem
    refine ⟨fun other hother request hrequest hid hstage => ?_,
      fun request hrequest other hother hid hstage hstage' => ?_⟩
    · rcases mem_append.mp hrequest with hold | hlast
      · exact h.entry other hother request hold hid hstage
      · obtain rfl := mem_singleton.mp hlast
        -- an account has one entry
        exact congrArg AccountEntry.capacity
          (inj_on_of_nodup_map s.accounts.nodup mem hother hid)
    · rcases mem_append.mp hrequest with hold | hlast <;>
        rcases mem_append.mp hother with hold' | hlast'
      · exact h.pair request hold other hold' hid hstage hstage'
      · obtain rfl := mem_singleton.mp hlast'
        exact hnew request hold hid hstage
      · obtain rfl := mem_singleton.mp hlast
        exact (hnew other hold' hid.symm hstage').symm
      · rw [mem_singleton.mp hlast, mem_singleton.mp hlast']
  | move index request _ _ stage hrequest _ hnext =>
    have hmem := mem_of_getElem? hrequest
    have halive := InferenceStage.ne_ended_of_next hnext
    -- each request of the new list stands for one of the old that is left too
    have hold : ∀ other ∈ (s.move index request stage).requests, other.stage ≠ .ended →
        ∃ old ∈ s.requests, old.accountId = other.accountId ∧ old.capacity = other.capacity ∧
          old.stage ≠ .ended := by
      intro other hother hstage
      rcases mem_or_eq_of_mem_set hother with hold | rfl
      · exact ⟨other, hold, rfl, rfl, hstage⟩
      · exact ⟨request, hmem, rfl, rfl, halive⟩
    refine ⟨fun entry hentry other hother hid hstage => ?_,
      fun other hother other' hother' hid hstage hstage' => ?_⟩
    · obtain ⟨old, hmem, hname, hcapacity, hleft⟩ := hold other hother hstage
      rw [← hcapacity]
      exact h.entry entry hentry old hmem (hname.trans hid) hleft
    · obtain ⟨old, hmem, hname, hcapacity, hleft⟩ := hold other hother hstage
      obtain ⟨old', hmem', hname', hcapacity', hleft'⟩ := hold other' hother' hstage'
      rw [← hcapacity, ← hcapacity']
      exact h.pair old hmem old' hmem' (hname.trans (hid.trans hname'.symm)) hleft hleft'

/-- Requests of one account that hold permits are among the holders of one pair. -/
theorem countP_le_total (h : s.OnePair) (hbounded : s.Bounded)
    (hconserved : s.Conserved semaphore) (accountId : String)
    {p : InferenceStage → Bool} (hp : ∀ stage, p stage = true → semaphore.holds stage = true)
    (hended : p .ended = false) :
    (s.requests.countP fun request => request.accountId == accountId && p request.stage) ≤
      total := by
  by_cases hsome : ∃ request ∈ s.requests, request.accountId = accountId ∧
      p request.stage = true
  · obtain ⟨request, hmem, hid, hstage⟩ := hsome
    have hne : ∀ stage, p stage = true → stage ≠ .ended := by
      rintro _ hstage rfl
      simp [hended] at hstage
    obtain ⟨capacity, hcapacity⟩ : ∃ capacity, s.capacities[request.capacity]? = some capacity :=
      ⟨_, List.getElem?_eq_getElem (hbounded.requests request hmem)⟩
    calc s.requests.countP (fun request => request.accountId == accountId && p request.stage)
        ≤ s.holders semaphore request.capacity := by
          refine countP_mono_left fun other hother hcounted => ?_
          rw [Bool.and_eq_true, beq_iff_eq] at hcounted
          have hsame := h.pair other hother request hmem (hcounted.1.trans hid.symm)
            (hne _ hcounted.2) (hne _ hstage)
          simp [hsame, hp _ hcounted.2]
      _ ≤ semaphore.left capacity + s.holders semaphore request.capacity := Nat.le_add_left _ _
      _ = total := hconserved _ capacity hcapacity
  · have hzero : (s.requests.countP fun request =>
        request.accountId == accountId && p request.stage) = 0 := by
      refine countP_eq_zero.mpr fun request hmem hcounted => hsome ⟨request, hmem, ?_⟩
      simpa using hcounted
    rw [hzero]
    exact Nat.zero_le _

theorem Sound.new : (new : InferenceRuntime).Sound config :=
  ⟨⟨fun _ => nofun, fun _ => nofun⟩, Slots.all_nil, Slots.all_nil⟩

theorem OnePair.new : (new : InferenceRuntime).OnePair :=
  ⟨fun _ => nofun, fun _ => nofun⟩

theorem run_sound (h : s.Sound config) (hpair : s.OnePair) {events : List RuntimeEvent}
    (hrenews : s.RenewsRun config events) :
    (s.run config events).Sound config ∧ (s.run config events).OnePair := by
  induction events generalizing s with
  | nil => exact ⟨h, hpair⟩
  | cons event _ ih =>
    exact ih (h.perform event) (hpair.effect hrenews.1 (perform_effect config s event)) hrenews.2

end InferenceRuntime

/-- The limits hold in every run that gives an account new semaphores only when nothing of the
account is left. -/
theorem concurrency_limited (config : RuntimeConfig) (events : List RuntimeEvent)
    (h : InferenceRuntime.new.RenewsRun config events) (accountId : String) :
    (InferenceRuntime.new.run config events).inFlight accountId ≤ config.inferenceConcurrency ∧
      (InferenceRuntime.new.run config events).admitted accountId ≤
        config.inferenceConcurrency + config.inferenceQueueCapacity := by
  obtain ⟨hsound, hpair⟩ := InferenceRuntime.run_sound .new .new h
  exact ⟨InferenceRuntime.countP_le_total hpair hsound.bounded hsound.active accountId
      (fun stage h => by cases stage <;> trivial) rfl,
    InferenceRuntime.countP_le_total hpair hsound.bounded hsound.admission accountId
      (fun _ h => h) rfl⟩

def openStream (index : ℕ) : List RuntimeEvent :=
  [.request "a", .progress index (.enter false), .progress index .activate,
    .progress index (.answer .opened)]

/-- The account is replaced under an open stream, and removed and entered again after its end. -/
theorem concurrency_limited_replaced :
    (InferenceRuntime.new.run ⟨1, 0⟩ ([.register "a" true] ++ openStream 0 ++
        [.replace "a" true, .progress 0 (.read true), .remove "a", .replace "a" true] ++
        openStream 1)).inFlight "a" ≤ 1 :=
  (concurrency_limited ⟨1, 0⟩ _ (by decide) "a").1

/-- An account that is disabled and enabled again gets new semaphores, while the stream that was
opened before still holds permits of the old. -/
theorem concurrency_exceeded_after_enable :
    (InferenceRuntime.new.run ⟨1, 0⟩ ([.register "a" true] ++ openStream 0 ++
        [.remove "a", .replace "a" true] ++ openStream 1)).inFlight "a" = 2 ∧
      (InferenceRuntime.new.run ⟨1, 0⟩ ([.register "a" true] ++ openStream 0 ++
        [.remove "a", .replace "a" true] ++ openStream 1)).admitted "a" = 2 := by
  decide

end ProviderCore.Runtime
