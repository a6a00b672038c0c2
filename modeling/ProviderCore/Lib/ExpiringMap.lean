import ProviderCore.Lib.Table

/-!
# Maps whose entries expire

A map of bounded size whose entries live for a fixed time.  Next to the entries a queue holds the
time and the key of each insertion, oldest first; expiry and eviction look at the front of the
queue only.  They are exact as long as the queue lists the entries in the order of their times,
which insertions at non-decreasing clock readings maintain.
-/

structure Stamped (κ ν : Type) where
  key : κ
  value : ν
  boundAt : ℕ
deriving DecidableEq

namespace Stamped

variable {κ ν : Type}

abbrev stamp (entry : Stamped κ ν) : ℕ × κ := (entry.boundAt, entry.key)

def Live (ttl now : ℕ) (entry : Stamped κ ν) : Prop := now - entry.boundAt < ttl

instance (ttl now : ℕ) (entry : Stamped κ ν) : Decidable (entry.Live ttl now) :=
  inferInstanceAs (Decidable (_ < _))

end Stamped

structure ExpiringMap (κ ν : Type) where
  entries : Table (Stamped.key : Stamped κ ν → κ)
  oldestFirst : List (ℕ × κ)

namespace ExpiringMap

variable {κ ν : Type} [DecidableEq κ]

/-! ## Operations -/

omit [DecidableEq κ] in
def empty : ExpiringMap κ ν := ⟨Table.empty, []⟩

def find? (m : ExpiringMap κ ν) (key : κ) : Option (Stamped κ ν) := m.entries.find? key

/-- The entries without the one that a queue element stands for. -/
def forget (entries : Table (Stamped.key : Stamped κ ν → κ)) (front : ℕ × κ) :
    Table (Stamped.key : Stamped κ ν → κ) :=
  if (entries.find? front.2).any (·.boundAt = front.1) then
    entries.filter (decide <| ·.key ≠ front.2)
  else entries

/-- Remove the oldest entry as long as there is one and the condition holds. -/
def removeWhile (p : Table (Stamped.key : Stamped κ ν → κ) → ℕ × κ → Bool)
    (entries : Table (Stamped.key : Stamped κ ν → κ)) : List (ℕ × κ) → ExpiringMap κ ν
  | [] => ⟨entries, []⟩
  | front :: rest =>
    if p entries front then removeWhile p (forget entries front) rest
    else ⟨entries, front :: rest⟩

/-- The element of the queue has expired, or its entry is not there any more. -/
def outdated (ttl now : ℕ) (entries : Table (Stamped.key : Stamped κ ν → κ)) (front : ℕ × κ) :
    Bool :=
  (entries.find? front.2).all (·.boundAt ≠ front.1) || decide (ttl ≤ now - front.1)

def removeExpired (ttl now : ℕ) (m : ExpiringMap κ ν) : ExpiringMap κ ν :=
  removeWhile (outdated ttl now) m.entries m.oldestFirst

/-- Remove the oldest entries until there is room for one.  With an empty queue and no room the
loop does not end. -/
def makeRoom (capacity : ℕ) (m : ExpiringMap κ ν) : Option (ExpiringMap κ ν) :=
  let m := removeWhile (fun entries _ => decide (capacity ≤ entries.rows.length))
    m.entries m.oldestFirst
  if capacity ≤ m.entries.rows.length then none else some m

/-- Insert an entry unless its key is taken by one that has not expired. -/
def insert (ttl capacity now : ℕ) (key : κ) (value : ν) (m : ExpiringMap κ ν) :
    Option (ExpiringMap κ ν) :=
  let m := m.removeExpired ttl now
  if (m.find? key).isSome then some m else
    (m.makeRoom capacity).map fun m =>
      ⟨m.entries.upsert ⟨key, value, now⟩, m.oldestFirst ++ [(now, key)]⟩

/-! ## The queue in step with the entries -/

/-- The queue lists the entries. -/
def InStep (m : ExpiringMap κ ν) : Prop := m.oldestFirst = m.entries.rows.map Stamped.stamp

/-- The queue lists the entries in the order of their times. -/
structure Chronological (m : ExpiringMap κ ν) : Prop where
  inStep : m.InStep
  ordered : m.entries.rows.Pairwise (·.boundAt ≤ ·.boundAt)

omit [DecidableEq κ] in
theorem chronological_empty : (empty : ExpiringMap κ ν).Chronological :=
  ⟨rfl, List.Pairwise.nil⟩

section InStep

variable {m : ExpiringMap κ ν} {entry : Stamped κ ν} {rest : List (Stamped κ ν)}

omit [DecidableEq κ] in
theorem InStep.keys (h : m.InStep) :
    m.oldestFirst.map Prod.snd = m.entries.rows.map Stamped.key := by
  rw [h, List.map_map]
  rfl

/-- The front of the queue stands for the first entry, and goes with it. -/
theorem forget_stamp {entries : Table (Stamped.key : Stamped κ ν → κ)}
    (hrows : entries.rows = entry :: rest) : (forget entries entry.stamp).rows = rest := by
  have hfind : entries.find? entry.key = some entry :=
    Table.find?_eq_some.mpr ⟨hrows ▸ List.mem_cons_self, rfl⟩
  have hnodup := entries.nodup
  rw [hrows, List.map_cons, List.nodup_cons] at hnodup
  have hcond : (entries.find? entry.stamp.2).any (·.boundAt = entry.stamp.1) = true := by
    simp [hfind]
  rw [forget, if_pos hcond]
  show entries.rows.filter _ = rest
  rw [hrows, List.filter_cons_of_neg (by simp), List.filter_eq_self]
  intro other hother
  have hne : other.key ≠ entry.key := fun he => hnodup.1 (he ▸ List.mem_map_of_mem hother)
  exact decide_eq_true hne

/-- What the loops leave of a map whose queue is in step. -/
structure Trimmed (p : Table (Stamped.key : Stamped κ ν → κ) → ℕ × κ → Bool)
    (m m' : ExpiringMap κ ν) : Prop where
  inStep : m'.InStep
  suffix : m'.entries.rows <:+ m.entries.rows
  stop : ∀ front ∈ m'.oldestFirst.head?, p m'.entries front = false
  kept : ∀ entry ∈ m.entries.rows,
    (∀ entries, entry ∈ entries.rows → p entries entry.stamp = false) → entry ∈ m'.entries.rows

theorem InStep.removeWhile {p : Table (Stamped.key : Stamped κ ν → κ) → ℕ × κ → Bool}
    (h : m.InStep) : Trimmed p m (removeWhile p m.entries m.oldestFirst) := by
  obtain ⟨entries, queue⟩ := m
  obtain rfl : queue = entries.rows.map Stamped.stamp := h
  induction hrows : entries.rows generalizing entries with
  | nil =>
    rw [List.map_nil, ExpiringMap.removeWhile]
    exact ⟨by simp [InStep, hrows], List.suffix_rfl, by simp, fun other hother _ => hother⟩
  | cons entry rest ih =>
    by_cases hp : p entries entry.stamp = true
    · have hforget := forget_stamp hrows
      have hrest := ih (forget entries entry.stamp) hforget
      rw [List.map_cons, ExpiringMap.removeWhile, if_pos hp]
      refine ⟨hrest.inStep, ?_, hrest.stop, ?_⟩
      · have hsuffix := hrest.suffix
        rw [show (forget entries entry.stamp).rows = rest from hforget] at hsuffix
        exact hsuffix.trans (hrows ▸ List.suffix_cons entry rest)
      · intro other hother hnever
        rcases List.mem_cons.mp (hrows ▸ hother : other ∈ entry :: rest) with rfl | hmem
        · have := hnever entries hother
          simp [this] at hp
        · exact hrest.kept other (hforget ▸ hmem) hnever
    · rw [List.map_cons, ExpiringMap.removeWhile, if_neg hp]
      refine ⟨by simp [InStep, hrows], List.suffix_rfl, ?_, fun other hother _ => hother⟩
      intro front hfront
      obtain rfl : entry.stamp = front := by simpa using hfront
      exact Bool.eq_false_iff.mpr hp

end InStep

/-! ## Expiry -/

section Chronological

variable {m : ExpiringMap κ ν} {ttl now : ℕ}

omit [DecidableEq κ] in
theorem Chronological.of_suffix {m' : ExpiringMap κ ν} (h : m.Chronological) (hstep : m'.InStep)
    (hsuffix : m'.entries.rows <:+ m.entries.rows) : m'.Chronological :=
  ⟨hstep, h.ordered.sublist hsuffix.sublist⟩

theorem Chronological.removeExpired (h : m.Chronological) (ttl now : ℕ) :
    (m.removeExpired ttl now).Chronological :=
  have ht := h.inStep.removeWhile
  h.of_suffix ht.inStep ht.suffix

theorem InStep.removeExpired_suffix (h : m.InStep) (ttl now : ℕ) :
    (m.removeExpired ttl now).entries.rows <:+ m.entries.rows :=
  h.removeWhile.suffix

theorem outdated_stamp {entries : Table (Stamped.key : Stamped κ ν → κ)} {entry : Stamped κ ν}
    (h : entry ∈ entries.rows) : outdated ttl now entries entry.stamp = false ↔
      entry.Live ttl now := by
  have hfind : entries.find? entry.key = some entry := Table.find?_eq_some.mpr ⟨h, rfl⟩
  simp [outdated, hfind, Stamped.Live]

/-- Expiry removes exactly the entries that are not live. -/
theorem Chronological.mem_removeExpired (h : m.Chronological) {entry : Stamped κ ν} :
    entry ∈ (m.removeExpired ttl now).entries.rows ↔
      entry ∈ m.entries.rows ∧ entry.Live ttl now := by
  have ht : Trimmed (outdated ttl now) m (m.removeExpired ttl now) := h.inStep.removeWhile
  constructor
  · intro hentry
    refine ⟨ht.suffix.mem hentry, ?_⟩
    -- the loop stopped at a live entry, and the others are younger
    have hordered := (h.of_suffix ht.inStep ht.suffix).ordered
    have hstop := ht.stop
    rw [ht.inStep] at hstop
    cases hrows : (m.removeExpired ttl now).entries.rows with
    | nil => simp [hrows] at hentry
    | cons first =>
      rw [hrows] at hentry hordered hstop
      have hfirst : first.Live ttl now :=
        (outdated_stamp (hrows ▸ List.mem_cons_self)).mp (hstop _ rfl)
      rcases List.mem_cons.mp hentry with rfl | hmem
      · exact hfirst
      · have hyounger := List.rel_of_pairwise_cons hordered hmem
        unfold Stamped.Live at *
        omega
  · rintro ⟨hentry, hlive⟩
    exact ht.kept entry hentry fun entries hmem => (outdated_stamp hmem).mpr hlive

theorem Chronological.find?_removeExpired (h : m.Chronological) (key : κ) :
    (m.removeExpired ttl now).find? key = (m.find? key).filter (·.Live ttl now) := by
  ext entry
  simp only [find?, Option.filter_eq_some_iff, Table.find?_eq_some,
    h.mem_removeExpired, decide_eq_true_eq]
  tauto

/-! ## Insertion -/

variable {capacity : ℕ}

theorem InStep.makeRoom (h : m.InStep) (hcapacity : 0 < capacity) :
    ∃ m', m.makeRoom capacity = some m' ∧ m'.InStep ∧ m'.entries.rows <:+ m.entries.rows ∧
      m'.entries.rows.length < capacity := by
  have ht := h.removeWhile (p := fun entries _ => decide (capacity ≤ entries.rows.length))
  have hroom : (ExpiringMap.removeWhile (fun entries _ => decide (capacity ≤ entries.rows.length))
      m.entries m.oldestFirst).entries.rows.length < capacity := by
    have hstop := ht.stop
    rw [ht.inStep] at hstop
    generalize ExpiringMap.removeWhile _ m.entries m.oldestFirst = m' at hstop ⊢
    cases hrows : m'.entries.rows with
    | nil => simpa using hcapacity
    | cons first => simpa [hrows] using hstop first.stamp (by simp [hrows])
  exact ⟨_, if_neg (Nat.not_le.mpr hroom), ht.inStep, ht.suffix, hroom⟩

/-- What an insertion does to a map. -/
structure Inserted (ttl capacity now : ℕ) (key : κ) (value : ν) (m m' : ExpiringMap κ ν) :
    Prop where
  chronological : m'.Chronological
  size : m'.entries.rows.length ≤ capacity
  mem : ∀ entry ∈ m'.entries.rows, entry ∈ m.entries.rows ∨ entry = ⟨key, value, now⟩
  /-- A live entry may be evicted, but its key is not taken by another. -/
  kept : ∀ entry ∈ m.entries.rows, entry.Live ttl now →
    ∀ entry' ∈ m'.entries.rows, entry'.key = entry.key → entry' = entry

theorem Chronological.insert (h : m.Chronological) (ttl : ℕ)
    (hcapacity : 0 < capacity) (hsize : m.entries.rows.length ≤ capacity)
    (hclock : ∀ entry ∈ m.entries.rows, entry.boundAt ≤ now) (key : κ) (value : ν) :
    ∃ m', m.insert ttl capacity now key value = some m' ∧
      Inserted ttl capacity now key value m m' := by
  have hexpired := h.removeExpired ttl now
  have hsuffix := h.inStep.removeExpired_suffix ttl now
  have hsame : ∀ entry ∈ m.entries.rows, ∀ entry' ∈ m.entries.rows, entry'.key = entry.key →
      entry' = entry := fun entry hentry entry' hentry' =>
    List.inj_on_of_nodup_map m.entries.nodup hentry' hentry
  cases hfind : (m.removeExpired ttl now).find? key with
  | some =>
    refine ⟨m.removeExpired ttl now, by simp [ExpiringMap.insert, hfind], hexpired,
      hsuffix.length_le.trans hsize, fun entry hentry => .inl (hsuffix.mem hentry), ?_⟩
    exact fun entry hentry _ entry' hentry' => hsame entry hentry entry' (hsuffix.mem hentry')
  | none =>
    obtain ⟨m', hroom, hstep, hsuffix', hlt⟩ := hexpired.inStep.makeRoom hcapacity
    have hchron := hexpired.of_suffix hstep hsuffix'
    have hold : ∀ entry ∈ m'.entries.rows, entry ∈ m.entries.rows := fun entry hentry =>
      hsuffix.mem (hsuffix'.mem hentry)
    have habsent := Table.find?_eq_none.mp hfind
    have hrows : (m'.entries.upsert ⟨key, value, now⟩).rows =
        m'.entries.rows ++ [⟨key, value, now⟩] :=
      Table.rows_upsert (Table.find?_eq_none.mpr fun entry hentry =>
        habsent entry (hsuffix'.mem hentry))
    refine ⟨⟨m'.entries.upsert ⟨key, value, now⟩, m'.oldestFirst ++ [(now, key)]⟩,
      by simp [ExpiringMap.insert, hfind, hroom], ⟨?_, ?_⟩, ?_, ?_, ?_⟩
    · show m'.oldestFirst ++ _ = (m'.entries.upsert _).rows.map _
      rw [hrows, List.map_append, hstep]
      rfl
    · show (m'.entries.upsert _).rows.Pairwise _
      rw [hrows, List.pairwise_append]
      refine ⟨hchron.ordered, List.pairwise_singleton _ _, fun entry hentry last hlast => ?_⟩
      obtain rfl := List.mem_singleton.mp hlast
      exact hclock entry (hold entry hentry)
    · show (m'.entries.upsert _).rows.length ≤ capacity
      rw [hrows, List.length_append]
      exact hlt
    · intro entry hentry
      rcases Table.mem_upsert.mp hentry with rfl | ⟨hmem, -⟩
      · exact .inr rfl
      · exact .inl (hold entry hmem)
    · intro entry hentry hlive entry' hentry' hkey
      rcases Table.mem_upsert.mp hentry' with rfl | ⟨hmem, -⟩
      -- the key was free after expiry, which left the live entry in place
      · exact absurd hkey.symm (habsent entry (h.mem_removeExpired.mpr ⟨hentry, hlive⟩))
      · exact hsame entry hentry entry' (hold entry' hmem) hkey

end Chronological

end ExpiringMap
