import ProviderCore.Lib.IntRange

/-!
# JSON trees

The tree behind a JSON text, as a derived serializer writes it and a derived deserializer reads
it: a member that may be absent, a member with a default, a record that refuses unknown members.
The text itself is not modelled.

Integers are written with all their digits.  `toInt` reads one straight from the text.  `toWide`
reads one out of a generic value tree, which holds integers of 64 bits, signed or unsigned; a
larger one has become a float there and is no integer any more.  A number with a fraction or an
exponent is kept by its text.

A program that edits a tree in place works on `Members`: a member is set, replaced or removed, and
a lookup sees the last of it.
-/

inductive Json
  | null
  | bool (value : Bool)
  | int (value : ℤ)
  | float (text : String)
  | str (value : String)
  | arr (items : List Json)
  | obj (members : List (String × Json))

namespace Json

open List

/-- The members of a record. -/
abbrev Members := List (String × Json)

variable {α β : Type} {lo hi : ℤ} (name : String)

/-! ## Reading -/

def member? : Json → Option Json
  | .obj members => members.lookup name
  | _ => none

@[simp] theorem member?_obj (members : List (String × Json)) :
    member? name (.obj members) = members.lookup name := rfl

/-- Read a member that has to be there. -/
def field (read : Json → Option α) (tree : Json) : Option α :=
  (tree.member? name).bind read

/-- Read a member that may be absent or null. -/
def optional (read : Json → Option α) (tree : Json) : Option (Option α) :=
  match tree.member? name with
  | none | some .null => some none
  | some tree => (read tree).map some

/-- Read a member that has a default. -/
def defaulted (default : α) (read : Json → Option α) (tree : Json) : Option α :=
  match tree.member? name with
  | none => some default
  | some tree => read tree

/-- Refuse a record with other members than these. -/
def denyUnknown (names : List String) : Json → Option Unit
  | .obj members => if members.all fun member => names.contains member.1 then some () else none
  | _ => none

def isNull : Json → Bool
  | .null => true
  | _ => false

def toBool : Json → Option Bool
  | .bool value => some value
  | _ => none

def toStr : Json → Option String
  | .str value => some value
  | _ => none

def toInt : Json → Option (IntRange lo hi)
  | .int value => IntRange.tryFrom value
  | _ => none

/-- The integers of a generic value tree. -/
def Narrow (value : ℤ) : Prop := -9223372036854775808 ≤ value ∧ value < 18446744073709551616

instance (value : ℤ) : Decidable (Narrow value) := inferInstanceAs (Decidable (_ ∧ _))

def toWide : Json → Option (IntRange lo hi)
  | .int value => if Narrow value then IntRange.tryFrom value else none
  | _ => none

def toU64 : Json → Option ℕ
  | .int value => if 0 ≤ value ∧ value < 18446744073709551616 then some value.toNat else none
  | _ => none

def toArr : Json → Option (List Json)
  | .arr items => some items
  | _ => none

def toObj : Json → Option Members
  | .obj members => some members
  | _ => none

def toI64 : Json → Option ℤ
  | .int value =>
    if -9223372036854775808 ≤ value ∧ value < 9223372036854775808 then some value else none
  | _ => none

def text? (tree : Json) : Option String := tree.field name toStr

def count? (tree : Json) : Option ℕ := tree.field name toU64

def toList (read : Json → Option α) : Json → Option (List α)
  | .arr items => items.mapM read
  | _ => none

/-! ## Writing -/

def ofOption (write : α → Json) : Option α → Json
  | none => .null
  | some value => write value

/-- A record whose absent members are not written. -/
def present (members : List (String × Option Json)) : Json :=
  .obj (members.filterMap fun member => member.2.map (member.1, ·))

/-! ## Reading what was written -/

variable {read : Json → Option α}

theorem field_of_member {name : String} {tree value : Json}
    (h : tree.member? name = some value) : tree.field name read = read value := by
  rw [field, h, Option.bind_some]

@[simp] theorem toBool_bool (value : Bool) : toBool (.bool value) = some value := rfl

@[simp] theorem toStr_str (value : String) : toStr (.str value) = some value := rfl

@[simp] theorem toInt_int (value : IntRange lo hi) : toInt (.int value.val) = some value :=
  IntRange.tryFrom_val value

theorem toWide_int {value read : IntRange lo hi} :
    toWide (.int value.val) = some read ↔ Narrow value.val ∧ read = value := by
  unfold toWide
  by_cases h : Narrow value.val
  · simp [eq_comm]
  · simp [h]

/-- What is read is the value, and it is read exactly under the condition. -/
def Reads (result : Option α) (holds : Prop) (value : α) : Prop :=
  ∀ read, result = some read ↔ holds ∧ read = value

variable {result : Option α} {value : α}

theorem Reads.of_eq (h : result = some value) : Reads result True value := by
  simp [Reads, h, eq_comm]

theorem Reads.congr {holds holds' : Prop}
    (h : Reads result holds value) (hiff : holds ↔ holds') : Reads result holds' value :=
  fun read => (h read).trans (and_congr_left' hiff)

theorem Reads.bind {holds holds' : Prop} {next : α → Option β}
    {value' : β} (h : Reads result holds value) (hnext : Reads (next value) holds' value') :
    Reads (result.bind next) (holds ∧ holds') value' := by
  intro read
  simp only [Option.bind_eq_some_iff, h _]
  constructor
  · rintro ⟨_, ⟨hholds, rfl⟩, hread⟩
    rw [hnext] at hread
    exact ⟨⟨hholds, hread.1⟩, hread.2⟩
  · rintro ⟨⟨hholds, hholds'⟩, rfl⟩
    exact ⟨value, ⟨hholds, rfl⟩, (hnext _).mpr ⟨hholds', rfl⟩⟩

/-- A step that does not fail. -/
theorem Reads.after {holds : Prop} {next : α → Option β} {value' : β} (h : result = some value)
    (hnext : Reads (next value) holds value') : Reads (result.bind next) holds value' := by
  rwa [h]

theorem Reads.map {holds : Prop} (h : Reads result holds value)
    (f : α → β) : Reads (result.bind fun a => some (f a)) holds (f value) := by
  refine Reads.congr (h.bind (@Reads.of_eq _ _ (f value) rfl)) ?_
  rw [and_true]

/-- An absent member is read as absent whether it was left out or written as null. -/
theorem Reads.optional {name : String} {write : α → Json} {tree : Json} {value : Option α}
    {holds : α → Prop} (h : ∀ a, Reads (read (write a)) (holds a) a)
    (hmember : tree.member? name = some (ofOption write value)) (hnull : ∀ a, write a ≠ .null) :
    Reads (tree.optional name read) (∀ a ∈ value, holds a) value := by
  intro result
  unfold Json.optional
  rw [hmember]
  cases value with
  | none => simp [ofOption, eq_comm]
  | some a =>
    have hwrite := hnull a
    have hread := h a
    cases hjson : write a <;> simp_all [Reads, ofOption, Option.map_eq_some_iff, eq_comm]

/-- A member of a record without its absent members is found if it is there. -/
theorem member?_present {members : List (String × Option Json)}
    (hnodup : (members.map Prod.fst).Nodup) (name : String) :
    member? name (present members) = (members.lookup name).join := by
  unfold present member?
  induction members with
  | nil => rfl
  | cons member members ih =>
    obtain ⟨key, value⟩ := member
    rw [map_cons, nodup_cons] at hnodup
    have hrest := ih hnodup.2
    by_cases hname : name = key
    · subst hname
      cases value with
      | some => simp
      | none =>
        have habsent : members.lookup name = none := by
          rw [lookup_eq_none_iff]
          intro member hmember
          rw [bne_iff_ne]
          exact fun he => hnodup.1 (mem_map.mpr ⟨member, hmember, he.symm⟩)
        simp [hrest, habsent]
    · have hbeq : (name == key) = false := beq_false_of_ne hname
      cases value with
      | some | none => simp [lookup_cons, hbeq, hrest]

/-! ## Editing -/

namespace Members

section

variable (members : Members) (name : String)

def get? : Option Json := members.lookup name

def text? : Option String := (members.get? name).bind toStr

/-- The value of a member, null if it is absent. -/
def getNull : Json := (members.get? name).getD .null

def remove : Members :=
  members.filter fun member => member.1 != name

def insert (value : Json) : Members :=
  (name, value) :: members.remove name

def update (f : Json → Json) : Members :=
  members.map fun member => if member.1 = name then (member.1, f member.2) else member

end

@[simp] theorem get?_remove (members : Members) (name : String) :
    (members.remove name).get? name = none := by
  rw [get?, remove, lookup_eq_none_iff]
  intro member hmember
  have hne : member.1 ≠ name := by simpa using (mem_filter.mp hmember).2
  rw [bne_iff_ne]
  exact hne.symm

variable {name name' : String} {members : Members}

theorem get?_remove_of_ne (hne : name' ≠ name) :
    (members.remove name).get? name' = members.get? name' := by
  unfold get? remove
  induction members with
  | nil => rfl
  | cons member _ ih =>
    by_cases hname : member.1 = name
    · have hother : (name' == member.1) = false := beq_false_of_ne (hname ▸ hne)
      rw [filter_cons_of_neg (by simpa using hname), lookup_cons, hother]
      exact ih
    · rw [filter_cons_of_pos (by simpa using hname), lookup_cons, lookup_cons, ih]

@[simp] theorem get?_insert (members : Members) (name : String) (value : Json) :
    (members.insert name value).get? name = some value := by
  simp [insert, get?]

theorem get?_insert_of_ne (hne : name' ≠ name)
    (value : Json) : (members.insert name value).get? name' = members.get? name' := by
  have hother : (name' == name) = false := beq_false_of_ne hne
  rw [insert, get?, lookup_cons, hother]
  exact get?_remove_of_ne hne

theorem get?_update_of_ne (hne : name' ≠ name)
    (f : Json → Json) : (members.update name f).get? name' = members.get? name' := by
  unfold get? update
  induction members with
  | nil => rfl
  | cons member _ ih =>
    obtain ⟨key, _⟩ := member
    rw [map_cons, lookup_cons]
    by_cases hname : key = name
    · subst hname
      have hother : (name' == key) = false := beq_false_of_ne hne
      rw [if_pos rfl, lookup_cons, hother]
      exact ih
    · rw [if_neg hname, lookup_cons, ih]

end Members

end Json
