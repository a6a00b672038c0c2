import ProviderCore.Lib.Json

/-!
# JSON texts

`WrittenAs` relates a JSON tree to the byte texts that are written for it: with any white space, the
members in any order, members that a later one of the same name replaces, and every string with or
without escapes.  The relation has the spelling of strings as a parameter, so that a statement can
say how the strings of a text are spelled.
-/

namespace Json

open List

/-- The spellings of a string: each character as it is, or as an escape. -/
inductive Spells : List Char → List UInt8 → Prop
  | nil : Spells [] []
  | plain {c : Char} {cs : List Char} {text : List UInt8} :
    Spells cs text → Spells (c :: cs) (String.utf8EncodeChar c ++ text)
  | escaped {c : Char} {cs : List Char} {text : List UInt8} (escape : List UInt8) :
    Spells cs text → Spells (c :: cs) (92 :: escape ++ text)

/-- What is spelled without a backslash is spelled as it is. -/
theorem Spells.eq_of_plain {cs : List Char} {text : List UInt8} (h : Spells cs text)
    (hplain : 92 ∉ text) : text = cs.flatMap String.utf8EncodeChar := by
  induction h with
  | nil => rfl
  | plain _ ih => rw [flatMap_cons, ih fun hmem => hplain (mem_append_right _ hmem)]
  | escaped => simp at hplain

def Blank (bytes : List UInt8) : Prop := ∀ byte ∈ bytes, byte ∈ [32, 9, 10, 13]

def quoted (spelled : List UInt8) : List UInt8 := 34 :: spelled ++ [34]

/-- The text of a tree.  Literals and numbers are not looked into. -/
inductive WrittenAs (spells : String → List UInt8 → Prop) : Json → List UInt8 → Prop
  | scalar {tree : Json} {text : List UInt8} :
    tree.toStr = none → tree.toArr = none → tree.toObj = none → WrittenAs spells tree text
  | str {s : String} {spelled : List UInt8} :
    spells s spelled → WrittenAs spells (.str s) (quoted spelled)
  | arr {items : List Json} {parts : List (List UInt8)} (part : Json → List UInt8) :
    (∀ item ∈ items, WrittenAs spells item (part item)) → (∀ item ∈ items, part item ∈ parts) →
      WrittenAs spells (.arr items) (91 :: [44].intercalate parts ++ [93])
  | obj {members : Members} {parts : List (List UInt8)} (name value : String × Json → List UInt8) :
    (∀ member ∈ members, spells member.1 (name member)) →
    (∀ member ∈ members, WrittenAs spells member.2 (value member)) →
    (∀ member ∈ members, ∃ before after, Blank before ∧ Blank after ∧
      before ++ quoted (name member) ++ after ++ 58 :: value member ∈ parts) →
      WrittenAs spells (.obj members) (123 :: [44].intercalate parts ++ [125])
  | spaced {tree : Json} {before text after : List UInt8} :
    Blank before → Blank after → WrittenAs spells tree text →
      WrittenAs spells tree (before ++ text ++ after)

theorem infix_intercalate {α : Type*} {sep part : List α} {parts : List (List α)}
    (h : part ∈ parts) : part <:+: sep.intercalate parts := by
  induction parts with
  | nil => cases h
  | cons first parts ih =>
    cases parts with
    | nil =>
      obtain rfl := mem_singleton.mp h
      exact ⟨[], [], by simp [intercalate]⟩
    | cons =>
      rw [intercalate_cons_cons]
      rcases mem_cons.mp h with rfl | h
      · rw [append_assoc]
        exact (prefix_append _ _).isInfix
      · exact (ih h).trans (suffix_append _ _).isInfix

variable {spells : String → List UInt8 → Prop} {tree value : Json} {text : List UInt8}
  {name s : String}

/-- The name and the value of a member stand in the text. -/
theorem WrittenAs.member? (h : WrittenAs spells tree text)
    (hvalue : tree.member? name = some value) :
    (∃ spelled, spells name spelled ∧ spelled <:+: text) ∧
      ∃ part, WrittenAs spells value part ∧ part <:+: text := by
  induction h with
  | @scalar tree _ _ _ hobj => cases tree <;> cases hobj <;> cases hvalue
  | str | arr => cases hvalue
  | spaced _ _ _ ih =>
    obtain ⟨⟨spelled, hspells, hname⟩, part, hpart, hin⟩ := ih hvalue
    exact ⟨⟨spelled, hspells, hname.trans ⟨_, _, rfl⟩⟩, part, hpart, hin.trans ⟨_, _, rfl⟩⟩
  | @obj members parts nameText valueText hname hwritten hparts =>
    obtain ⟨_, _, hmembers, -⟩ := lookup_eq_some_iff.mp hvalue
    have hmem : (name, value) ∈ members := by simp [hmembers]
    obtain ⟨before, after, -, -, hpart⟩ := hparts _ hmem
    have hin : _ <:+: 123 :: [44].intercalate parts ++ [125] :=
      (infix_intercalate hpart).trans ⟨[123], [125], rfl⟩
    refine ⟨⟨_, hname _ hmem, .trans ?_ hin⟩, _, hwritten _ hmem, .trans ?_ hin⟩
    · exact ⟨before ++ [34], 34 :: (after ++ 58 :: valueText (name, value)), by simp [quoted]⟩
    · exact ⟨before ++ quoted (nameText (name, value)) ++ after ++ [58], [], by simp⟩

theorem WrittenAs.str? (h : WrittenAs spells tree text) (hs : tree.toStr = some s) :
    ∃ spelled, spells s spelled ∧ spelled <:+: text := by
  induction h with
  | scalar hstr => cases hstr.symm.trans hs
  | str hspells =>
    cases hs
    exact ⟨_, hspells, [34], [34], rfl⟩
  | arr | obj => cases hs
  | spaced _ _ _ ih =>
    obtain ⟨spelled, hspells, hin⟩ := ih hs
    exact ⟨spelled, hspells, hin.trans ⟨_, _, rfl⟩⟩

theorem WrittenAs.text? (h : WrittenAs spells tree text) (hs : tree.text? name = some s) :
    ∃ spelled, spells s spelled ∧ spelled <:+: text := by
  obtain ⟨value, hvalue, hs⟩ := Option.bind_eq_some_iff.mp hs
  obtain ⟨-, part, hpart, hin⟩ := h.member? hvalue
  obtain ⟨spelled, hspells, hspelled⟩ := hpart.str? hs
  exact ⟨spelled, hspells, hspelled.trans hin⟩

end Json
