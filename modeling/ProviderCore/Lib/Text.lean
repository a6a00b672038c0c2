import Mathlib.Data.List.DropRight

/-!
# Text helpers

Strings are handled through their characters.  `trim` strips the characters with the Unicode
`White_Space` property from both ends, and `splitOnce` cuts a text at the first occurrence of a
character.
-/

namespace Text

open List

/-- The Unicode `White_Space` property. -/
def isWhitespace (c : Char) : Bool :=
  let n := c.toNat
  (9 ≤ n && n ≤ 13) || n == 0x20 || n == 0x85 || n == 0xA0 || n == 0x1680 ||
    (0x2000 ≤ n && n ≤ 0x200A) || n == 0x2028 || n == 0x2029 || n == 0x202F || n == 0x205F ||
    n == 0x3000

def trim (s : String) : String :=
  .ofList ((s.toList.dropWhile isWhitespace).reverse.dropWhile isWhitespace).reverse

theorem trim_trim (s : String) : trim (trim s) = trim s := by
  have hdrop : ∀ l : List Char, ((l.dropWhile isWhitespace).rdropWhile isWhitespace).dropWhile
      isWhitespace = (l.dropWhile isWhitespace).rdropWhile isWhitespace := by
    intro l
    -- what is left of the text without its head's white space begins as that does
    obtain ⟨_, hrest⟩ := rdropWhile_prefix isWhitespace (l.dropWhile isWhitespace)
    rcases hleft : (l.dropWhile isWhitespace).rdropWhile isWhitespace with _ | ⟨c, left⟩
    · rfl
    · rw [hleft] at hrest
      have hhead : isWhitespace c = false := by
        have := List.head?_dropWhile_not isWhitespace l
        simpa [← hrest] using this
      rw [dropWhile_cons_of_neg (by simp [hhead])]
  have hlist : ∀ s, trim s =
      .ofList ((s.toList.dropWhile isWhitespace).rdropWhile isWhitespace) := fun s => rfl
  rw [hlist (trim s), hlist s, String.toList_ofList, hdrop, rdropWhile_idempotent]

theorem trim_eq_self {s : String} (h : ∀ c ∈ s.toList, isWhitespace c = false) : trim s = s := by
  have hdrop (l : List Char) (hl : ∀ c ∈ l, isWhitespace c = false) :
      l.dropWhile isWhitespace = l := by
    rcases l with _ | ⟨c, l⟩
    · rfl
    · rw [dropWhile_cons_of_neg (by simp [hl c mem_cons_self])]
  unfold trim
  rw [hdrop _ h, hdrop _ fun c hc => h c (mem_reverse.mp hc), reverse_reverse, String.ofList_toList]

/-- A text with something other than white space in it, stripped. -/
def trimmed? (s : String) : Option String := if (trim s).isEmpty then none else some (trim s)

theorem trimmed?_of_trimmed? {s s' : String} (h : trimmed? s = some s') :
    trimmed? s' = some s' := by
  unfold trimmed? at h ⊢
  split at h
  · cases h
  · rename_i hne
    cases h
    rw [trim_trim, if_neg hne]

/-- Cut at the first `c`, which belongs to neither part. -/
def splitOnce (c : Char) (l : List Char) : Option (List Char × List Char) :=
  if c ∈ l then some (l.takeWhile (· ≠ c), (l.dropWhile (· ≠ c)).tail) else none

variable {l : List Char} {c : Char}

theorem splitOnce_append (h : c ∉ l) (m : List Char) : splitOnce c (l ++ c :: m) = some (l, m) := by
  have hall : ∀ x ∈ l, decide (x ≠ c) = true := by
    intro x hx
    rw [decide_eq_true_eq]
    rintro rfl
    exact h hx
  rw [splitOnce, if_pos (by simp), takeWhile_append_of_pos hall, dropWhile_append_of_pos hall]
  simp

theorem splitOnce_eq_some {l before after : List Char} :
    splitOnce c l = some (before, after) ↔ l = before ++ c :: after ∧ c ∉ before := by
  constructor
  · intro h
    have hmem : c ∈ l := by
      by_contra hnot
      simp [splitOnce, hnot] at h
    obtain ⟨_, _, rfl, hnot⟩ := eq_append_cons_of_mem hmem
    rw [splitOnce_append hnot] at h
    cases h
    exact ⟨rfl, hnot⟩
  · rintro ⟨rfl, hnot⟩
    exact splitOnce_append hnot after

theorem splitOnce_eq_none : splitOnce c l = none ↔ c ∉ l := by
  simp [splitOnce]

def stripSuffix (s ending : String) : Option String :=
  if ending.toList <:+ s.toList then
    some (.ofList (s.toList.take (s.toList.length - ending.toList.length)))
  else none

/-- The rest of a list that begins in a given way. -/
def afterStart {α : Type*} [DecidableEq α] (start l : List α) : Option (List α) :=
  if start <+: l then some (l.drop start.length) else none

def ascii (s : String) : List UInt8 := s.toList.map fun c => UInt8.ofNat c.toNat

/-- An ASCII text has as many bytes as characters. -/
theorem utf8ByteSize_ofList (h : ∀ c ∈ l, c.utf8Size = 1) :
    (String.ofList l).utf8ByteSize = l.length := by
  induction l with
  | nil => rfl
  | cons c l ih =>
    rw [forall_mem_cons] at h
    have happend : String.ofList (c :: l) = String.singleton c ++ String.ofList l := by
      simp
    rw [happend, String.utf8ByteSize_append, ih h.2, String.utf8ByteSize_singleton, h.1,
      length_cons, Nat.add_comm]

def utf8 (s : String) : List UInt8 := s.toUTF8.data.toList

def fromUtf8 (bytes : List UInt8) : Option String := String.fromUTF8? ⟨bytes.toArray⟩

end Text
