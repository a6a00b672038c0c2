import Mathlib.Data.Nat.Digits.Lemmas
import Mathlib.Tactic.FieldSimp
import ProviderCore.Lib.Text

/-!
# Decimal digit strings

Numbers kept as text: a list of characters, most significant digit first, is read with the
core function `Nat.ofDigitChars 10`.  This module adds the schoolbook addition of two such
lists, written as the usual loop from the last digit with a carry, and shows that it computes
the sum.  Leading zeros are allowed everywhere; a list without them is determined by its value
(`toDigits_value`), which is what turns an equation between numbers into one between texts.
-/

namespace Decimal

open List

def digitVal (c : Char) : ℕ := c.toNat - '0'.toNat

def AllDigits (l : List Char) : Prop := ∀ c ∈ l, c.isDigit = true

instance (l : List Char) : Decidable (AllDigits l) :=
  decidableBAll _ l

/-- The value of a digit list, most significant digit first. -/
def value (l : List Char) : ℕ := Nat.ofDigitChars 10 l 0

/-- The value of a digit list, least significant digit first. -/
def valueRev (l : List Char) : ℕ := Nat.ofDigits 10 (l.map digitVal)

/-- The addition loop: both operands least significant digit first, the sum likewise.  It stops
when both operands are used up and nothing is carried. -/
def addLoop : ℕ → ℕ → List Char → List Char → List Char
  | 0, _, _, _ => []
  | fuel + 1, carry, left, right =>
    if left = [] ∧ right = [] ∧ carry = 0 then [] else
      let sum := carry + (left.head?.map digitVal).getD 0 + (right.head?.map digitVal).getD 0
      Nat.digitChar (sum % 10) :: addLoop fuel (sum / 10) left.tail right.tail

/-- Schoolbook addition, most significant digit first. -/
def add (left right : List Char) : List Char :=
  (addLoop (max left.length right.length + 1) 0 left.reverse right.reverse).reverse

/-! ## Digits and values -/

theorem digitVal_digitChar {n : ℕ} (h : n < 10) : digitVal (Nat.digitChar n) = n := by
  interval_cases n <;> rfl

theorem isDigit_digitChar {n : ℕ} (h : n < 10) : (Nat.digitChar n).isDigit = true := by
  interval_cases n <;> rfl

variable {c : Char}

theorem digitVal_lt (h : c.isDigit = true) : digitVal c < 10 := by
  have h9 : c.toNat ≤ 57 := by
    simp only [Char.isDigit, Bool.and_eq_true, decide_eq_true_eq] at h
    exact UInt32.le_iff_toNat_le.mp h.2
  have h0 : '0'.toNat = 48 := rfl
  unfold digitVal
  omega

theorem digitChar_digitVal (h : c.isDigit = true) : Nat.digitChar (digitVal c) = c := by
  have hlo : 48 ≤ c.toNat := by
    simp only [Char.isDigit, Bool.and_eq_true, decide_eq_true_eq] at h
    exact UInt32.le_iff_toNat_le.mp h.1
  have hlt := digitVal_lt h
  have h0 : '0'.toNat = 48 := rfl
  have hc : c = Char.ofNat (48 + digitVal c) := by
    have hval : 48 + digitVal c = c.toNat := by
      unfold digitVal
      omega
    rw [hval, Char.ofNat_toNat]
  generalize digitVal c = n at hlt hc
  subst hc
  interval_cases n <;> rfl

@[simp] theorem valueRev_nil : valueRev [] = 0 := rfl

@[simp] theorem valueRev_cons (c : Char) (l : List Char) :
    valueRev (c :: l) = digitVal c + 10 * valueRev l := by
  simp [valueRev, Nat.ofDigits_cons]

/-- Reading from the front is reading the reversed list from the back. -/
theorem value_reverse (l : List Char) : value l.reverse = valueRev l := by
  induction l with
  | nil => rfl
  | cons _ _ ih =>
    rw [reverse_cons, value, Nat.ofDigitChars_append, ← value, ih, valueRev_cons]
    simp only [Nat.ofDigitChars_cons, Nat.ofDigitChars_nil, digitVal]
    ring

theorem valueRev_reverse (l : List Char) : valueRev l.reverse = value l := by
  rw [← value_reverse, reverse_reverse]

theorem valueRev_eq_head_add_tail (l : List Char) :
    valueRev l = (l.head?.map digitVal).getD 0 + 10 * valueRev l.tail := by
  cases l <;> simp

variable {l : List Char}

theorem head_digit_lt (h : AllDigits l) : (l.head?.map digitVal).getD 0 < 10 := by
  cases l with
  | nil => simp
  | cons c => simpa using digitVal_lt (h c (by simp))

theorem AllDigits.tail (h : AllDigits l) : AllDigits l.tail :=
  fun c hc => h c (mem_of_mem_tail hc)

theorem AllDigits.reverse (h : AllDigits l) : AllDigits l.reverse :=
  fun c hc => h c (mem_reverse.mp hc)

/-! ## The loop computes the sum -/

variable {left right : List Char}

/-- The carry out of one column is at most one when the carry in is. -/
theorem column_carry_le {carry : ℕ} (hc : carry ≤ 1) (hl : AllDigits left) (hr : AllDigits right) :
    (carry + (left.head?.map digitVal).getD 0 + (right.head?.map digitVal).getD 0) / 10 ≤ 1 := by
  have h1 := head_digit_lt hl
  have h2 := head_digit_lt hr
  omega

theorem addLoop_nil_zero (fuel : ℕ) : addLoop fuel 0 [] [] = [] := by
  cases fuel <;> simp [addLoop]

variable {fuel carry : ℕ}

theorem valueRev_addLoop (hc : carry ≤ 1) (hl : AllDigits left) (hr : AllDigits right)
    (hfl : left.length < fuel) (hfr : right.length < fuel) :
    valueRev (addLoop fuel carry left right) = carry + valueRev left + valueRev right := by
  induction fuel generalizing carry left right with
  | zero => omega
  | succ fuel ih =>
    unfold addLoop
    split
    · next h =>
        obtain ⟨rfl, rfl, rfl⟩ := h
        rfl
    · next h =>
        have hcol := column_carry_le hc hl hr
        rw [valueRev_eq_head_add_tail left, valueRev_eq_head_add_tail right]
        simp only [valueRev_cons]
        rw [digitVal_digitChar (Nat.mod_lt _ (by decide))]
        -- The last column may leave no fuel, but then it carries nothing either.
        have htail : valueRev (addLoop fuel ((carry + (left.head?.map digitVal).getD 0 +
            (right.head?.map digitVal).getD 0) / 10) left.tail right.tail) =
            (carry + (left.head?.map digitVal).getD 0 + (right.head?.map digitVal).getD 0) / 10 +
              valueRev left.tail + valueRev right.tail := by
          cases fuel with
          | zero =>
            obtain rfl : left = [] := length_eq_zero_iff.mp (by omega)
            obtain rfl : right = [] := length_eq_zero_iff.mp (by omega)
            simp [addLoop]
            omega
          | succ =>
            exact ih hcol hl.tail hr.tail (by rw [length_tail]; omega)
              (by rw [length_tail]; omega)
        rw [htail]
        omega

theorem allDigits_addLoop (fuel carry : ℕ) (left right : List Char) :
    AllDigits (addLoop fuel carry left right) := by
  induction fuel generalizing carry left right with
  | zero => simp [addLoop, AllDigits]
  | succ _ ih =>
    unfold addLoop
    split
    · simp [AllDigits]
    · exact forall_mem_cons.mpr ⟨isDigit_digitChar (Nat.mod_lt _ (by decide)), ih _ _ _⟩

theorem value_add (hl : AllDigits left) (hr : AllDigits right) :
    value (add left right) = value left + value right := by
  rw [add, value_reverse, valueRev_addLoop (Nat.zero_le 1) hl.reverse hr.reverse,
    valueRev_reverse, valueRev_reverse, Nat.zero_add]
  · simp only [length_reverse]
    omega
  · simp only [length_reverse]
    omega

theorem allDigits_add (left right : List Char) : AllDigits (add left right) :=
  (allDigits_addLoop _ _ _ _).reverse

/-! ## Texts without leading zeros

`Full l` bounds the value of `l` from below by its length, which for digits says that the
first one is not zero. -/

/-- The list has one digit, or its value needs all of its digits. -/
def Full (l : List Char) : Prop := l.length = 1 ∨ (l ≠ [] ∧ 10 ^ (l.length - 1) ≤ value l)

theorem value_append_singleton (l : List Char) (c : Char) :
    value (l ++ [c]) = 10 * value l + digitVal c := by
  simp [value, Nat.ofDigitChars_append, Nat.ofDigitChars_cons, digitVal]

theorem value_append (l m : List Char) : value (l ++ m) = value l * 10 ^ m.length + value m := by
  induction m using reverseRecOn with
  | nil => simp [value]
  | append_singleton _ _ ih =>
    rw [← append_assoc, value_append_singleton, value_append_singleton, ih,
      length_append, length_singleton, pow_succ]
    ring

theorem value_replicate_zero (n : ℕ) : value (replicate n '0') = 0 := by
  induction n with
  | zero => rfl
  | succ _ ih =>
    rw [replicate_succ', value_append_singleton, ih]
    rfl

theorem value_lt (h : AllDigits l) : value l < 10 ^ l.length := by
  induction l using reverseRecOn with
  | nil => simp [value]
  | append_singleton _ c ih =>
    have hl := ih fun c hc => h c (mem_append_left _ hc)
    have hc := digitVal_lt (h c (by simp))
    rw [value_append_singleton, length_append, length_singleton, pow_succ]
    omega

theorem value_cons (c : Char) (l : List Char) :
    value (c :: l) = digitVal c * 10 ^ l.length + value l := by
  rw [← singleton_append, value_append]
  simp [value, Nat.ofDigitChars_cons, digitVal]

/-- A full digit list is the decimal text of its value. -/
theorem toDigits_value (hd : AllDigits l) (hf : Full l) : Nat.toDigits 10 (value l) = l := by
  induction l using reverseRecOn with
  | nil => simp [Full] at hf
  | append_singleton l c ih =>
    have hc : c.isDigit = true := hd c (by simp)
    have hlt := digitVal_lt hc
    rw [value_append_singleton]
    rcases eq_nil_or_concat l with rfl | ⟨l', c', hl⟩
    · have h0 : 10 * value [] + digitVal c = digitVal c := by simp [value]
      rw [h0, Nat.toDigits_of_lt_base hlt, digitChar_digitVal hc, nil_append]
    · have hlen : l.length = l'.length + 1 := by simp [hl]
      have hbound : 10 ^ (l.length - 1) ≤ value l := by
        rcases hf with hf | ⟨-, hf⟩
        · simp only [length_append, length_singleton] at hf
          omega
        · rw [value_append_singleton, length_append, length_singleton,
            Nat.add_sub_cancel, hlen, Nat.pow_succ] at hf
          rw [hlen, Nat.add_sub_cancel]
          omega
      have hpos : 0 < value l := lt_of_lt_of_le (by positivity) hbound
      have hne : l ≠ [] := by rintro rfl; simp at hlen
      rw [Nat.toDigits_of_base_le (by decide) (by omega), Nat.mul_add_div (by decide),
        Nat.div_eq_of_lt hlt, Nat.add_zero, Nat.mul_add_mod, Nat.mod_eq_of_lt hlt,
        digitChar_digitVal hc, ih (fun c hc => hd c (by simp [hc])) (.inr ⟨hne, hbound⟩)]

/-! ## Leading zeros and the order -/

theorem digitVal_pos (h : c.isDigit = true) (hc : c ≠ '0') : 0 < digitVal c := by
  refine Nat.pos_of_ne_zero fun hzero => hc ?_
  rw [← digitChar_digitVal h, hzero]
  rfl

/-- Without its leading zeros a digit list is the text of its value, or empty for zero. -/
theorem dropWhile_zero (h : AllDigits l) :
    l.dropWhile (· = '0') = if value l = 0 then [] else Nat.toDigits 10 (value l) := by
  induction l with
  | nil => rfl
  | cons c l ih =>
    have hvalue := value_cons c l
    by_cases hc : c = '0'
    · have hzero : digitVal '0' = 0 := rfl
      rw [hc, hzero, Nat.zero_mul, Nat.zero_add] at hvalue
      rw [hc, dropWhile_cons_of_pos (by simp), hvalue]
      exact ih fun d hd => h d (mem_cons_of_mem c hd)
    · have hpos := digitVal_pos (h c mem_cons_self) hc
      have hlarge : 10 ^ l.length ≤ value (c :: l) := by
        rw [hvalue]
        exact (Nat.le_mul_of_pos_left _ hpos).trans (Nat.le_add_right _ _)
      have hne : value (c :: l) ≠ 0 := by
        have := Nat.pow_pos (n := l.length) (show 0 < 10 by decide)
        omega
      rw [dropWhile_cons_of_neg (by simpa using hc), if_neg hne,
        toDigits_value h (.inr ⟨by simp, by simpa using hlarge⟩)]

theorem lt_iff_digitVal_lt {c d : Char} (hc : c.isDigit = true) (hd : d.isDigit = true) :
    c < d ↔ digitVal c < digitVal d := by
  have hclt := digitVal_lt hc
  have hdlt := digitVal_lt hd
  rw [← digitChar_digitVal hc, ← digitChar_digitVal hd, digitVal_digitChar hclt,
    digitVal_digitChar hdlt]
  generalize digitVal c = m at hclt
  generalize digitVal d = n at hdlt
  interval_cases m <;> interval_cases n <;> decide

/-- Texts of one length are ordered as their numbers. -/
theorem lt_iff_value_lt {l m : List Char} (hl : AllDigits l) (hm : AllDigits m)
    (hlength : l.length = m.length) : l < m ↔ value l < value m := by
  induction l generalizing m with
  | nil =>
    obtain rfl : m = [] := length_eq_zero_iff.mp hlength.symm
    simp
  | cons c l ih =>
    rcases m with _ | ⟨d, m⟩
    · simp at hlength
    · have hl' : AllDigits l := fun x hx => hl x (mem_cons_of_mem c hx)
      have hm' : AllDigits m := fun x hx => hm x (mem_cons_of_mem d hx)
      have hlen : l.length = m.length := by simpa using hlength
      have hlow := value_lt hl'
      have hlow' := value_lt hm'
      have hdigit := lt_iff_digitVal_lt (hl c mem_cons_self) (hm d mem_cons_self)
      rw [cons_lt_cons_iff, hdigit, ih hl' hm' hlen, value_cons, value_cons, hlen]
      rw [hlen] at hlow
      rcases lt_trichotomy (digitVal c) (digitVal d) with hlt | heq | hgt
      · have hstep := Nat.mul_le_mul_right (10 ^ m.length) (Nat.succ_le_of_lt hlt)
        rw [Nat.succ_mul] at hstep
        exact iff_of_true (.inl hlt) (by omega)
      · obtain rfl : c = d := by
          rw [← digitChar_digitVal (hl c mem_cons_self), heq,
            digitChar_digitVal (hm d mem_cons_self)]
        simp
      · have hstep := Nat.mul_le_mul_right (10 ^ m.length) (Nat.succ_le_of_lt hgt)
        rw [Nat.succ_mul] at hstep
        refine iff_of_false ?_ (by omega)
        rintro (hlt | ⟨rfl, -⟩) <;> omega

theorem allDigits_toDigits (n : ℕ) : AllDigits (Nat.toDigits 10 n) :=
  fun _ hc => Nat.isDigit_of_mem_toDigits (by decide) (by decide) hc

@[simp] theorem value_toDigits (n : ℕ) : value (Nat.toDigits 10 n) = n :=
  Nat.ofDigitChars_ten_toDigits

theorem full_toDigits (n : ℕ) : Full (Nat.toDigits 10 n) := by
  have hpos : 0 < (Nat.toDigits 10 n).length := Nat.length_toDigits_pos
  rcases Nat.lt_or_ge (Nat.toDigits 10 n).length 2 with h | h
  · exact .inl (by omega)
  · refine .inr ⟨Nat.toDigits_ne_nil, ?_⟩
    have hle := Nat.length_toDigits_le_iff (b := 10) (n := n)
      (k := (Nat.toDigits 10 n).length - 1) (by decide) (by omega)
    rw [value_toDigits]
    omega

/-- The sum is as long as the longer operand, or one digit longer and then its value needs
that digit. -/
theorem length_addLoop (hc : carry ≤ 1) (hl : AllDigits left) (hr : AllDigits right)
    (hfl : left.length < fuel) (hfr : right.length < fuel) :
    (addLoop fuel carry left right).length = max left.length right.length ∨
      ((addLoop fuel carry left right).length = max left.length right.length + 1 ∧
        10 ^ max left.length right.length ≤ valueRev (addLoop fuel carry left right)) := by
  induction fuel generalizing carry left right with
  | zero => omega
  | succ _ ih =>
    have hval := valueRev_addLoop hc hl hr hfl hfr
    rcases Nat.eq_zero_or_pos (max left.length right.length) with h0 | hpos
    · obtain rfl : left = [] := length_eq_zero_iff.mp (by omega)
      obtain rfl : right = [] := length_eq_zero_iff.mp (by omega)
      interval_cases carry
      · exact .inl (by simp [addLoop])
      · refine .inr ⟨?_, by simp [hval]⟩
        simp [addLoop, addLoop_nil_zero]
    · have hne : ¬(left = [] ∧ right = [] ∧ carry = 0) := by
        rintro ⟨rfl, rfl, -⟩
        simp at hpos
      have hmax : max left.tail.length right.tail.length + 1 =
          max left.length right.length := by
        simp only [length_tail]
        omega
      unfold addLoop at hval ⊢
      rw [if_neg hne] at hval ⊢
      simp only [length_cons, valueRev_cons] at hval ⊢
      rcases ih (column_carry_le hc hl hr) hl.tail hr.tail
          (by rw [length_tail]; omega) (by rw [length_tail]; omega) with
        h | ⟨h, hbig⟩
      · exact .inl (by rw [h, hmax])
      · refine .inr ⟨by rw [h, hmax], ?_⟩
        rw [← hmax, Nat.pow_succ]
        omega

/-- The sum has at least as many digits as the first operand. -/
theorem length_add_ge (left right : List Char) : left.length ≤ (add left right).length := by
  have hloop : ∀ (fuel carry : ℕ) (l r : List Char), l.length < fuel →
      l.length ≤ (addLoop fuel carry l r).length := by
    intro fuel
    induction fuel with
    | zero => intro carry l r h; omega
    | succ _ ih =>
      intro carry l r h
      unfold addLoop
      split
      · next hl => simp [hl.1]
      · cases l with
        | nil => simp
        | cons _ l =>
          simp only [length_cons, tail_cons] at h ⊢
          exact Nat.succ_le_succ (ih _ l _ (by omega))
  simpa [add] using hloop (max left.length right.length + 1) 0 left.reverse right.reverse (by simp)

/-- The sum has one digit more than its operands only when it needs it. -/
theorem length_add (hl : AllDigits left) (hr : AllDigits right) :
    (add left right).length = max left.length right.length ∨
      ((add left right).length = max left.length right.length + 1 ∧
        10 ^ max left.length right.length ≤ value left + value right) := by
  have hlen := @length_addLoop left.reverse right.reverse (max left.length right.length + 1) 0
    (Nat.zero_le 1) hl.reverse hr.reverse (by simp) (by simp)
  have hadd : (add left right).length = (addLoop (max left.length right.length + 1) 0
      left.reverse right.reverse).length := by simp [add]
  rw [← value_reverse, ← add, ← hadd, length_reverse, length_reverse, value_add hl hr] at hlen
  exact hlen

/-- A sum that is small enough keeps to a number of digits that its operands keep to. -/
theorem length_add_le {digits : ℕ} (hl : AllDigits left)
    (hr : AllDigits right) (hleft : left.length ≤ digits) (hright : right.length ≤ digits)
    (h : value left + value right < 10 ^ digits) : (add left right).length ≤ digits := by
  rcases length_add hl hr with hlen | ⟨hlen, hbig⟩
  · omega
  · have hlt : max left.length right.length < digits :=
      (Nat.pow_lt_pow_iff_right (by decide)).mp (hbig.trans_lt h)
    omega

theorem full_add (hl : AllDigits left) (hr : AllDigits right)
    (hfl : Full left) (hfr : Full right) : Full (add left right) := by
  have hlen := length_add hl hr
  have hval := value_add hl hr
  have hposl : 0 < left.length := by
    rcases hfl with h | ⟨h, -⟩
    · omega
    · exact length_pos_of_ne_nil h
  have hne : add left right ≠ [] := by
    intro h
    rw [h, length_nil] at hlen
    omega
  rcases hlen with h | ⟨h, hbig⟩
  · rcases Nat.lt_or_ge (add left right).length 2 with h2 | h2
    · exact .inl (by omega)
    · refine .inr ⟨hne, ?_⟩
      rw [hval, h]
      -- The longer operand already needs all its digits.
      rcases Nat.le_total left.length right.length with hle | hle
      · rcases hfr with hr1 | ⟨-, hr1⟩
        · omega
        · rw [Nat.max_eq_right hle]
          omega
      · rcases hfl with hl1 | ⟨-, hl1⟩
        · omega
        · rw [Nat.max_eq_left hle]
          omega
  · exact .inr ⟨hne, by rw [h, Nat.add_sub_cancel, hval]; exact hbig⟩

/-- On decimal texts of numbers, schoolbook addition is addition. -/
theorem add_toDigits (a b : ℕ) :
    add (Nat.toDigits 10 a) (Nat.toDigits 10 b) = Nat.toDigits 10 (a + b) := by
  have ha := allDigits_toDigits a
  have hb := allDigits_toDigits b
  rw [← toDigits_value (allDigits_add _ _) (full_add ha hb (full_toDigits a) (full_toDigits b)),
    value_add ha hb, value_toDigits, value_toDigits]

/-! ## Fractions -/

/-- Digits after the point, left-aligned to a scale. -/
theorem scaled_div {integer fraction digits scale : ℕ} (h : digits ≤ scale) :
    (((integer * 10 ^ digits + fraction) * 10 ^ (scale - digits) : ℕ) : ℚ) / 10 ^ scale =
      integer + fraction / 10 ^ digits := by
  obtain ⟨_, rfl⟩ := Nat.exists_eq_add_of_le h
  rw [Nat.add_sub_cancel_left, pow_add]
  push_cast
  field_simp

/-- A digit is one byte, and neither white space nor the point. -/
theorem plain_of_isDigit (h : c.isDigit = true) :
    Text.isWhitespace c = false ∧ c.utf8Size = 1 ∧ c ≠ '.' := by
  have hlt := digitVal_lt h
  rw [← digitChar_digitVal h]
  generalize digitVal c = digit at hlt
  interval_cases digit <;> decide

section Written

variable {integer fraction : List Char} (hinteger : AllDigits integer)
  (hfraction : AllDigits fraction)

include hinteger hfraction

theorem mem_written {c : Char} (hc : c ∈ integer ++ '.' :: fraction) :
    Text.isWhitespace c = false ∧ c.utf8Size = 1 := by
  rcases mem_append.mp hc with hc | hc
  · exact ⟨(plain_of_isDigit (hinteger c hc)).1, (plain_of_isDigit (hinteger c hc)).2.1⟩
  · rcases mem_cons.mp hc with rfl | hc
    · decide
    · exact ⟨(plain_of_isDigit (hfraction c hc)).1, (plain_of_isDigit (hfraction c hc)).2.1⟩

theorem trim_written : Text.trim (.ofList (integer ++ '.' :: fraction)) =
    .ofList (integer ++ '.' :: fraction) := by
  refine Text.trim_eq_self fun c hc => ?_
  rw [String.toList_ofList] at hc
  exact (mem_written hinteger hfraction hc).1

end Written

end Decimal
