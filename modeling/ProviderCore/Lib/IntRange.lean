import Mathlib.Tactic.Linarith

/-!
# Machine integers as bounded integers

A machine integer is an integer together with the proof that it is in range, so a value that
does not fit cannot be built.  The width is a parameter: `tryFrom` is the checked conversion
between any two widths, and the checked operations compute in `ℤ` and convert back.
-/

/-- The integers in `[lo, hi)`. -/
@[ext] structure IntRange (lo hi : ℤ) where
  val : ℤ
  le : lo ≤ val
  lt : val < hi
deriving DecidableEq

namespace IntRange

variable {lo hi : ℤ}

/-- A literal, whose range is checked by evaluation. -/
def lit (n : ℤ) (fits : decide (lo ≤ n ∧ n < hi) = true) : IntRange lo hi :=
  ⟨n, (of_decide_eq_true fits).1, (of_decide_eq_true fits).2⟩

@[simp] theorem lit_val (n : ℤ) (fits : decide (lo ≤ n ∧ n < hi) = true) :
    (lit n fits : IntRange lo hi).val = n := rfl

def tryFrom (n : ℤ) : Option (IntRange lo hi) :=
  if h : lo ≤ n ∧ n < hi then some ⟨n, h.1, h.2⟩ else none

variable {n : ℤ}

theorem tryFrom_eq_some {x : IntRange lo hi} : tryFrom n = some x ↔ n = x.val := by
  constructor
  · intro h
    unfold tryFrom at h
    split at h
    · cases h
      rfl
    · cases h
  · rintro rfl
    rw [tryFrom, dif_pos ⟨x.le, x.lt⟩]

theorem tryFrom_eq_none : (tryFrom n : Option (IntRange lo hi)) = none ↔ n < lo ∨ hi ≤ n := by
  unfold tryFrom
  split <;> simp <;> omega

theorem tryFrom_isSome : (tryFrom n : Option (IntRange lo hi)).isSome = true ↔ lo ≤ n ∧ n < hi := by
  unfold tryFrom
  split <;> simp <;> omega

theorem tryFrom_map_val :
    (tryFrom n : Option (IntRange lo hi)).map val = if lo ≤ n ∧ n < hi then some n else none := by
  unfold tryFrom
  split <;> rfl

@[simp] theorem tryFrom_val (x : IntRange lo hi) : tryFrom x.val = some x :=
  tryFrom_eq_some.mpr rfl

def checkedAdd (x y : IntRange lo hi) : Option (IntRange lo hi) := tryFrom (x.val + y.val)

def checkedSub (x y : IntRange lo hi) : Option (IntRange lo hi) := tryFrom (x.val - y.val)

theorem checkedAdd_eq_some {x y z : IntRange lo hi} :
    x.checkedAdd y = some z ↔ x.val + y.val = z.val :=
  tryFrom_eq_some

def saturatingAdd (x : IntRange lo hi) (n : ℕ) : IntRange lo hi :=
  if h : x.val + n < hi then ⟨x.val + n, by have := x.le; omega, h⟩
  else ⟨hi - 1, by have := x.le; have := x.lt; omega, by omega⟩

theorem le_saturatingAdd (x : IntRange lo hi) (n : ℕ) : x.val ≤ (x.saturatingAdd n).val := by
  have hlt := x.lt
  unfold saturatingAdd
  split
  · simp
  · change x.val ≤ hi - 1
    omega

end IntRange

/-! ## The widths in use -/

abbrev I64 := IntRange (-9223372036854775808) 9223372036854775808

abbrev I128 :=
  IntRange (-170141183460469231731687303715884105728) 170141183460469231731687303715884105728

abbrev U16 := IntRange 0 65536

abbrev U32 := IntRange 0 4294967296

abbrev U64 := IntRange 0 18446744073709551616
