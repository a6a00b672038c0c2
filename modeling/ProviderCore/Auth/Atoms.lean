import ProviderCore.Lib.Decimal

/-!
# Spend as digit strings

`provider-auth/src/model.rs` keeps an API key's lifetime spend and its limit as decimal texts of
at most 64 digits, in atoms of `10 ^ -14` USD.  `addAtoms` is the digit-by-digit addition of the
source over `Decimal.add`; `atomsValue` is the number a text stands for.
-/

namespace ProviderCore.Auth

open Decimal

/-- The rejection of a text that is not an amount, or of a sum that needs too many digits. -/
structure UsdAtomsError where
deriving DecidableEq

/-- One to 64 ASCII digits. -/
def ValidAtoms (value : String) : Prop :=
  value.toList ≠ [] ∧ value.toList.length ≤ 64 ∧ Decimal.AllDigits value.toList

instance (value : String) : Decidable (ValidAtoms value) :=
  inferInstanceAs (Decidable (_ ∧ _ ∧ _))

def validateAtoms (value : String) : Except UsdAtomsError Unit :=
  if ValidAtoms value then .ok () else .error {}

def addAtoms (left right : String) : Except UsdAtomsError String := do
  validateAtoms left
  validateAtoms right
  let text := String.ofList (Decimal.add left.toList right.toList)
  if 64 < text.toList.length then .error {} else .ok text

/-- The fractional digits of an atom. -/
def usdAtomScale : ℕ := 14

/-- The atoms of an amount cut at its decimal point. -/
def quotaLimitAtoms (whole fraction : List Char) : Except UsdAtomsError String :=
  if whole = [] ∨ ¬Decimal.AllDigits whole ∨ ¬Decimal.AllDigits fraction ∨
      usdAtomScale < fraction.length then .error {}
  else
    let whole := whole.dropWhile (· = '0')
    let whole := if whole = [] then ['0'] else whole
    let fraction := fraction ++ List.replicate (usdAtomScale - fraction.length) '0'
    let atoms := (whole ++ fraction).dropWhile (· = '0')
    if atoms = [] ∨ 64 < atoms.length then .error {} else .ok (.ofList atoms)

/-- Parse a positive USD amount into atoms. -/
def parseQuotaLimitUsd (input : String) : Except UsdAtomsError String :=
  let input := (Text.trim input).toList
  if input = [] then .error {}
  else match Text.splitOnce '.' input with
    | some (_, []) => .error {}
    | some (whole, fraction) => quotaLimitAtoms whole fraction
    | none => quotaLimitAtoms input []

/-- The amount a digit string stands for. -/
def atomsValue (value : String) : ℕ := Decimal.value value.toList

/-- What a successful addition says: both operands were amounts, and so is the sum. -/
theorem addAtoms_eq_ok {left right text : String} (h : addAtoms left right = .ok text) :
    ValidAtoms left ∧ ValidAtoms right ∧ ValidAtoms text ∧
      atomsValue text = atomsValue left + atomsValue right := by
  unfold addAtoms validateAtoms at h
  by_cases hl : ValidAtoms left
  · by_cases hr : ValidAtoms right
    · simp only [hl, hr, if_true, Except.bind, bind] at h
      split at h
      · cases h
      · next hlen =>
          cases h
          have hdigits := allDigits_add left.toList right.toList
          refine ⟨hl, hr, ⟨?_, by omega, by simpa using hdigits⟩, ?_⟩
          · intro hnil
            simp only [String.toList_ofList] at hnil
            have hlenl := List.length_pos_of_ne_nil hl.1
            have hsum := length_add_ge left.toList right.toList
            rw [hnil, List.length_nil] at hsum
            omega
          · simpa [atomsValue] using value_add hl.2.2 hr.2.2
    · simp [hl, hr, bind, Except.bind] at h
  · simp [hl, bind, Except.bind] at h

/-- An addition succeeds when the sum has 64 digits. -/
theorem exists_addAtoms {left right : String} (hl : ValidAtoms left) (hr : ValidAtoms right)
    (h : atomsValue left + atomsValue right < 10 ^ 64) :
    ∃ text, addAtoms left right = .ok text := by
  have hlength := length_add_le hl.2.2 hr.2.2 hl.2.1 hr.2.1 h
  unfold addAtoms validateAtoms
  simp only [hl, hr, if_true, bind, Except.bind, String.toList_ofList]
  rw [if_neg (by omega)]
  exact ⟨_, rfl⟩

/-! ## Numbers as texts -/

/-- The decimal text of a number below `10 ^ 64` is an amount. -/
theorem validAtoms_toString {n : ℕ} (h : n < 10 ^ 64) : ValidAtoms (toString n) := by
  rw [Nat.toString_eq_ofList_toDigits]
  refine ⟨by simp, ?_, by simpa using allDigits_toDigits n⟩
  rw [String.toList_ofList]
  exact (Nat.length_toDigits_le_iff (by decide) (by decide)).mpr h

@[simp] theorem atomsValue_toString (n : ℕ) : atomsValue (toString n) = n := by
  rw [Nat.toString_eq_ofList_toDigits, atomsValue, String.toList_ofList, value_toDigits]

/-- The text of an integer is an amount only if the integer is not negative. -/
theorem nonneg_of_validAtoms {z : ℤ} (h : ValidAtoms (toString z)) : 0 ≤ z := by
  cases z with
  | ofNat n => exact Int.natCast_nonneg n
  | negSucc n =>
    have hminus : '-' ∈ (toString (Int.negSucc n)).toList := by
      change '-' ∈ ("-" ++ toString (n + 1)).toList
      simp
    exact absurd (h.2.2 '-' hminus) (by decide)

theorem toString_of_nonneg {z : ℤ} (h : 0 ≤ z) : toString z = toString z.toNat := by
  obtain ⟨n, rfl⟩ := Int.eq_ofNat_of_zero_le h
  rfl

/-- On decimal texts of numbers the addition is exact, as long as the sum has 64 digits. -/
theorem addAtoms_toString {a b : ℕ} (h : a + b < 10 ^ 64) :
    addAtoms (toString a) (toString b) = .ok (toString (a + b)) := by
  have ha : ValidAtoms (toString a) := validAtoms_toString (by omega)
  have hb : ValidAtoms (toString b) := validAtoms_toString (by omega)
  have hab : ValidAtoms (toString (a + b)) := validAtoms_toString h
  have hsum : Decimal.add (toString a).toList (toString b).toList = (toString (a + b)).toList := by
    simp [add_toDigits]
  unfold addAtoms validateAtoms
  simp only [ha, hb, if_true, bind, Except.bind, hsum, String.ofList_toList]
  rw [if_neg (by have := hab.2.1; omega)]

end ProviderCore.Auth
