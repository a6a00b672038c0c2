import ProviderCore.Auth.Atoms

/-!
# Amounts without rounding

Comparing, reading and writing digit strings (`provider-auth/src/model.rs`).  All of it is exact:
a comparison is the order of the numbers whatever zeros lead them, a limit is read as the number of
atoms its decimal stands for, and what is written for an amount is read as the same amount.
-/

namespace ProviderCore.Auth

open List Decimal

/-! ## Comparing and writing -/

/-- A digit string without leading zeros. -/
def normalizeAtoms (value : List Char) : List Char :=
  let trimmed := value.dropWhile (· = '0')
  if trimmed = [] then ['0'] else trimmed

def atomsGe (left right : String) : Except UsdAtomsError Bool := do
  validateAtoms left
  validateAtoms right
  let left := normalizeAtoms left.toList
  let right := normalizeAtoms right.toList
  return match compare left.length right.length with
    | .gt => true
    | .lt => false
    | .eq => decide (¬left < right)

/-- The decimal text of an amount, with all fractional digits. -/
def formatUsdAtoms (atoms : String) : Except UsdAtomsError String := do
  validateAtoms atoms
  let digits := atoms.toList
  return .ofList <|
    if digits.length ≤ usdAtomScale then
      '0' :: '.' :: (replicate (usdAtomScale - digits.length) '0' ++ digits)
    else
      let split := digits.length - usdAtomScale
      digits.take split ++ '.' :: digits.drop split

/-! ## The order -/

theorem normalizeAtoms_eq {value : List Char} (h : Decimal.AllDigits value) :
    normalizeAtoms value = Nat.toDigits 10 (Decimal.value value) := by
  unfold normalizeAtoms
  rw [dropWhile_zero h]
  by_cases hzero : Decimal.value value = 0
  · simp [hzero]
  · simp [hzero]

theorem length_toDigits_lt {m n : ℕ}
    (h : (Nat.toDigits 10 m).length < (Nat.toDigits 10 n).length) : m < n := by
  have hpos : 0 < (Nat.toDigits 10 m).length := Nat.length_toDigits_pos
  have hm := (Nat.length_toDigits_le_iff (b := 10) (n := m) (by decide) hpos).mp le_rfl
  have hn := (Nat.length_toDigits_le_iff (b := 10) (n := n) (by decide) hpos).not.mp (by omega)
  omega

/-- The comparison is that of the numbers. -/
theorem atomsGe_eq {left right : String} (hl : ValidAtoms left) (hr : ValidAtoms right) :
    atomsGe left right = .ok (decide (atomsValue right ≤ atomsValue left)) := by
  unfold atomsGe validateAtoms
  simp only [hl, hr, if_true, bind, Except.bind, normalizeAtoms_eq hl.2.2, normalizeAtoms_eq hr.2.2]
  unfold atomsValue
  generalize Decimal.value left.toList = m
  generalize Decimal.value right.toList = n
  refine congrArg Except.ok ?_
  rcases hcompare : compare (Nat.toDigits 10 m).length (Nat.toDigits 10 n).length
  · have hlt := length_toDigits_lt (compare_lt_iff_lt.mp hcompare)
    simp [hlt]
  · have horder := lt_iff_value_lt (allDigits_toDigits m)
      (allDigits_toDigits n) (compare_eq_iff_eq.mp hcompare)
    simp [horder]
  · have hlt := length_toDigits_lt (compare_gt_iff_gt.mp hcompare)
    simp [hlt.le]

/-! ## Limits -/

/-- A decimal of digits, with a point and digits after it or neither, and its value in dollars. -/
def AmountOf (input : String) (usd : ℚ) : Prop :=
  ∃ whole fraction : List Char, whole ≠ [] ∧ Decimal.AllDigits whole ∧
    Decimal.AllDigits fraction ∧ fraction.length ≤ usdAtomScale ∧
      (Text.trim input).toList = (if fraction = [] then whole else whole ++ '.' :: fraction) ∧
        usd = Decimal.value whole + Decimal.value fraction / 10 ^ fraction.length

/-- The atoms of the digits before and after the point. -/
def atomsOf (whole fraction : List Char) : ℕ :=
  (Decimal.value whole * 10 ^ fraction.length + Decimal.value fraction) *
    10 ^ (usdAtomScale - fraction.length)

variable {whole fraction : List Char} {atoms : String}

theorem quotaLimitAtoms_eq_ok :
    quotaLimitAtoms whole fraction = .ok atoms ↔
      (whole ≠ [] ∧ Decimal.AllDigits whole ∧ Decimal.AllDigits fraction ∧
        fraction.length ≤ usdAtomScale) ∧
      0 < atomsOf whole fraction ∧ atomsOf whole fraction < 10 ^ 64 ∧
        toString (atomsOf whole fraction) = atoms := by
  by_cases hform : whole = [] ∨ ¬Decimal.AllDigits whole ∨ ¬Decimal.AllDigits fraction ∨
      usdAtomScale < fraction.length
  · rw [quotaLimitAtoms, if_pos hform]
    refine iff_of_false (by simp) ?_
    rintro ⟨⟨h₁, h₂, h₃, h₄⟩, -⟩
    rcases hform with h | h | h | h
    · exact h₁ h
    · exact h h₂
    · exact h h₃
    · omega
  · have hform' := hform
    simp only [not_or, not_not, not_lt] at hform'
    obtain ⟨hne, hwhole, hfraction, hlength⟩ := hform'
    have hdigits : Decimal.AllDigits (normalizeAtoms whole ++ (fraction ++
        replicate (usdAtomScale - fraction.length) '0')) := by
      rw [normalizeAtoms_eq hwhole]
      intro c hc
      simp only [mem_append, mem_replicate] at hc
      rcases hc with hc | hc | ⟨-, rfl⟩
      · exact allDigits_toDigits _ c hc
      · exact hfraction c hc
      · rfl
    have hvalue : Decimal.value (normalizeAtoms whole ++ (fraction ++
        replicate (usdAtomScale - fraction.length) '0')) = atomsOf whole fraction := by
      rw [normalizeAtoms_eq hwhole, ← append_assoc, value_append, value_append, value_toDigits,
        value_replicate_zero, length_replicate, Nat.add_zero, atomsOf]
    have hdrop := dropWhile_zero hdigits
    rw [hvalue] at hdrop
    unfold normalizeAtoms at hdrop
    simp only [quotaLimitAtoms, if_neg hform, hdrop]
    rw [and_iff_right ⟨hne, hwhole, hfraction, hlength⟩]
    rcases Nat.eq_zero_or_pos (atomsOf whole fraction) with hzero | hpos
    · simp [hzero]
    · have hsize := Nat.length_toDigits_le_iff (b := 10) (k := 64)
        (n := atomsOf whole fraction) (by decide) (by decide)
      rw [if_neg hpos.ne', Nat.toString_eq_ofList_toDigits, ← hsize]
      split_ifs with hlong
      · refine iff_of_false (by simp) fun h => ?_
        rcases hlong with hnil | hlong
        · exact Nat.toDigits_ne_nil hnil
        · omega
      · simp only [not_or, not_lt] at hlong
        simp [hpos, hlong.2]

theorem atomsOf_div (h : fraction.length ≤ usdAtomScale) :
    (atomsOf whole fraction / 10 ^ usdAtomScale : ℚ) =
      Decimal.value whole + Decimal.value fraction / 10 ^ fraction.length :=
  scaled_div h

/-- The point of an amount is the first one. -/
theorem parseQuotaLimitUsd_eq {input : String} (hne : whole ≠ []) (hwhole : Decimal.AllDigits whole)
    (h : (Text.trim input).toList = if fraction = [] then whole else whole ++ '.' :: fraction) :
    parseQuotaLimitUsd input = quotaLimitAtoms whole fraction := by
  have hpoint : '.' ∉ whole := fun hmem => (plain_of_isDigit (hwhole '.' hmem)).2.2 rfl
  simp only [parseQuotaLimitUsd, h]
  rcases fraction with _ | ⟨c, fraction⟩
  · simp [hne, Text.splitOnce_eq_none.mpr hpoint]
  · simp [Text.splitOnce_append hpoint]

/-- A limit is read exactly from the positive decimals that fit, as their number of atoms. -/
theorem parseQuotaLimitUsd_eq_ok {input atoms : String} :
    parseQuotaLimitUsd input = .ok atoms ↔ ∃ n : ℕ, AmountOf input (n / 10 ^ usdAtomScale) ∧
      0 < n ∧ n < 10 ^ 64 ∧ toString n = atoms := by
  constructor
  · intro h
    obtain ⟨whole, fraction, hchars, hlimit⟩ : ∃ whole fraction,
        (Text.trim input).toList = (if fraction = [] then whole else whole ++ '.' :: fraction) ∧
          quotaLimitAtoms whole fraction = .ok atoms := by
      simp only [parseQuotaLimitUsd] at h
      split at h
      · cases h
      split at h
      · cases h
      · next whole fraction hsome hcut =>
          refine ⟨whole, fraction, ?_, h⟩
          rw [(Text.splitOnce_eq_some.mp hcut).1, if_neg hsome]
      · exact ⟨_, [], by simp, h⟩
    obtain ⟨⟨hne, hwhole, hfraction, hlength⟩, hrest⟩ := quotaLimitAtoms_eq_ok.mp hlimit
    exact ⟨_, ⟨whole, fraction, hne, hwhole, hfraction, hlength, hchars, atomsOf_div hlength⟩,
      hrest⟩
  · rintro ⟨n, ⟨whole, fraction, hne, hwhole, hfraction, hlength, hchars, hvalue⟩, hrest⟩
    obtain rfl : n = atomsOf whole fraction := by
      have hsame := hvalue.trans (atomsOf_div hlength).symm
      rwa [div_left_inj' (by positivity), Nat.cast_inj] at hsame
    rw [parseQuotaLimitUsd_eq hne hwhole hchars, quotaLimitAtoms_eq_ok]
    exact ⟨⟨hne, hwhole, hfraction, hlength⟩, hrest⟩

/-- An amount is written as a decimal with all fractional digits. -/
theorem formatUsdAtoms_eq (h : ValidAtoms atoms) :
    ∃ whole fraction, formatUsdAtoms atoms = .ok (.ofList (whole ++ '.' :: fraction)) ∧
      whole ≠ [] ∧ Decimal.AllDigits whole ∧ Decimal.AllDigits fraction ∧
        fraction.length = usdAtomScale ∧ atomsOf whole fraction = atomsValue atoms := by
  have hdigits := h.2.2
  have htext (digits : List Char) : (validateAtoms atoms >>= fun _ => pure (String.ofList digits)) =
      Except.ok (.ofList digits) := by
    rw [validateAtoms, if_pos h]
    rfl
  have hvalue (whole fraction : List Char) (hlength : fraction.length = usdAtomScale) :
      atomsOf whole fraction = Decimal.value (whole ++ fraction) := by
    rw [atomsOf, hlength, Nat.sub_self, pow_zero, Nat.mul_one, value_append, hlength]
  rw [formatUsdAtoms, htext]
  split_ifs with hshort
  · have hlength : (replicate (usdAtomScale - atoms.toList.length) '0' ++
        atoms.toList).length = usdAtomScale := by
      rw [length_append, length_replicate]
      omega
    refine ⟨['0'], _, rfl, by simp, by decide, ?_, hlength, ?_⟩
    · intro c hc
      rcases mem_append.mp hc with hc | hc
      · rw [eq_of_mem_replicate hc]
        rfl
      · exact hdigits c hc
    · rw [hvalue _ _ hlength, ← append_assoc, value_append, ← replicate_one,
        replicate_append_replicate, value_replicate_zero, Nat.zero_mul, Nat.zero_add]
      rfl
  · have hlength : (atoms.toList.drop (atoms.toList.length - usdAtomScale)).length =
        usdAtomScale := by
      rw [length_drop]
      omega
    refine ⟨_, _, rfl, ?_, fun c hc => hdigits c (mem_of_mem_take hc),
      fun c hc => hdigits c (mem_of_mem_drop hc), hlength, ?_⟩
    · intro hnil
      have := congrArg List.length hnil
      rw [length_take, length_nil] at this
      omega
    · rw [hvalue _ _ hlength, take_append_drop]
      rfl

/-- What is written for a positive amount is read as that amount. -/
theorem parse_formatUsdAtoms (h : ValidAtoms atoms) (hpos : 0 < atomsValue atoms) :
    ∃ text, formatUsdAtoms atoms = .ok text ∧
      parseQuotaLimitUsd text = .ok (toString (atomsValue atoms)) := by
  obtain ⟨whole, fraction, hformat, hne, hwhole, hfraction, hlength, hvalue⟩ := formatUsdAtoms_eq h
  have hfits : atomsValue atoms < 10 ^ 64 :=
    (value_lt h.2.2).trans_le (Nat.pow_le_pow_right (by decide) h.2.1)
  have hfraction' : fraction ≠ [] := by
    rintro rfl
    cases hlength
  refine ⟨_, hformat, ?_⟩
  have hchars : (Text.trim (.ofList (whole ++ '.' :: fraction))).toList =
      if fraction = [] then whole else whole ++ '.' :: fraction := by
    rw [trim_written hwhole hfraction, String.toList_ofList, if_neg hfraction']
  rw [parseQuotaLimitUsd_eq hne hwhole hchars, quotaLimitAtoms_eq_ok, hvalue]
  exact ⟨⟨hne, hwhole, hfraction, hlength.le⟩, hpos, hfits, rfl⟩

end ProviderCore.Auth
