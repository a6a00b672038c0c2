import ProviderCore.Usage.CostSign

/-!
# Prices as texts

A price is read from its decimal text without rounding (`parseUnitPrice_eq_some`) and written back
with eight fractional digits.  The text that is written may be longer than the one that was read,
and a text that is too long is not read again: `canonical_stable_iff` says that canonical pricing
is stable exactly below `10 ^ 23` dollars per million tokens.
-/

namespace ProviderCore.Usage

open List IntRange Decimal

/-! ## Reading -/

/-- The digits before and after the point of a decimal text. -/
def decimalParts (text : String) : List Char × List Char :=
  let chars := (Text.trim text).toList
  (Text.splitOnce '.' chars).getD (chars, [])

/-- There are digits on one side of the point at least, and nothing but digits. -/
structure IsDecimal (text : String) : Prop where
  nonempty : (decimalParts text).1 ++ (decimalParts text).2 ≠ []
  integer : Decimal.AllDigits (decimalParts text).1
  fraction : Decimal.AllDigits (decimalParts text).2

theorem isDecimal_iff (text : String) : IsDecimal text ↔
    (decimalParts text).1 ++ (decimalParts text).2 ≠ [] ∧
      Decimal.AllDigits (decimalParts text).1 ∧ Decimal.AllDigits (decimalParts text).2 :=
  ⟨fun h => ⟨h.nonempty, h.integer, h.fraction⟩, fun h => ⟨h.1, h.2.1, h.2.2⟩⟩

instance (text : String) : Decidable (IsDecimal text) :=
  decidable_of_iff _ (isDecimal_iff text).symm

/-- The number that a plain decimal text stands for. -/
def decimalNumber (text : String) : Option ℚ :=
  if IsDecimal text then
    some (value (decimalParts text).1 +
      value (decimalParts text).2 / 10 ^ (decimalParts text).2.length)
  else none

/-- The digits of a text, left-aligned to the scale of a price. -/
def scaledDigits (text : String) : List Char :=
  (decimalParts text).1 ++ (decimalParts text).2 ++
    replicate (priceScale - (decimalParts text).2.length) '0'

/-- Appending a digit to a number that may already be too large. -/
theorem tryFrom_bind_pushDigit {n : ℤ} (hn : 0 ≤ n) (digit : ℕ) :
    ((tryFrom n : Option I128).bind fun scaled => pushDigit scaled digit) =
      tryFrom (n * 10 + digit) := by
  have hmore {m n : ℤ} (hm : 0 ≤ m) (hle : m ≤ n)
      (h : (tryFrom m : Option I128) = none) :
      (tryFrom n : Option I128) = none := by
    have hlarge := tryFrom_eq_none.mp h
    exact tryFrom_eq_none.mpr (.inr (by omega))
  rcases hfirst : (tryFrom n : Option I128) with _ | scaled
  · exact (hmore hn (by omega) hfirst).symm
  · obtain rfl := tryFrom_eq_some.mp hfirst
    rw [Option.bind_some, pushDigit]
    rcases hshift : (tryFrom (scaled.val * 10) : Option I128) with _ | shifted
    · exact (hmore (by omega) (by omega) hshift).symm
    · rw [Option.bind_some, ← tryFrom_eq_some.mp hshift]

/-- The digit loop reads the value of the digits. -/
theorem foldlM_pushDigit (digits : List Char) :
    digits.foldlM (fun scaled c => pushDigit scaled (digitVal c)) UsdAtoms.zero =
      tryFrom (value digits : ℤ) := by
  induction digits using List.reverseRecOn with
  | nil => exact (tryFrom_val UsdAtoms.zero).symm
  | append_singleton _ c ih =>
    have hlast : ∀ scaled : I128, ([c].foldlM (fun scaled c => pushDigit scaled
        (digitVal c)) scaled) = pushDigit scaled (digitVal c) := by
      intro scaled
      exact bind_pure _
    rw [foldlM_append, ih, value_append_singleton, Option.bind_eq_bind, funext hlast,
      tryFrom_bind_pushDigit (Int.natCast_nonneg _), Nat.cast_add, Nat.cast_mul, mul_comm]
    rfl

/-- Left-aligning the fraction appends zeros. -/
theorem foldlM_zeros (scaled : I128) (n : ℕ) :
    (replicate n 0).foldlM pushDigit scaled = (replicate n '0').foldlM
      (fun scaled c => pushDigit scaled (digitVal c)) scaled := by
  have hzeros : replicate n 0 = (replicate n '0').map digitVal :=
    (map_replicate (f := digitVal) (a := '0')).symm
  rw [hzeros, foldlM_map]

theorem foldlM_scaledDigits (text : String) :
    ((((decimalParts text).1 ++ (decimalParts text).2).foldlM
        (fun scaled c => pushDigit scaled (digitVal c)) UsdAtoms.zero).bind
      fun scaled => (replicate (priceScale - (decimalParts text).2.length) 0).foldlM
        pushDigit scaled) = tryFrom (value (scaledDigits text) : ℤ) := by
  rw [← foldlM_pushDigit, scaledDigits, foldlM_append (l := _ ++ _), Option.bind_eq_bind]
  simp [foldlM_zeros]

variable {text : String}

/-- A price is read exactly when its text is short and plain, has at most eight fractional digits
and fits, and then it is the number of its digits. -/
theorem parseUnitPrice_eq_some {price : UnitPrice} :
    parseUnitPrice text = some price ↔
      (Text.trim text).utf8ByteSize ≤ maxPriceLiteral ∧ IsDecimal text ∧
        (decimalParts text).2.length ≤ priceScale ∧
          (value (scaledDigits text) : ℤ) = price.val := by
  have hloop := foldlM_scaledDigits text
  have hempty : Text.trim text = "" → (decimalParts text).1 ++ (decimalParts text).2 = [] := by
    intro htrim
    rw [decimalParts, htrim]
    rfl
  rw [isDecimal_iff, ← tryFrom_eq_some, ← hloop]
  clear hloop
  have hread : (Text.splitOnce '.' (Text.trim text).toList).getD ((Text.trim text).toList, []) =
      decimalParts text := rfl
  simp only [parseUnitPrice, hread]
  generalize decimalParts text = parts at hempty ⊢
  rw [ne_eq, append_eq_nil_iff] at *
  simp only [List.isEmpty_iff, String.isEmpty_iff]
  split_ifs <;> grind

theorem value_scaledDigits (text : String) :
    value (scaledDigits text) = (value (decimalParts text).1 *
      10 ^ (decimalParts text).2.length + value (decimalParts text).2) *
        10 ^ (priceScale - (decimalParts text).2.length) := by
  rw [scaledDigits, value_append, value_append, value_replicate_zero,
    length_replicate, Nat.add_zero]

/-- Reading a price does not round. -/
theorem decimalNumber_of_parseUnitPrice {price : UnitPrice} (h : parseUnitPrice text = some price) :
    decimalNumber text = some (price.val / 10 ^ priceScale : ℚ) := by
  obtain ⟨-, hdecimal, hscale, hvalue⟩ := parseUnitPrice_eq_some.mp h
  rw [decimalNumber, if_pos hdecimal, ← hvalue, value_scaledDigits, Int.cast_natCast,
    scaled_div hscale]

/-! ## Writing (`money.rs`) -/

def paddedDigits (width n : ℕ) : List Char :=
  replicate (width - (Nat.toDigits 10 n).length) '0' ++ Nat.toDigits 10 n

def UnitPrice.toDecimalString (price : UnitPrice) : String :=
  let magnitude := price.val.natAbs
  let divisor := 10 ^ priceScale
  let sign := if price.val < 0 then ['-'] else []
  .ofList (sign ++ Nat.toDigits 10 (magnitude / divisor) ++
    '.' :: paddedDigits priceScale (magnitude % divisor))

theorem allDigits_paddedDigits (width n : ℕ) : Decimal.AllDigits (paddedDigits width n) := by
  intro c hc
  rcases mem_append.mp hc with hc | hc
  · rw [eq_of_mem_replicate hc]
    rfl
  · exact allDigits_toDigits n c hc

theorem value_paddedDigits (width n : ℕ) : value (paddedDigits width n) = n := by
  rw [paddedDigits, value_append, value_replicate_zero, Nat.zero_mul, Nat.zero_add, value_toDigits]

theorem length_paddedDigits {width n : ℕ} (hwidth : 0 < width) (hn : n < 10 ^ width) :
    (paddedDigits width n).length = width := by
  have hle := (Nat.length_toDigits_le_iff (by decide) hwidth).mpr hn
  rw [paddedDigits, length_append, length_replicate]
  omega

section Written

variable {integer fraction : List Char} (hinteger : Decimal.AllDigits integer)
  (hfraction : Decimal.AllDigits fraction)

include hinteger hfraction

theorem size_written : (String.ofList (integer ++ '.' :: fraction)).utf8ByteSize =
    integer.length + (fraction.length + 1) := by
  rw [Text.utf8ByteSize_ofList fun c hc => (mem_written hinteger hfraction hc).2,
    length_append, length_cons]

theorem decimalParts_written :
    decimalParts (.ofList (integer ++ '.' :: fraction)) = (integer, fraction) := by
  have hpoint : '.' ∉ integer := fun h => (plain_of_isDigit (hinteger '.' h)).2.2 rfl
  rw [decimalParts, trim_written hinteger hfraction, String.toList_ofList,
    Text.splitOnce_append hpoint, Option.getD_some]

theorem isDecimal_written (hne : integer ≠ []) :
    IsDecimal (.ofList (integer ++ '.' :: fraction)) := by
  rw [isDecimal_iff, decimalParts_written hinteger hfraction]
  exact ⟨fun h => hne (append_eq_nil_iff.mp h).1, hinteger, hfraction⟩

end Written

section Canonical

variable {price : UnitPrice} (hprice : 0 ≤ price.val)

include hprice

theorem toDecimalString_eq : UnitPrice.toDecimalString price =
    .ofList (Nat.toDigits 10 (price.val.natAbs / 10 ^ priceScale) ++
      '.' :: paddedDigits priceScale (price.val.natAbs % 10 ^ priceScale)) := by
  rw [UnitPrice.toDecimalString, if_neg (by omega), nil_append]

theorem decimalParts_toDecimalString : decimalParts (UnitPrice.toDecimalString price) =
    (Nat.toDigits 10 (price.val.natAbs / 10 ^ priceScale),
      paddedDigits priceScale (price.val.natAbs % 10 ^ priceScale)) := by
  rw [toDecimalString_eq hprice]
  exact decimalParts_written (allDigits_toDigits _) (allDigits_paddedDigits _ _)

theorem isDecimal_toDecimalString : IsDecimal (UnitPrice.toDecimalString price) := by
  rw [toDecimalString_eq hprice]
  exact isDecimal_written (allDigits_toDigits _) (allDigits_paddedDigits _ _)
    Nat.toDigits_ne_nil

theorem length_fraction_toDecimalString :
    (decimalParts (UnitPrice.toDecimalString price)).2.length = priceScale := by
  rw [decimalParts_toDecimalString hprice]
  exact length_paddedDigits (by decide) (Nat.mod_lt _ (by decide))

theorem value_toDecimalString :
    (value (scaledDigits (UnitPrice.toDecimalString price)) : ℤ) = price.val := by
  have hlength := length_fraction_toDecimalString hprice
  rw [value_scaledDigits, hlength, decimalParts_toDecimalString hprice, value_toDigits,
    value_paddedDigits, Nat.sub_self, pow_zero, Nat.mul_one, Nat.div_add_mod']
  exact Int.natAbs_of_nonneg hprice

/-- The canonical text is short enough for prices below `10 ^ 31` units. -/
theorem size_toDecimalString_le : (Text.trim (UnitPrice.toDecimalString price)).utf8ByteSize ≤
    maxPriceLiteral ↔ price.val < 10 ^ 31 := by
  have hfraction : (paddedDigits priceScale (price.val.natAbs % 10 ^ priceScale)).length =
      priceScale := length_paddedDigits (by decide) (Nat.mod_lt _ (by decide))
  have hinteger := Nat.length_toDigits_le_iff (b := 10) (k := 23)
    (n := price.val.natAbs / 10 ^ priceScale) (by decide) (by decide)
  rw [toDecimalString_eq hprice, trim_written (allDigits_toDigits _) (allDigits_paddedDigits _ _),
    size_written (allDigits_toDigits _) (allDigits_paddedDigits _ _), hfraction]
  unfold priceScale maxPriceLiteral at *
  omega

/-- The canonical text of a price is read again below `10 ^ 31` units, as the same price. -/
theorem parseUnitPrice_toDecimalString : parseUnitPrice (UnitPrice.toDecimalString price) =
    if price.val < 10 ^ 31 then some price else none := by
  split_ifs with hsmall
  · exact parseUnitPrice_eq_some.mpr
      ⟨(size_toDecimalString_le hprice).mpr hsmall, isDecimal_toDecimalString hprice,
        (length_fraction_toDecimalString hprice).le, value_toDecimalString hprice⟩
  · refine Option.eq_none_iff_forall_ne_some.mpr fun other hother => ?_
    exact hsmall ((size_toDecimalString_le hprice).mp (parseUnitPrice_eq_some.mp hother).1)

/-- The canonical text stands for the price, even where it is not read again. -/
theorem decimalNumber_toDecimalString : decimalNumber (UnitPrice.toDecimalString price) =
    some (price.val / 10 ^ priceScale : ℚ) := by
  have hvalue := value_toDecimalString hprice
  have hlength := length_fraction_toDecimalString hprice
  rw [decimalNumber, if_pos (isDecimal_toDecimalString hprice), ← hvalue, value_scaledDigits,
    Int.cast_natCast, scaled_div hlength.le]

end Canonical

end ProviderCore.Usage
