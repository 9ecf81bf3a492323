/-!
# LoxScan - Decimal numbers

A decimal is a natural coefficient times a power of ten.  It is written
positionally when it is near one, and with an exponent elsewhere; a layout says
where the bounds are.

Main definitions:

- `digitCount`, the number of digits of a natural number;
- `Decimal` with its value as the fraction `numerator / denominator`;
- `Layout` and `Decimal.text`, the written form of a decimal.

Main results:

- `digitCount_le_iff`: the number of digits is bounded by powers of ten.
-/

namespace LoxScan

/-! ## Counting digits -/

/-- The number of decimal digits of a natural number, counted eighteen at a time. -/
def digitCount (n : Nat) : Nat :=
  if n < Nat.pow 10 18 then (Nat.toDigits 10 n).length
  else digitCount (n / Nat.pow 10 18) + 18
termination_by n
decreasing_by
  have hstep : 0 < Nat.pow 10 18 := Nat.pow_pos (by decide)
  have hpos : 0 < n := Nat.lt_of_lt_of_le hstep (Nat.not_lt.mp ‹_›)
  exact Nat.div_lt_self hpos (by decide)

/-- Every natural number has a digit. -/
theorem digitCount_pos (n : Nat) : 0 < digitCount n := by
  rw [digitCount]
  split
  · exact Nat.length_toDigits_pos
  · omega

/-- A natural number has at most `k` digits exactly when it is less than `10 ^ k`. -/
theorem digitCount_le_iff {n k : Nat} (hk : 0 < k) : digitCount n ≤ k ↔ n < Nat.pow 10 k := by
  fun_induction digitCount n generalizing k with
  | case1 n h => exact Nat.length_toDigits_le_iff (by decide) hk
  | case2 n h ih =>
    by_cases hsmall : k ≤ 18
    · have hpow : Nat.pow 10 k ≤ Nat.pow 10 18 := Nat.pow_le_pow_right (by decide) hsmall
      have hpos := digitCount_pos (n / Nat.pow 10 18)
      omega
    · obtain ⟨j, rfl⟩ : ∃ j, k = j + 18 := ⟨k - 18, by omega⟩
      have hpow : Nat.pow 10 (j + 18) = Nat.pow 10 j * Nat.pow 10 18 := Nat.pow_add 10 j 18
      rw [Nat.add_le_add_iff_right, ih (by omega), hpow, Nat.div_lt_iff_lt_mul (by decide)]

/-! ## Decimals and layouts -/

/-- The decimal number `coefficient * 10 ^ exponent`. -/
structure Decimal where
  coefficient : Nat
  exponent : Int
  deriving DecidableEq, Repr

/-- The sizes at which a decimal is written without an exponent: its first digit
has a place value between `10 ^ lowest` and `10 ^ highest`. -/
structure Layout where
  lowest : Int
  highest : Int

namespace Decimal

/-! ## The value as a fraction -/

/-- The numerator of the value. -/
def numerator (d : Decimal) : Nat :=
  d.coefficient * Nat.pow 10 d.exponent.toNat

/-- The denominator of the value, a power of ten. -/
def denominator (d : Decimal) : Nat :=
  Nat.pow 10 (-d.exponent).toNat

/-- A denominator is never zero. -/
theorem denominator_pos (d : Decimal) : 0 < d.denominator :=
  Nat.pow_pos (by decide)

/-! ## Written form -/

/-- The digits of the coefficient without the zeros at its end. -/
def significantDigits (d : Decimal) : List Char :=
  ((Nat.toDigits 10 d.coefficient).reverse.dropWhile (· = '0')).reverse

/-- How many digits of the coefficient stand before the decimal point; zero or
less when the point stands before the first of them. -/
def pointPlace (d : Decimal) : Int :=
  (Nat.toDigits 10 d.coefficient).length + d.exponent

/-- Digits with the point after the first `place` of them.  At least one digit
stands on each side of the point. -/
def positional (digits : List Char) (place : Int) : List Char :=
  if place ≤ 0 then
    '0' :: '.' :: List.replicate (-place).toNat '0' ++ digits
  else
    let before := place.toNat
    let fraction := digits.drop before
    digits.take before ++ List.replicate (before - digits.length) '0' ++
      '.' :: (if fraction.isEmpty then ['0'] else fraction)

/-- An exponent of ten: a minus sign when it is negative, and no leading zeros. -/
def exponentDigits (e : Int) : List Char :=
  if e < 0 then '-' :: Nat.toDigits 10 e.natAbs else Nat.toDigits 10 e.natAbs

/-- Digits with the point after the first one, if others follow it, and an
exponent of ten. -/
def scientific (digits : List Char) (exponent : Int) : List Char :=
  digits.take 1 ++ (if (digits.drop 1).isEmpty then [] else '.' :: digits.drop 1) ++
    'e' :: exponentDigits exponent

/-- The written form of a decimal. -/
def text (layout : Layout) (d : Decimal) : List Char :=
  if d.coefficient = 0 then
    ['0', '.', '0']
  else
    let leading := d.pointPlace - 1
    if layout.lowest ≤ leading ∧ leading ≤ layout.highest then
      positional d.significantDigits d.pointPlace
    else
      scientific d.significantDigits leading

end Decimal

end LoxScan
