import LoxScan.Number.Decimal

/-!
# LoxScan - Binary64 numbers

A number is kept as its 64-bit pattern.  All arithmetic on patterns is exact
arithmetic on natural numbers: the finite numbers without a sign are the
multiples `units p` of the least positive number `2 ^ -1074`, and their patterns
`p` are in the order of their values.

Main definitions:

- `Binary64.ofDecimal`, the number nearest to a decimal, ties to even;
- `Binary64.shortest`, the decimal with the fewest digits that is read back;
- `Binary64.text`, the written form;
- `Binary64.numericEq`, equality of values.
-/

namespace LoxScan

/-- A binary64 number, given by its bit pattern. -/
structure Binary64 where
  bits : UInt64

namespace Binary64

/-! ## Patterns and values -/

/-- Width of the stored fraction. -/
def fractionWidth : Nat := 52

/-- The least positive number is `2 ^ -unitPlaces`. -/
def unitPlaces : Nat := 1074

/-- The pattern of positive infinity.  Smaller patterns are finite numbers
without a sign, and greater ones below `2 ^ 63` are no numbers. -/
def infinityPattern : Nat := 2047 * Nat.pow 2 fractionWidth

/-- The value of a finite pattern as a multiple of `2 ^ -unitPlaces`. -/
def units (pattern : Nat) : Nat :=
  let exponent := pattern / Nat.pow 2 fractionWidth
  let fraction := pattern % Nat.pow 2 fractionWidth
  if exponent = 0 then fraction
  else (Nat.pow 2 fractionWidth + fraction) * Nat.pow 2 (exponent - 1)

/-- The pattern without its sign bit. -/
def pattern (x : Binary64) : Nat :=
  x.bits.toNat % Nat.pow 2 63

/-- Whether the sign bit is set. -/
def isNegative (x : Binary64) : Bool :=
  Nat.pow 2 63 ≤ x.bits.toNat

/-- Whether the pattern stands for no number. -/
def isNaN (x : Binary64) : Bool :=
  infinityPattern < x.pattern

/-! ## Rounding -/

/-- The integer nearest to `n / d`; of two that are equally near, the even one. -/
def roundHalfEven (n d : Nat) : Nat :=
  let q := n / d
  let twice := 2 * (n % d)
  if d < twice ∨ (twice = d ∧ q % 2 = 1) then q + 1 else q

/-- The pattern of the number nearest to `n / d` units.  The grid of the numbers
near `n / d` has the step `2 ^ shift`; a coefficient that is rounded up to the
next power of two carries into the exponent, and what is too large becomes
infinity. -/
def roundUnits (n d : Nat) : Nat :=
  let shift := Nat.log2 (n / d) - fractionWidth
  min (shift * Nat.pow 2 fractionWidth + roundHalfEven n (d * Nat.pow 2 shift)) infinityPattern

/-- The pattern of the number nearest to a decimal. -/
def patternOf (d : Decimal) : Nat :=
  roundUnits (d.numerator * Nat.pow 2 unitPlaces) d.denominator

/-- The number nearest to a decimal, ties to even. -/
def ofDecimal (d : Decimal) : Binary64 :=
  ⟨UInt64.ofNat (patternOf d)⟩

/-! ## Shortest decimals -/

/-- Every finite number is a decimal with `unitPlaces` places; this is its
coefficient. -/
def exactCoefficient (pattern : Nat) : Nat :=
  units pattern * Nat.pow 5 unitPlaces

/-- The decimal nearest to a finite pattern among the multiples of
`10 ^ (place - unitPlaces)` that are rounded to the pattern.  Only the two
neighbours need a look, and a tie goes to the upper one. -/
def nearestOnGrid? (pattern place : Nat) : Option Decimal :=
  let exact := exactCoefficient pattern
  let step := Nat.pow 10 place
  let exponent : Int := place - unitPlaces
  let below : Decimal := ⟨exact / step, exponent⟩
  let above : Decimal := ⟨exact / step + 1, exponent⟩
  if patternOf below = pattern ∧ (2 * (exact % step) < step ∨ patternOf above ≠ pattern) then
    some below
  else if patternOf above = pattern then
    some above
  else
    none

/-- The number of digits that tells any two numbers apart. -/
def maxDigits : Nat := 17

/-- The decimal with the fewest digits that is rounded to a finite pattern, and
of those the nearest to its value. -/
def shortest (pattern : Nat) : Decimal :=
  let length := digitCount (exactCoefficient pattern)
  let grids := (List.range maxDigits).map fun i => length - (i + 1)
  (grids.findSome? (nearestOnGrid? pattern)).getD ⟨exactCoefficient pattern, -unitPlaces⟩

/-- The written form of a number. -/
def text (layout : Layout) (x : Binary64) : List Char :=
  if x.isNaN then
    "NaN".toList
  else
    let sign := if x.isNegative then ['-'] else []
    if x.pattern = infinityPattern then
      sign ++ "inf".toList
    else
      sign ++ (shortest x.pattern).text layout

/-! ## Equality of values -/

/-- Equality of values: no number that is not a number equals anything, and the
two zeros are equal. -/
def numericEq (x y : Binary64) : Bool :=
  !x.isNaN && !y.isNaN && (x.bits == y.bits || (x.pattern == 0 && y.pattern == 0))

instance : BEq Binary64 := ⟨numericEq⟩

end Binary64

end LoxScan
