import Mathlib.Data.Rat.Cast.Order
import Mathlib.Tactic.FieldSimp
import Mathlib.Tactic.Linarith
import Mathlib.Tactic.Positivity
import LoxScan.Proofs.Grid

/-!
# LoxScan - Correct rounding

What a binary64 number is worth is said of its three fields: a sign, an exponent and a
fraction.  A decimal is rounded to the number that is nearest to its value, and of two that
are equally near, to the one with the even fraction.  That leaves no choice, and a greater
value is never rounded to a lesser number.

Main definitions:

- `Binary64.toRat?`, the value of a number, if it is finite;
- `Binary64.point`, the value of a point of the grid;
- `Binary64.Rounds`, the number that a value is rounded to;
- `Decimal.toRat`, the value of a decimal;
- `Binary64.nearestPattern`, the point that a decimal is nearest to.

Main results:

- Theorem `Binary64.Rounds.bits_le`: rounding is monotone, and gives one number only.
- Theorem `Binary64.rounds_ofDecimal`: decimals are rounded correctly.
- Theorem `Binary64.toRat?_ofDecimal_of_toRat?`: the value of a number is not changed.
- Theorems `Binary64.exponentField_ofDecimal_eq_zero_iff` and
  `Binary64.bits_ofDecimal_eq_zero_iff`: which of them are rounded to numbers without a
  leading one, and to zero.
-/

namespace LoxScan
namespace Binary64

/-! ## Fields and values -/

/-- The sign bit. -/
def signField (x : Binary64) : ℕ :=
  x.bits.toNat / 2 ^ 63

/-- The exponent with its offset. -/
def exponentField (x : Binary64) : ℕ :=
  x.bits.toNat / 2 ^ 52 % 2 ^ 11

/-- The fraction that is stored. -/
def fractionField (x : Binary64) : ℕ :=
  x.bits.toNat % 2 ^ 52

/-- The value of a number, if it is finite.  The least exponent has numbers without a leading
one, and the greatest one has none. -/
def toRat? (x : Binary64) : Option ℚ :=
  if x.exponentField = 2047 then none
  else if x.exponentField = 0 then
    some ((-1) ^ x.signField * x.fractionField * 2 ^ (-1074 : ℤ))
  else
    some ((-1) ^ x.signField * (2 ^ 52 + x.fractionField) * 2 ^ ((x.exponentField : ℤ) - 1075))

/-- Whether a number is infinite. -/
def IsInfinity (x : Binary64) : Prop :=
  x.exponentField = 2047 ∧ x.fractionField = 0

/-- The value of a point of the grid. -/
def point (p : ℕ) : ℚ :=
  units p / 2 ^ unitPlaces

/-- Infinity has the first pattern with the greatest exponent. -/
theorem infinityPattern_eq : infinityPattern = 2047 * 2 ^ 52 :=
  rfl

/-- The pattern of a number is made of the exponent and the fraction. -/
theorem div_pattern (x : Binary64) :
    x.pattern / 2 ^ 52 = x.exponentField ∧ x.pattern % 2 ^ 52 = x.fractionField := by
  have hlt := x.bits.toNat_lt
  have hpattern : x.pattern = x.bits.toNat % 2 ^ 63 := rfl
  rw [hpattern, exponentField, fractionField]
  omega

/-- The value of a finite number is that of a point of the grid, with the sign. -/
theorem toRat?_eq (x : Binary64) :
    x.toRat? = if x.exponentField = 2047 then none
      else some ((-1) ^ x.signField * point x.pattern) := by
  have hunits : units x.pattern = if x.exponentField = 0 then x.fractionField
      else (2 ^ 52 + x.fractionField) * 2 ^ (x.exponentField - 1) := by
    rw [← (div_pattern x).1, ← (div_pattern x).2]
    rfl
  rw [toRat?, point, hunits, unitPlaces]
  split
  · rfl
  split
  · rw [zpow_neg, zpow_ofNat, mul_assoc, div_eq_mul_inv]
  · rename_i hnormal
    have hscale : (2 : ℚ) ^ ((x.exponentField : ℤ) - 1075) =
        2 ^ (x.exponentField - 1) / 2 ^ 1074 := by
      have hsub : (x.exponentField : ℤ) - 1075 = ((x.exponentField - 1 : ℕ) : ℤ) - 1074 := by omega
      rw [hsub, zpow_sub₀ two_ne_zero, zpow_natCast, zpow_ofNat]
    rw [hscale, mul_assoc, ← mul_div_assoc]
    push_cast
    rfl

/-- Points are in the order of their patterns. -/
theorem point_strictMono : StrictMono point := by
  intro p q hlt
  have hunits : (units p : ℚ) < units q := by exact_mod_cast units_strictMono hlt
  exact div_lt_div_of_pos_right hunits (by positivity)

/-- A point has no sign. -/
theorem point_nonneg (p : ℕ) : 0 ≤ point p := by
  unfold point
  positivity

/-- The values of the points of a binade, and of the first one after it. -/
theorem point_binade {s k : ℕ} (hs : s = 0 ∨ 2 ^ 52 ≤ k) (hk : k ≤ 2 ^ 53) :
    point (s * 2 ^ 52 + k) = k * 2 ^ ((s : ℤ) - 1074) := by
  rw [point, units_binade hs hk, unitPlaces, zpow_sub₀ two_ne_zero, zpow_natCast, zpow_ofNat]
  push_cast
  rw [mul_div_assoc]

/-- The values of the points of the first binade. -/
theorem point_of_le {k : ℕ} (hk : k ≤ 2 ^ 53) : point k = k * 2 ^ (-1074 : ℤ) := by
  have hpoint := point_binade (.inl rfl) hk
  rwa [Nat.zero_mul, Nat.zero_add, Nat.cast_zero, zero_sub] at hpoint

/-- The least point is zero. -/
theorem point_zero : point 0 = 0 := by
  rw [point_of_le (by norm_num), Nat.cast_zero, zero_mul]

/-- The number of a pattern without a sign. -/
def ofPattern (p : ℕ) : Binary64 :=
  ⟨UInt64.ofNat p⟩

/-- A finite number without a sign is worth the point of its pattern. -/
theorem toRat?_of_bits_lt {x : Binary64} (h : x.bits.toNat < infinityPattern) :
    x.toRat? = some (point x.bits.toNat) := by
  have hlt : x.bits.toNat < 2047 * 2 ^ 52 := h
  have hsign : x.signField = 0 := by
    rw [signField]
    omega
  have hfinite : x.exponentField ≠ 2047 := by
    rw [exponentField]
    omega
  have hpattern : x.pattern = x.bits.toNat := Nat.mod_eq_of_lt (by rw [Nat.pow_eq]; omega)
  rw [toRat?_eq, if_neg hfinite, hsign, pow_zero, one_mul, hpattern]

/-- A number with a value is worth the point of its pattern, or the opposite. -/
theorem exists_point_of_toRat? {x : Binary64} {q : ℚ} (h : x.toRat? = some q) :
    ∃ p, p < infinityPattern ∧ (q = point p ∨ q = -point p) := by
  rw [toRat?_eq] at h
  split at h
  · cases h
  · rename_i hfinite
    have hlt : x.pattern < infinityPattern := by
      have hfield : x.exponentField < 2 ^ 11 := Nat.mod_lt _ (by decide)
      have hexponent := (div_pattern x).1
      rw [infinityPattern_eq]
      omega
    refine ⟨x.pattern, hlt, ?_⟩
    obtain rfl := Option.some.inj h
    rcases neg_one_pow_eq_or ℚ x.signField with hsign | hsign
    · exact .inl (by rw [hsign, one_mul])
    · exact .inr (by rw [hsign, neg_one_mul])

/-- Without a sign, infinity is a single number. -/
theorem isInfinity_iff {x : Binary64} (h : x.bits.toNat ≤ infinityPattern) :
    x.IsInfinity ↔ x.bits.toNat = infinityPattern := by
  have hinfinity := infinityPattern_eq
  rw [IsInfinity, exponentField, fractionField]
  omega

/-- A number with a value is not infinite. -/
theorem bits_lt_of_toRat? {x : Binary64} {q : ℚ} (hle : x.bits.toNat ≤ infinityPattern)
    (h : x.toRat? = some q) : x.bits.toNat < infinityPattern := by
  refine lt_of_le_of_ne hle fun hbits => ?_
  rw [toRat?_eq, if_pos ((isInfinity_iff hle).mpr hbits).1] at h
  cases h

/-- Without a sign, bits are in the order of the values. -/
theorem exists_toRat?_le {x y : Binary64} {r : ℚ} (hle : y.bits.toNat ≤ infinityPattern)
    (h : x.bits ≤ y.bits) (hr : y.toRat? = some r) : ∃ q, x.toRat? = some q ∧ q ≤ r := by
  have hy : y.bits.toNat < infinityPattern := bits_lt_of_toRat? hle hr
  have hbits : x.bits.toNat ≤ y.bits.toNat := UInt64.le_iff_toNat_le.mp h
  rw [toRat?_of_bits_lt hy] at hr
  obtain rfl := Option.some.inj hr
  exact ⟨_, toRat?_of_bits_lt (hbits.trans_lt hy), point_strictMono.monotone hbits⟩

/-- The bits of a number that is given by a pattern. -/
theorem toNat_bits_ofPattern {p : ℕ} (h : p ≤ infinityPattern) : (ofPattern p).bits.toNat = p := by
  have hle : p ≤ 2047 * 2 ^ 52 := h
  exact UInt64.toNat_ofNat_of_lt' (by rw [UInt64.size]; omega)

/-! ## Correct rounding -/

/-- The number that a value without a sign is rounded to: the finite number that is nearest to
the value, and if another one is equally near, the one with the even fraction; or infinity,
from the middle on between the greatest number and the next power of two. -/
structure Rounds (v : ℚ) (x : Binary64) : Prop where
  sign : x.signField = 0
  /-- With the greatest exponent, any other fraction stands for no number. -/
  number : x.exponentField = 2047 → x.fractionField = 0
  infinity_iff : x.IsInfinity ↔ 2 ^ 1024 - 2 ^ 970 ≤ v
  nearest : ∀ q, x.toRat? = some q → ∀ (y : Binary64) r, y.toRat? = some r → |v - q| ≤ |v - r|
  even : ∀ q, x.toRat? = some q → ∀ (y : Binary64) r, y.toRat? = some r →
    r ≠ q → |v - q| = |v - r| → x.fractionField % 2 = 0

/-- The greater one of two values is as near as the lesser one from their middle on. -/
theorem abs_sub_le_abs_sub_iff {v a b : ℚ} (h : a < b) : |v - b| ≤ |v - a| ↔ a + b ≤ 2 * v := by
  have hfactor : (v - a) ^ 2 - (v - b) ^ 2 = (b - a) * (2 * v - (a + b)) := by ring
  rw [← sq_le_sq, ← sub_nonneg, hfactor, mul_nonneg_iff_of_pos_left (sub_pos.mpr h), sub_nonneg]

/-- The lesser one of two values is as near as the greater one up to their middle. -/
theorem abs_sub_le_abs_sub_iff' {v a b : ℚ} (h : a < b) : |v - a| ≤ |v - b| ↔ 2 * v ≤ a + b := by
  have hfactor : (v - b) ^ 2 - (v - a) ^ 2 = (b - a) * (a + b - 2 * v) := by ring
  rw [← sq_le_sq, ← sub_nonneg, hfactor, mul_nonneg_iff_of_pos_left (sub_pos.mpr h), sub_nonneg]

namespace Rounds

variable {v w : ℚ} {x y : Binary64}

/-- The bits of a number that a value is rounded to are at most those of infinity. -/
theorem bits_le_infinityPattern (h : Rounds v x) : x.bits.toNat ≤ infinityPattern := by
  have hsign := h.sign
  have hnumber := h.number
  have hinfinity := infinityPattern_eq
  rw [signField] at hsign
  rw [exponentField, fractionField] at hnumber
  omega

/-- A greater value is not rounded to a lesser number. -/
theorem bits_le (h : Rounds v x) (h' : Rounds w y) (hle : v ≤ w) : x.bits ≤ y.bits := by
  rw [UInt64.le_iff_toNat_le]
  by_contra hgt
  have hlt : y.bits.toNat < x.bits.toNat := Nat.lt_of_not_le hgt
  have hyfinite : y.bits.toNat < infinityPattern := hlt.trans_le h.bits_le_infinityPattern
  have hxfinite : x.bits.toNat < infinityPattern := by
    refine lt_of_le_of_ne h.bits_le_infinityPattern fun hinfinite => hyfinite.ne ?_
    rw [← isInfinity_iff h.bits_le_infinityPattern, h.infinity_iff] at hinfinite
    rw [← isInfinity_iff h'.bits_le_infinityPattern, h'.infinity_iff]
    exact hinfinite.trans hle
  have hx := toRat?_of_bits_lt hxfinite
  have hy := toRat?_of_bits_lt hyfinite
  have hpoint : point y.bits.toNat < point x.bits.toNat := point_strictMono hlt
  -- The greater number is nearest to the lesser value and the other way round, so both values
  -- are in the middle.
  have hv := (abs_sub_le_abs_sub_iff hpoint).mp (h.nearest _ hx _ _ hy)
  have hw := (abs_sub_le_abs_sub_iff' hpoint).mp (h'.nearest _ hy _ _ hx)
  have hvmiddle : 2 * v = point y.bits.toNat + point x.bits.toNat := by linarith
  have hwmiddle : 2 * w = point y.bits.toNat + point x.bits.toNat := by linarith
  have hxeven : x.fractionField % 2 = 0 :=
    h.even _ hx _ _ hy hpoint.ne (le_antisymm (h.nearest _ hx _ _ hy)
      ((abs_sub_le_abs_sub_iff' hpoint).mpr hvmiddle.le))
  have hyeven : y.fractionField % 2 = 0 :=
    h'.even _ hy _ _ hx hpoint.ne' (le_antisymm (h'.nearest _ hy _ _ hx)
      ((abs_sub_le_abs_sub_iff hpoint).mpr hwmiddle.ge))
  -- Both are even, so there is a number between them, and it would be nearer.
  have hbetween : y.bits.toNat + 1 < x.bits.toNat := by
    rw [fractionField] at hxeven hyeven
    omega
  have hbits : (ofPattern (y.bits.toNat + 1)).bits.toNat = y.bits.toNat + 1 :=
    toNat_bits_ofPattern (by omega)
  have hz : (ofPattern (y.bits.toNat + 1)).toRat? = some (point (y.bits.toNat + 1)) := by
    rw [toRat?_of_bits_lt (by omega), hbits]
  have hnearer := (abs_sub_le_abs_sub_iff (point_strictMono hbetween)).mp (h.nearest _ hx _ _ hz)
  have hstep : point y.bits.toNat < point (y.bits.toNat + 1) := point_strictMono (by omega)
  linarith

/-- A value is rounded to one number only. -/
theorem bits_eq (h : Rounds v x) (h' : Rounds v y) : x.bits = y.bits :=
  UInt64.le_antisymm (h.bits_le h' le_rfl) (h'.bits_le h le_rfl)

end Rounds

end Binary64

/-! ## Decimals -/

/-- The value of a decimal. -/
def Decimal.toRat (d : Decimal) : ℚ :=
  d.numerator / d.denominator

/-- A decimal has no sign. -/
theorem Decimal.toRat_nonneg (d : Decimal) : 0 ≤ d.toRat := by
  unfold toRat
  positivity

namespace Binary64

/-- The pattern of the point that is nearest to a decimal. -/
def nearestPattern (d : Decimal) : ℕ :=
  gridPattern (d.numerator * 2 ^ unitPlaces) d.denominator

/-- It is the nearest one. -/
theorem nearest_nearestPattern (d : Decimal) :
    Nearest (d.numerator * 2 ^ unitPlaces) d.denominator (nearestPattern d) :=
  nearest_gridPattern _ d.denominator_pos

/-- The middle between two points and a decimal, in units. -/
theorem point_add_point_le_iff (d : Decimal) (p q : ℕ) :
    point p + point q ≤ 2 * d.toRat ↔
      (units p + units q) * d.denominator ≤ 2 * (d.numerator * 2 ^ unitPlaces) := by
  have hdenominator : (0 : ℚ) < d.denominator := by exact_mod_cast d.denominator_pos
  rw [point, point, Decimal.toRat, ← add_div, mul_div_assoc', div_le_div_iff₀ (by positivity)
    hdenominator, mul_assoc 2]
  norm_cast

/-- A decimal and the middle between two points, in units. -/
theorem le_point_add_point_iff (d : Decimal) (p q : ℕ) :
    2 * d.toRat ≤ point p + point q ↔
      2 * (d.numerator * 2 ^ unitPlaces) ≤ (units p + units q) * d.denominator := by
  have hdenominator : (0 : ℚ) < d.denominator := by exact_mod_cast d.denominator_pos
  rw [point, point, Decimal.toRat, ← add_div, mul_div_assoc', div_le_div_iff₀ hdenominator
    (by positivity), mul_assoc 2]
  norm_cast

/-- A decimal in the middle between two points, in units. -/
theorem point_add_point_eq_iff (d : Decimal) (p q : ℕ) :
    point p + point q = 2 * d.toRat ↔
      (units p + units q) * d.denominator = 2 * (d.numerator * 2 ^ unitPlaces) := by
  rw [le_antisymm_iff, le_antisymm_iff, point_add_point_le_iff, le_point_add_point_iff]

/-- A decimal is rounded to a point or a greater one from the middle below it on, and in the
middle, if the pattern of the point is even. -/
theorem succ_le_nearestPattern_iff (d : Decimal) (q : ℕ) :
    q + 1 ≤ nearestPattern d ↔ point q + point (q + 1) < 2 * d.toRat ∨
      (point q + point (q + 1) = 2 * d.toRat ∧ q % 2 = 1) := by
  rw [(nearest_nearestPattern d).succ_le_iff d.denominator_pos, ← not_le, ← not_le,
    le_point_add_point_iff, point_add_point_eq_iff]

/-- No point is nearer to a decimal than the one that it is rounded to. -/
theorem abs_sub_nearestPattern_le (d : Decimal) (q : ℕ) :
    |d.toRat - point (nearestPattern d)| ≤ |d.toRat - point q| := by
  have hnearest := nearest_nearestPattern d
  rcases Nat.lt_trichotomy q (nearestPattern d) with hlt | heq | hgt
  · rw [abs_sub_le_abs_sub_iff (point_strictMono hlt), point_add_point_le_iff]
    exact (hnearest.add_le d.denominator_pos hlt).1
  · rw [heq]
  · rw [abs_sub_le_abs_sub_iff' (point_strictMono hgt), le_point_add_point_iff]
    exact (hnearest.le_add d.denominator_pos hgt).1

/-- A decimal that is a point is nearest to it. -/
theorem nearestPattern_of_toRat_eq {d : Decimal} {p : ℕ} (h : d.toRat = point p) :
    nearestPattern d = p := by
  have hle := abs_sub_nearestPattern_le d p
  rw [h, sub_self, abs_zero] at hle
  exact (point_strictMono.injective (sub_eq_zero.mp (abs_nonpos_iff.mp hle))).symm

/-- Zero is not nearer to a decimal than the point that it is rounded to. -/
theorem abs_sub_nearestPattern_le_self (d : Decimal) :
    |d.toRat - point (nearestPattern d)| ≤ d.toRat := by
  have hzero := abs_sub_nearestPattern_le d 0
  rwa [point_zero, sub_zero, abs_of_nonneg d.toRat_nonneg] at hzero

/-- The opposite of a point is farther from a decimal than zero. -/
theorem abs_sub_neg_point (d : Decimal) (p : ℕ) : |d.toRat - -point p| = d.toRat + point p := by
  rw [sub_neg_eq_add, abs_of_nonneg (add_nonneg d.toRat_nonneg (point_nonneg p))]

/-- If another point is equally near, the pattern is even. -/
theorem nearestPattern_even (d : Decimal) {q : ℕ} (hne : q ≠ nearestPattern d)
    (htie : |d.toRat - point (nearestPattern d)| = |d.toRat - point q|) :
    nearestPattern d % 2 = 0 := by
  have hnearest := nearest_nearestPattern d
  rcases Nat.lt_or_gt_of_ne hne with hlt | hgt
  · have hle := (abs_sub_le_abs_sub_iff' (point_strictMono hlt)).mp htie.ge
    have hmiddle := hnearest.add_le d.denominator_pos hlt
    rw [le_point_add_point_iff] at hle
    exact hmiddle.2 (le_antisymm hmiddle.1 hle)
  · have hle := (abs_sub_le_abs_sub_iff (point_strictMono hgt)).mp htie.ge
    have hmiddle := hnearest.le_add d.denominator_pos hgt
    rw [point_add_point_le_iff] at hle
    exact hmiddle.2 (le_antisymm hmiddle.1 hle)

/-! ## Rounding of decimals -/

/-- The pattern of a decimal is that of the nearest point, or of infinity. -/
theorem patternOf_eq (d : Decimal) : patternOf d = min (nearestPattern d) infinityPattern := by
  rw [patternOf, Nat.pow_eq, roundUnits_eq, nearestPattern]

/-- The bits of a decimal are the pattern of the nearest point, or those of infinity. -/
theorem toNat_bits_ofDecimal (d : Decimal) :
    (ofDecimal d).bits.toNat = min (nearestPattern d) infinityPattern := by
  rw [← patternOf_eq]
  exact toNat_bits_ofPattern (by rw [patternOf_eq]; exact min_le_right _ _)

/-- The bits of a decimal reach those of a finite number, or of infinity, with the pattern of
the nearest point. -/
theorem le_bits_ofDecimal_iff (d : Decimal) {p : ℕ} (hp : p ≤ infinityPattern) :
    p ≤ (ofDecimal d).bits.toNat ↔ p ≤ nearestPattern d := by
  rw [toNat_bits_ofDecimal, le_min_iff, and_iff_left hp]

/-- A decimal becomes infinite from the middle on between the greatest number and the next power
of two. -/
theorem infinityPattern_le_nearestPattern_iff (d : Decimal) :
    infinityPattern ≤ nearestPattern d ↔ 2 ^ 1024 - 2 ^ 970 ≤ d.toRat := by
  have hgreatest : point (2045 * 2 ^ 52 + (2 ^ 53 - 1)) = (2 ^ 53 - 1) * 2 ^ 971 := by
    rw [point_binade (.inr (by norm_num)) (by norm_num)]
    norm_num
  have hnext : point (2045 * 2 ^ 52 + (2 ^ 53 - 1) + 1) = 2 ^ 53 * 2 ^ 971 := by
    have hpattern : 2045 * 2 ^ 52 + (2 ^ 53 - 1) + 1 = 2045 * 2 ^ 52 + 2 ^ 53 := by norm_num
    rw [hpattern, point_binade (.inr (by norm_num)) (by norm_num)]
    norm_num
  have hpattern : infinityPattern = 2045 * 2 ^ 52 + (2 ^ 53 - 1) + 1 := rfl
  have hodd : (2045 * 2 ^ 52 + (2 ^ 53 - 1)) % 2 = 1 := rfl
  have hmiddle : (2 ^ 53 - 1) * 2 ^ 971 + 2 ^ 53 * 2 ^ 971 = 2 * ((2 : ℚ) ^ 1024 - 2 ^ 970) := by
    rw [show 1024 = 970 + 54 from rfl, show 971 = 970 + 1 from rfl, pow_add, pow_add]
    generalize (2 : ℚ) ^ 970 = step
    ring
  rw [hpattern, succ_le_nearestPattern_iff, hgreatest, hnext, and_iff_left hodd,
    ← le_iff_lt_or_eq, hmiddle, mul_le_mul_iff_right₀ two_pos]

/-- A decimal becomes a number with a leading one from the middle on between the least of these
numbers and the point below it. -/
theorem two_pow_le_nearestPattern_iff (d : Decimal) :
    2 ^ 52 ≤ nearestPattern d ↔ 2 ^ (-1022 : ℤ) - 2 ^ (-1075 : ℤ) ≤ d.toRat := by
  have hbelow : point (2 ^ 52 - 1) = (2 ^ 52 - 1) * 2 ^ (-1074 : ℤ) := by
    rw [point_of_le (by norm_num)]
    norm_num
  have hleast : point (2 ^ 52 - 1 + 1) = 2 ^ 52 * 2 ^ (-1074 : ℤ) := by
    rw [point_of_le (by norm_num)]
    norm_num
  have hodd : (2 ^ 52 - 1) % 2 = 1 := rfl
  have hmiddle : (2 ^ 52 - 1) * 2 ^ (-1074 : ℤ) + 2 ^ 52 * 2 ^ (-1074 : ℤ) =
      2 * ((2 : ℚ) ^ (-1022 : ℤ) - 2 ^ (-1075 : ℤ)) := by
    rw [show (-1022 : ℤ) = -1075 + 53 from rfl, show (-1074 : ℤ) = -1075 + 1 from rfl,
      zpow_add₀ two_ne_zero, zpow_add₀ two_ne_zero]
    generalize (2 : ℚ) ^ (-1075 : ℤ) = step
    norm_num
    ring
  rw [show 2 ^ 52 = 2 ^ 52 - 1 + 1 from rfl, succ_le_nearestPattern_iff, hbelow, hleast,
    and_iff_left hodd, ← le_iff_lt_or_eq, hmiddle, mul_le_mul_iff_right₀ two_pos]

/-- A decimal becomes a number other than zero beyond the middle between zero and the least
number. -/
theorem one_le_nearestPattern_iff (d : Decimal) :
    1 ≤ nearestPattern d ↔ 2 ^ (-1075 : ℤ) < d.toRat := by
  have hone : point (0 + 1) = 2 * 2 ^ (-1075 : ℤ) := by
    rw [point_of_le (by norm_num), show (-1074 : ℤ) = -1075 + 1 from rfl, zpow_add₀ two_ne_zero,
      zpow_one, Nat.zero_add, Nat.cast_one, one_mul, mul_comm]
  have heven : ¬ 0 % 2 = 1 := by decide
  rw [← Nat.zero_add 1, succ_le_nearestPattern_iff, point_zero, hone, zero_add,
    or_iff_left (fun hmiddle => heven hmiddle.2), mul_lt_mul_iff_right₀ two_pos]

/-- The bits of a decimal are at most those of infinity. -/
theorem bits_ofDecimal_le (d : Decimal) : (ofDecimal d).bits.toNat ≤ infinityPattern :=
  toNat_bits_ofDecimal d ▸ min_le_right _ _

/-- A decimal that is rounded to a finite number is rounded to the nearest point. -/
theorem bits_eq_of_toRat?_ofDecimal {d : Decimal} {q : ℚ} (h : (ofDecimal d).toRat? = some q) :
    (ofDecimal d).bits.toNat = nearestPattern d ∧ q = point (nearestPattern d) := by
  have hlt : (ofDecimal d).bits.toNat < infinityPattern :=
    bits_lt_of_toRat? (bits_ofDecimal_le d) h
  have hbits : (ofDecimal d).bits.toNat = nearestPattern d := by
    rw [toNat_bits_ofDecimal] at hlt ⊢
    omega
  rw [toRat?_of_bits_lt hlt, hbits] at h
  exact ⟨hbits, (Option.some.inj h).symm⟩

/-- A decimal is rounded to the finite number that is nearest to its value, ties to even, or to
infinity if it is too large. -/
theorem rounds_ofDecimal (d : Decimal) : (ofDecimal d).Rounds d.toRat := by
  have hle := bits_ofDecimal_le d
  have hinfinity := infinityPattern_eq
  refine ⟨?sign, ?number, ?infinity, ?nearest, ?even⟩
  case sign =>
    rw [signField]
    omega
  case number =>
    rw [exponentField, fractionField]
    omega
  case infinity =>
    rw [isInfinity_iff hle, ← infinityPattern_le_nearestPattern_iff,
      ← le_bits_ofDecimal_iff d le_rfl]
    exact ⟨ge_of_eq, le_antisymm hle⟩
  case nearest =>
    intro q hq y r hr
    rcases bits_eq_of_toRat?_ofDecimal hq with ⟨-, rfl⟩
    rcases exists_point_of_toRat? hr with ⟨p, -, rfl | rfl⟩
    · exact abs_sub_nearestPattern_le d p
    · rw [abs_sub_neg_point]
      exact (abs_sub_nearestPattern_le_self d).trans (le_add_of_nonneg_right (point_nonneg p))
  case even =>
    intro q hq y r hr hne htie
    rcases bits_eq_of_toRat?_ofDecimal hq with ⟨hbits, rfl⟩
    have hother : ∃ p, p ≠ nearestPattern d ∧ r = point p := by
      rcases exists_point_of_toRat? hr with ⟨p, -, rfl | rfl⟩
      · exact ⟨p, fun hp => hne (by rw [hp]), rfl⟩
      · -- An opposite is not equally near, unless it is zero.
        have hzero : point p = 0 := by
          have hself := abs_sub_nearestPattern_le_self d
          rw [htie, abs_sub_neg_point] at hself
          linarith [point_nonneg p]
        rw [hzero, neg_zero, ← point_zero] at hne ⊢
        exact ⟨0, fun hp => hne (by rw [← hp]), rfl⟩
    rcases hother with ⟨p, hp, rfl⟩
    have heven := nearestPattern_even d hp htie
    rw [fractionField, hbits]
    omega

/-- A decimal that is the value of a number is not changed. -/
theorem toRat?_ofDecimal_of_toRat? {d : Decimal} {y : Binary64} (h : y.toRat? = some d.toRat) :
    (ofDecimal d).toRat? = some d.toRat := by
  have hpoint : ∃ p, p < infinityPattern ∧ d.toRat = point p := by
    rcases exists_point_of_toRat? h with ⟨p, hp, hpos | hneg⟩
    · exact ⟨p, hp, hpos⟩
    · refine ⟨0, Nat.zero_lt_of_lt hp, ?_⟩
      rw [point_zero]
      linarith [d.toRat_nonneg, point_nonneg p]
  rcases hpoint with ⟨p, hp, hvalue⟩
  have hbits : (ofDecimal d).bits.toNat = p := by
    rw [toNat_bits_ofDecimal, nearestPattern_of_toRat_eq hvalue, min_eq_left hp.le]
  rw [toRat?_of_bits_lt (hbits ▸ hp), hbits, hvalue]

/-- The decimals that are rounded to numbers without a leading one. -/
theorem exponentField_ofDecimal_eq_zero_iff (d : Decimal) :
    (ofDecimal d).exponentField = 0 ↔ d.toRat < 2 ^ (-1022 : ℤ) - 2 ^ (-1075 : ℤ) := by
  have hle := bits_ofDecimal_le d
  have hinfinity := infinityPattern_eq
  have hfield : (ofDecimal d).exponentField = 0 ↔ ¬ 2 ^ 52 ≤ (ofDecimal d).bits.toNat := by
    rw [exponentField]
    omega
  rw [hfield, le_bits_ofDecimal_iff d (by omega), two_pow_le_nearestPattern_iff, not_le]

/-- The decimals that are rounded to zero. -/
theorem bits_ofDecimal_eq_zero_iff (d : Decimal) :
    (ofDecimal d).bits = 0 ↔ d.toRat ≤ 2 ^ (-1075 : ℤ) := by
  have hinfinity := infinityPattern_eq
  have hzero : (ofDecimal d).bits = 0 ↔ ¬ 1 ≤ (ofDecimal d).bits.toNat := by
    rw [← UInt64.toNat_inj, Nat.one_le_iff_ne_zero, not_not]
    rfl
  rw [hzero, le_bits_ofDecimal_iff d (by omega), one_le_nearestPattern_iff, not_lt]

end Binary64
end LoxScan
