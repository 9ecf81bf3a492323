import LoxScan.Proofs.WrittenDecimal

/-!
# LoxScan - The shortest decimal of a number

The decimals that are rounded to a number lie around its value without a gap, as rounding is
monotone.  Among the multiples of a power of ten, one of them is therefore found next to the
value, if there is any.  The search goes from coarse multiples to fine ones and ends when the
step is less than the distance between numbers, which is after seventeen digits at most.

Main definitions:

- `Binary64.multiple`, the multiples of a power of ten.

Main results:

- Theorem `Binary64.nearestPattern_le_of_toRat_le`: rounding to the grid is monotone.
- Theorem `Binary64.nearestOnGrid?_eq_none_iff`: a search next to the value misses nothing.
- Theorem `Binary64.exists_nearestPattern_multiple_eq`: when the multiples are fine enough.
- Theorem `Binary64.nearestPattern_shortest`: the shortest decimal is rounded to the number.
- Theorem `Binary64.length_significantDigits_shortest_le`: no decimal with fewer digits is.
-/

namespace LoxScan
namespace Binary64

variable {p place : ℕ} {c d : Decimal}

/-! ## Decimals around a point -/

/-- A decimal has a finite pattern exactly if that is the nearest point. -/
theorem patternOf_eq_iff (hp : p < infinityPattern) : patternOf d = p ↔ nearestPattern d = p := by
  rw [patternOf_eq]
  omega

/-- A greater decimal has no lesser point. -/
theorem nearestPattern_le_of_toRat_le (h : c.toRat ≤ d.toRat) :
    nearestPattern c ≤ nearestPattern d := by
  rcases Nat.eq_zero_or_pos (nearestPattern c) with hzero | hpos
  · omega
  · obtain ⟨q, hq⟩ : ∃ q, nearestPattern c = q + 1 := ⟨nearestPattern c - 1, by omega⟩
    have hreached := (succ_le_nearestPattern_iff c q).mp hq.ge
    rw [hq, succ_le_nearestPattern_iff]
    rcases h.eq_or_lt with heq | hlt
    · rwa [← heq]
    · left
      rcases hreached with hbeyond | ⟨hmiddle, -⟩ <;> linarith

/-- A decimal that is nearest to a lesser point is not beyond the middle below a point. -/
theorem two_mul_toRat_le_of_nearestPattern_lt (h : nearestPattern d < p + 1) :
    2 * d.toRat ≤ point p + point (p + 1) := by
  by_contra hbeyond
  exact h.not_ge ((succ_le_nearestPattern_iff d p).mpr (.inl (lt_of_not_ge hbeyond)))

/-- A decimal that is nearest to a greater point is not short of the middle above a point. -/
theorem le_two_mul_toRat_of_lt_nearestPattern (h : p < nearestPattern d) :
    point p + point (p + 1) ≤ 2 * d.toRat := by
  rcases (succ_le_nearestPattern_iff d p).mp h with hbeyond | ⟨hmiddle, -⟩
  · exact hbeyond.le
  · exact hmiddle.le

/-- The exact decimal of a point. -/
theorem toRat_exact (p : ℕ) :
    (⟨exactCoefficient p, -unitPlaces⟩ : Decimal).toRat = point p := by
  have hpow : (10 : ℚ) ^ unitPlaces = 5 ^ unitPlaces * 2 ^ unitPlaces := by
    rw [← mul_pow]
    norm_num
  rw [Decimal.toRat_eq, exactCoefficient, Nat.pow_eq, zpow_neg, zpow_natCast, hpow, point]
  push_cast
  field_simp

/-- A decimal that is not greater than a point is not rounded to a greater one. -/
theorem nearestPattern_le_of_toRat_le_point (h : d.toRat ≤ point p) : nearestPattern d ≤ p := by
  rw [← toRat_exact] at h
  exact (nearestPattern_le_of_toRat_le h).trans_eq (nearestPattern_of_toRat_eq (toRat_exact p))

/-- A decimal that is not less than a point is not rounded to a lesser one. -/
theorem le_nearestPattern_of_point_le_toRat (h : point p ≤ d.toRat) : p ≤ nearestPattern d := by
  rw [← toRat_exact] at h
  exact (nearestPattern_of_toRat_eq (toRat_exact p)).symm.trans_le (nearestPattern_le_of_toRat_le h)

/-- What lies between a point and a decimal below it that is rounded to it, is rounded to it. -/
theorem nearestPattern_eq_of_le_of_le (hc : nearestPattern c = p) (hle : c.toRat ≤ d.toRat)
    (hpoint : d.toRat ≤ point p) : nearestPattern d = p :=
  Nat.le_antisymm (nearestPattern_le_of_toRat_le_point hpoint)
    (hc.symm.trans_le (nearestPattern_le_of_toRat_le hle))

/-- What lies between a point and a decimal above it that is rounded to it, is rounded to it. -/
theorem nearestPattern_eq_of_ge_of_ge (hc : nearestPattern c = p) (hle : d.toRat ≤ c.toRat)
    (hpoint : point p ≤ d.toRat) : nearestPattern d = p :=
  Nat.le_antisymm ((nearestPattern_le_of_toRat_le hle).trans_eq hc)
    (le_nearestPattern_of_point_le_toRat hpoint)

/-! ## Multiples of a power of ten -/

/-- A multiple of the power of ten with a given place. -/
def multiple (place j : ℕ) : Decimal :=
  ⟨j, place - unitPlaces⟩

/-- The value of a multiple. -/
theorem toRat_multiple (place j : ℕ) :
    (multiple place j).toRat = j * 10 ^ ((place : ℤ) - unitPlaces) :=
  Decimal.toRat_eq _

/-- Multiples are in the order of their coefficients. -/
theorem toRat_multiple_le (place : ℕ) {i j : ℕ} (h : i ≤ j) :
    (multiple place i).toRat ≤ (multiple place j).toRat := by
  have hcast : (i : ℚ) ≤ j := by exact_mod_cast h
  rw [toRat_multiple, toRat_multiple]
  exact mul_le_mul_of_nonneg_right hcast (zpow_pos (by norm_num) _).le

/-- A power of ten is a multiple of the lesser ones. -/
theorem toRat_multiple_pow (place k : ℕ) :
    (multiple place (10 ^ k)).toRat = (multiple (place + k) 1).toRat := by
  have hexponent : ((place + k : ℕ) : ℤ) - unitPlaces = k + ((place : ℤ) - unitPlaces) := by
    push_cast
    ring
  rw [toRat_multiple, toRat_multiple, hexponent, zpow_add₀ (by norm_num), zpow_natCast]
  push_cast
  ring

/-- What has a place that is not below a given one is a multiple. -/
theorem exists_toRat_multiple_eq (m : ℕ) {e : ℤ} (h : (place : ℤ) - unitPlaces ≤ e) :
    ∃ j, (multiple place j).toRat = m * 10 ^ e := by
  obtain ⟨i, rfl⟩ : ∃ i : ℕ, e = i + ((place : ℤ) - unitPlaces) :=
    ⟨(e - (place - unitPlaces)).toNat, by omega⟩
  refine ⟨m * 10 ^ i, ?_⟩
  rw [toRat_multiple, zpow_add₀ (by norm_num), zpow_natCast]
  push_cast
  ring

/-- A multiple is not greater than a point exactly if it is not after the one next below it. -/
theorem toRat_multiple_le_point_iff {j : ℕ} :
    (multiple place j).toRat ≤ point p ↔ j ≤ exactCoefficient p / 10 ^ place := by
  have hscale : (0 : ℚ) < (10 ^ (unitPlaces : ℤ))⁻¹ := inv_pos.mpr (zpow_pos (by norm_num) _)
  rw [← toRat_exact, toRat_multiple, Decimal.toRat_eq, zpow_sub₀ (by norm_num), zpow_neg,
    div_eq_mul_inv, ← mul_assoc, mul_le_mul_iff_left₀ hscale, zpow_natCast,
    Nat.le_div_iff_mul_le (Nat.pow_pos (by decide))]
  norm_cast

/-- The search in a grid looks at the two multiples next to the point. -/
theorem nearestOnGrid?_eq (p place : ℕ) :
    nearestOnGrid? p place =
      if patternOf (multiple place (exactCoefficient p / 10 ^ place)) = p ∧
          (2 * (exactCoefficient p % 10 ^ place) < 10 ^ place ∨
            patternOf (multiple place (exactCoefficient p / 10 ^ place + 1)) ≠ p) then
        some (multiple place (exactCoefficient p / 10 ^ place))
      else if patternOf (multiple place (exactCoefficient p / 10 ^ place + 1)) = p then
        some (multiple place (exactCoefficient p / 10 ^ place + 1))
      else none :=
  rfl

/-- What is found in a grid is a multiple next to the point that is rounded to it. -/
theorem exists_of_nearestOnGrid?_eq_some (hp : p < infinityPattern)
    (h : nearestOnGrid? p place = some d) :
    nearestPattern d = p ∧ ∃ j, d = multiple place j ∧
      exactCoefficient p / 10 ^ place ≤ j ∧ j ≤ exactCoefficient p / 10 ^ place + 1 := by
  rw [nearestOnGrid?_eq] at h
  split at h
  · rename_i hbelow
    obtain rfl := Option.some.inj h
    exact ⟨(patternOf_eq_iff hp).mp hbelow.1, _, rfl, le_rfl, Nat.le_succ _⟩
  split at h
  · rename_i habove
    obtain rfl := Option.some.inj h
    exact ⟨(patternOf_eq_iff hp).mp habove, _, rfl, Nat.le_succ _, le_rfl⟩
  · cases h

/-- Nothing is found in a grid exactly if no multiple is rounded to the point. -/
theorem nearestOnGrid?_eq_none_iff (hp : p < infinityPattern) :
    nearestOnGrid? p place = none ↔ ∀ j, nearestPattern (multiple place j) ≠ p := by
  constructor
  · intro hnone
    rw [nearestOnGrid?_eq] at hnone
    have hnext : patternOf (multiple place (exactCoefficient p / 10 ^ place)) ≠ p ∧
        patternOf (multiple place (exactCoefficient p / 10 ^ place + 1)) ≠ p := by
      split at hnone
      · cases hnone
      split at hnone
      · cases hnone
      · rename_i hbelow habove
        exact ⟨fun hpattern => hbelow ⟨hpattern, .inr habove⟩, habove⟩
    rw [Ne, Ne, patternOf_eq_iff hp, patternOf_eq_iff hp] at hnext
    intro j hj
    by_cases hle : j ≤ exactCoefficient p / 10 ^ place
    · exact hnext.1 (nearestPattern_eq_of_le_of_le hj (toRat_multiple_le place hle)
        (toRat_multiple_le_point_iff.mpr le_rfl))
    · have habove : ¬ exactCoefficient p / 10 ^ place + 1 ≤ exactCoefficient p / 10 ^ place := by
        omega
      rw [← toRat_multiple_le_point_iff] at habove
      exact hnext.2 (nearestPattern_eq_of_ge_of_ge hj
        (toRat_multiple_le place (Nat.lt_of_not_le hle)) (le_of_not_ge habove))
  · intro hall
    by_contra hne
    rcases Option.ne_none_iff_exists'.mp hne with ⟨d, hd⟩
    rcases exists_of_nearestOnGrid?_eq_some hp hd with ⟨hpattern, j, rfl, -⟩
    exact hall j hpattern

/-! ## Seventeen digits -/

/-- The step above a point of a binade is at least the one of the binade. -/
theorem succ_mul_le_point {s k : ℕ} (hs : s = 0 ∨ 2 ^ 52 ≤ k) (hk : k ≤ 2 ^ 53) :
    (k + 1) * 2 ^ ((s : ℤ) - 1074) ≤ point (s * 2 ^ 52 + k + 1) := by
  have hunits : ((k + 1) * 2 ^ s : ℚ) ≤ units (s * 2 ^ 52 + k + 1) := by
    exact_mod_cast succ_mul_le_units hs hk
  rw [point, unitPlaces, zpow_sub₀ two_ne_zero, zpow_natCast, zpow_ofNat, ← mul_div_assoc]
  exact div_le_div_of_nonneg_right hunits (by positivity)

/-- A point is less than `10 ^ 16` times the half of the distance between the points beside
it. -/
theorem two_mul_point_lt (p : ℕ) :
    2 * point (p + 1) < 10 ^ 16 * (point (p + 2) - point p) := by
  rcases exists_binade (p + 1) with ⟨s, k, hsplit, hs, hk⟩
  have hpoint : point (p + 1) = k * 2 ^ ((s : ℤ) - 1074) := by
    rw [hsplit, point_binade hs hk.le]
  have habove : (k + 1) * 2 ^ ((s : ℤ) - 1074) ≤ point (p + 2) := by
    rw [show p + 2 = s * 2 ^ 52 + k + 1 by omega]
    exact succ_mul_le_point hs hk.le
  have hstep : (0 : ℚ) < 2 ^ ((s : ℤ) - 1074) := zpow_pos (by norm_num) _
  by_cases hinside : s = 0 ∨ 2 ^ 52 < k
  · obtain ⟨j, rfl⟩ : ∃ j, k = j + 1 := ⟨k - 1, by omega⟩
    obtain rfl : p = s * 2 ^ 52 + j := by omega
    have hbelow : point (s * 2 ^ 52 + j) = j * 2 ^ ((s : ℤ) - 1074) :=
      point_binade (by omega) (by omega)
    have hsmall : (j : ℚ) + 1 < 10 ^ 16 := by
      exact_mod_cast (show j + 1 < 10 ^ 16 by omega)
    rw [hbelow, hpoint]
    push_cast at habove ⊢
    nlinarith
  · -- The first point of a binade: the step below it is only a half of the one above it.
    obtain rfl : k = 2 ^ 52 := by omega
    have hbelow : point p < point (p + 1) := point_strictMono (Nat.lt_succ_self p)
    rw [hpoint] at hbelow ⊢
    push_cast at habove hbelow ⊢
    nlinarith

/-- If the step of the multiples is at most `10 ^ -16` of a point, one of them is rounded to
the point. -/
theorem exists_nearestPattern_multiple_eq
    (h : (multiple (place + 16) 1).toRat ≤ point (p + 1)) :
    ∃ j, nearestPattern (multiple place j) = p + 1 := by
  by_contra hnone
  rw [not_exists] at hnone
  set q := exactCoefficient (p + 1) / 10 ^ place with hq
  have hbelow : (multiple place q).toRat ≤ point (p + 1) :=
    toRat_multiple_le_point_iff.mpr le_rfl
  have habove : point (p + 1) ≤ (multiple place (q + 1)).toRat := by
    have hnot : ¬ q + 1 ≤ exactCoefficient (p + 1) / 10 ^ place := by omega
    rw [← toRat_multiple_le_point_iff] at hnot
    exact le_of_not_ge hnot
  -- The multiples next to the point are beyond the middles to the points beside it, which are
  -- farther apart than a step.
  have hlower : 2 * (multiple place q).toRat ≤ point p + point (p + 1) :=
    two_mul_toRat_le_of_nearestPattern_lt
      ((nearestPattern_le_of_toRat_le_point hbelow).lt_of_ne (hnone q))
  have hupper : point (p + 1) + point (p + 2) ≤ 2 * (multiple place (q + 1)).toRat :=
    le_two_mul_toRat_of_lt_nearestPattern
      ((le_nearestPattern_of_point_le_toRat habove).lt_of_ne' (hnone (q + 1)))
  have hwide := two_mul_point_lt p
  have hstep : (multiple place (10 ^ 16)).toRat =
      10 ^ 16 * ((multiple place (q + 1)).toRat - (multiple place q).toRat) := by
    rw [toRat_multiple, toRat_multiple, toRat_multiple]
    push_cast
    ring
  rw [← toRat_multiple_pow, hstep] at h
  linarith

/-! ## The search -/

/-- A number other than zero has more than seventeen exact digits. -/
theorem maxDigits_lt_digitCount (hp : 0 < p) : maxDigits < digitCount (exactCoefficient p) := by
  have hunits : 1 ≤ units p := hp.trans_le units_strictMono.le_apply
  have hmany : Nat.pow 10 maxDigits ≤ Nat.pow 5 unitPlaces := by decide +kernel
  have hexact : Nat.pow 5 unitPlaces ≤ exactCoefficient p := Nat.le_mul_of_pos_left _ hunits
  rw [← not_le, digitCount_le_iff (by decide)]
  omega

/-- The exact digits of a number are less than the power of ten with their number. -/
theorem exactCoefficient_lt (p : ℕ) :
    exactCoefficient p < 10 ^ digitCount (exactCoefficient p) :=
  (digitCount_le_iff (digitCount_pos _)).mp le_rfl

/-- The first exact digit of a number other than zero is not zero. -/
theorem toRat_multiple_one_le_point (hp : 0 < p) :
    (multiple (digitCount (exactCoefficient p) - 1) 1).toRat ≤ point p := by
  have hmany : 17 < digitCount (exactCoefficient p) := maxDigits_lt_digitCount hp
  have hnot : ¬ digitCount (exactCoefficient p) ≤ digitCount (exactCoefficient p) - 1 := by omega
  rw [digitCount_le_iff (by omega), not_lt, Nat.pow_eq] at hnot
  rw [toRat_multiple_le_point_iff, Nat.le_div_iff_mul_le (Nat.pow_pos (by decide)), Nat.one_mul]
  exact hnot

/-- What is found in a range of numbers is found at the first of them where there is
anything. -/
theorem exists_of_findSome?_range {α : Type} {f : ℕ → Option α} {n : ℕ} {a : α}
    (h : (List.range n).findSome? f = some a) : ∃ i < n, f i = some a ∧ ∀ j < i, f j = none := by
  induction n with
  | zero => cases h
  | succ n ih =>
    rw [List.range_succ, List.findSome?_append, List.findSome?_singleton] at h
    cases hfront : (List.range n).findSome? f with
    | some b =>
      rw [hfront, Option.some_or] at h
      rcases ih (hfront.trans h) with ⟨i, hi, hfound⟩
      exact ⟨i, hi.trans (Nat.lt_succ_self n), hfound⟩
    | none =>
      rw [hfront, Option.none_or] at h
      rw [List.findSome?_eq_none_iff] at hfront
      exact ⟨n, Nat.lt_succ_self n, h, fun j hj => hfront j (List.mem_range.mpr hj)⟩

/-- The shortest decimal is found in the grid with the fewest digits where there is
anything. -/
theorem exists_nearestOnGrid?_eq_shortest (hpos : 0 < p) (hp : p < infinityPattern) :
    ∃ i < 17, nearestOnGrid? p (digitCount (exactCoefficient p) - (i + 1)) = some (shortest p) ∧
      ∀ j < i, nearestOnGrid? p (digitCount (exactCoefficient p) - (j + 1)) = none := by
  have hmany : 17 < digitCount (exactCoefficient p) := maxDigits_lt_digitCount hpos
  have hfirst := toRat_multiple_one_le_point hpos
  cases hsearch : (List.range maxDigits).findSome? fun i =>
      nearestOnGrid? p (digitCount (exactCoefficient p) - (i + 1)) with
  | some d =>
    have hshortest : shortest p = d := by
      rw [shortest, List.findSome?_map, Function.comp_def, hsearch, Option.getD_some]
    rw [hshortest]
    exact exists_of_findSome?_range hsearch
  | none =>
    have hlast := List.findSome?_eq_none_iff.mp hsearch 16 (List.mem_range.mpr (by decide))
    have hplace : digitCount (exactCoefficient p) - 1 =
        digitCount (exactCoefficient p) - (16 + 1) + 16 := by
      omega
    rw [hplace] at hfirst
    obtain ⟨q, rfl⟩ : ∃ q, p = q + 1 := ⟨p - 1, by omega⟩
    rcases exists_nearestPattern_multiple_eq hfirst with ⟨j, hj⟩
    exact ((nearestOnGrid?_eq_none_iff hp).mp hlast j hj).elim

/-- The shortest decimal is rounded to the number. -/
theorem nearestPattern_shortest (hpos : 0 < p) (hp : p < infinityPattern) :
    nearestPattern (shortest p) = p := by
  rcases exists_nearestOnGrid?_eq_shortest hpos hp with ⟨i, -, hfound, -⟩
  exact (exists_of_nearestOnGrid?_eq_some hp hfound).1

/-- A decimal that is rounded to a number other than zero is not zero. -/
theorem coefficient_pos_of_nearestPattern (hpos : 0 < nearestPattern d) : 0 < d.coefficient := by
  apply Nat.pos_of_ne_zero
  intro hzero
  have hvalue : d.toRat = point 0 := by
    rw [Decimal.toRat_eq, hzero, Nat.cast_zero, zero_mul, point_zero]
  rw [nearestPattern_of_toRat_eq hvalue] at hpos
  exact Nat.lt_irrefl 0 hpos

/-! ## No decimal with fewer digits -/

/-- What is found in the grid with `k` digits has at most `k` significant digits. -/
theorem length_significantDigits_le_of_nearestOnGrid? {k : ℕ} (hp : p < infinityPattern)
    (hk : 0 < k) (hle : k ≤ digitCount (exactCoefficient p))
    (h : nearestOnGrid? p (digitCount (exactCoefficient p) - k) = some d) :
    d.significantDigits.length ≤ k := by
  rcases exists_of_nearestOnGrid?_eq_some hp h with ⟨-, j, rfl, -, hj⟩
  have hlt : exactCoefficient p / 10 ^ (digitCount (exactCoefficient p) - k) < 10 ^ k := by
    rw [Nat.div_lt_iff_lt_mul (Nat.pow_pos (by decide)), ← Nat.pow_add, Nat.add_sub_cancel' hle]
    exact exactCoefficient_lt p
  have hone : 1 < 10 ^ k := Nat.one_lt_pow hk.ne' (by decide)
  rw [Decimal.length_significantDigits_le_iff]
  -- The multiple above the last one with `k` digits is a power of ten.
  rcases Nat.lt_or_ge j (10 ^ k) with hdigits | hpow
  · exact ⟨j, 0, (Nat.mul_one j).symm, hdigits⟩
  · have hcoefficient : (multiple (digitCount (exactCoefficient p) - k) j).coefficient = j := rfl
    exact ⟨1, k, by omega, hone⟩

/-- If a decimal with `k` significant digits is rounded to a number, there is one in the grid
with `k` digits. -/
theorem exists_multiple_of_nearestPattern {k : ℕ} (hpos : 0 < p) (hd : nearestPattern d = p)
    (hk : d.significantDigits.length = k) (hle : k ≤ digitCount (exactCoefficient p)) :
    ∃ j, nearestPattern (multiple (digitCount (exactCoefficient p) - k) j) = p := by
  set place := digitCount (exactCoefficient p) - k with hplace
  have hne := Decimal.significantDigits_ne_nil (coefficient_pos_of_nearestPattern (hd ▸ hpos))
  have hkpos : 0 < k := hk ▸ List.length_pos_of_ne_nil hne
  rcases Decimal.length_significantDigits_le_iff.mp hk.le with ⟨m, z, hm, hlt⟩
  have hvalue : d.toRat = m * 10 ^ (z + d.exponent) := by
    rw [Decimal.toRat_eq, hm, zpow_add₀ (by norm_num), zpow_natCast]
    push_cast
    ring
  by_cases hcoarse : (place : ℤ) - unitPlaces ≤ z + d.exponent
  · -- The decimal is in the grid.
    rcases exists_toRat_multiple_eq m hcoarse with ⟨j, hj⟩
    rw [← hvalue] at hj
    refine ⟨j, ?_⟩
    rw [← hd]
    exact Nat.le_antisymm (nearestPattern_le_of_toRat_le hj.le)
      (nearestPattern_le_of_toRat_le hj.ge)
  · -- The decimal is below the power of ten with the first exact digit of the number.
    have hpow : (multiple place (10 ^ (k - 1))).toRat =
        (multiple (digitCount (exactCoefficient p) - 1) 1).toRat := by
      have hfirst : digitCount (exactCoefficient p) - 1 = place + (k - 1) := by omega
      rw [toRat_multiple_pow, hfirst]
    refine ⟨10 ^ (k - 1), nearestPattern_eq_of_le_of_le hd ?_
      (hpow.trans_le (toRat_multiple_one_le_point hpos))⟩
    have hcast : (m : ℚ) ≤ 10 ^ k := by exact_mod_cast hlt.le
    calc d.toRat = m * 10 ^ (z + d.exponent) := hvalue
      _ ≤ 10 ^ k * 10 ^ ((place : ℤ) - unitPlaces - 1) :=
        mul_le_mul hcast (zpow_le_zpow_right₀ (by norm_num) (by omega))
          (zpow_pos (by norm_num) _).le (by positivity)
      _ = (multiple place (10 ^ (k - 1))).toRat := by
        obtain ⟨i, rfl⟩ : ∃ i, k = i + 1 := ⟨k - 1, by omega⟩
        rw [toRat_multiple, zpow_sub_one₀ (by norm_num), Nat.add_sub_cancel, pow_succ]
        push_cast
        ring

/-- No decimal with fewer significant digits than the shortest one is rounded to a number. -/
theorem length_significantDigits_shortest_le (hpos : 0 < p) (hp : p < infinityPattern)
    (hd : nearestPattern d = p) :
    (shortest p).significantDigits.length ≤ d.significantDigits.length := by
  have hmany : 17 < digitCount (exactCoefficient p) := maxDigits_lt_digitCount hpos
  rcases exists_nearestOnGrid?_eq_shortest hpos hp with ⟨i, hi, hfound, hcoarser⟩
  have hlength := length_significantDigits_le_of_nearestOnGrid? hp i.succ_pos (by omega) hfound
  by_contra hfewer
  obtain ⟨j, hj⟩ : ∃ j, d.significantDigits.length = j + 1 := by
    have hne := Decimal.significantDigits_ne_nil (coefficient_pos_of_nearestPattern (hd ▸ hpos))
    exact ⟨_, (Nat.succ_pred_eq_of_pos (List.length_pos_of_ne_nil hne)).symm⟩
  rcases exists_multiple_of_nearestPattern hpos hd hj (by omega) with ⟨n, hn⟩
  exact (nearestOnGrid?_eq_none_iff hp).mp (hcoarser j (by omega)) n hn

end Binary64
end LoxScan
