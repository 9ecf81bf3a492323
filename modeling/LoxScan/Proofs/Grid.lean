import Mathlib.Order.Monotone.Basic
import Mathlib.Tactic.Ring
import LoxScan.Number.Binary64

/-!
# LoxScan - The grid of the binary64 numbers

The finite numbers without a sign are multiples of the least positive one.  In the order of
their patterns they make up a grid whose steps double from one binade to the next.  The
module gives the points of the grid, without an end, and rounding to them.

Main definitions:

- `Binary64.gridPattern`, the pattern that a fraction is rounded to, if there were no
  greatest number;
- `Binary64.Nearest`, the pattern of the point that is nearest to a fraction.

Main results:

- Theorem `Binary64.units_strictMono`: patterns are in the order of their values.
- Theorem `Binary64.roundHalfEven_spec`: rounding to integers.
- Theorem `Binary64.Nearest.succ_le_iff`: the fractions for which a point is reached.
- Theorem `Binary64.nearest_gridPattern`: rounding to the grid.
-/

namespace LoxScan
namespace Binary64

/-! ## Points of the grid -/

/-- The points of a binade, and the first one after it, are a step apart.  The numbers without
a leading one are a binade of their own. -/
theorem units_binade {s k : Nat} (hs : s = 0 ∨ 2 ^ 52 ≤ k) (hk : k ≤ 2 ^ 53) :
    units (s * 2 ^ 52 + k) = k * 2 ^ s := by
  have hunits : ∀ p e f, p / 2 ^ 52 = e → p % 2 ^ 52 = f →
      units p = if e = 0 then f else (2 ^ 52 + f) * 2 ^ (e - 1) := by
    rintro p _ _ rfl rfl
    rfl
  by_cases hsmall : k < 2 ^ 52
  · obtain rfl : s = 0 := by omega
    rw [hunits _ 0 k (by omega) (by omega)]
    simp
  · by_cases hlast : k = 2 ^ 53
    · rw [hunits _ (s + 2) 0 (by omega) (by omega), if_neg (by omega), hlast]
      have hpow : 2 ^ (s + 2 - 1) = 2 * 2 ^ s := by
        rw [Nat.add_sub_assoc (by decide), Nat.pow_succ, Nat.mul_comm]
      rw [hpow]
      omega
    · rw [hunits _ (s + 1) (k - 2 ^ 52) (by omega) (by omega), if_neg (by omega),
        Nat.add_sub_cancel' (by omega), Nat.add_sub_cancel]

/-- Every point of the grid is in a binade, and not the first one after it. -/
theorem exists_binade (p : Nat) :
    ∃ s k, p = s * 2 ^ 52 + k ∧ (s = 0 ∨ 2 ^ 52 ≤ k) ∧ k < 2 ^ 53 := by
  refine ⟨p / 2 ^ 52 - 1, p - (p / 2 ^ 52 - 1) * 2 ^ 52, ?_, ?_, ?_⟩ <;> omega

/-- The step above a point of a binade is at least the one of the binade. -/
theorem succ_mul_le_units {s k : Nat} (hs : s = 0 ∨ 2 ^ 52 ≤ k) (hk : k ≤ 2 ^ 53) :
    (k + 1) * 2 ^ s ≤ units (s * 2 ^ 52 + k + 1) := by
  by_cases hlast : k = 2 ^ 53
  · -- The point is the first one of the next binade, where the step is twice as wide.
    have hnext : s * 2 ^ 52 + k + 1 = (s + 1) * 2 ^ 52 + (2 ^ 52 + 1) := by omega
    have hpow : 2 ^ (s + 1) = 2 * 2 ^ s := by rw [Nat.pow_succ, Nat.mul_comm]
    rw [hnext, units_binade (.inr (by omega)) (by omega), hpow, hlast]
    omega
  · rw [Nat.add_assoc, units_binade (by omega) (by omega)]

/-- Patterns are in the order of their values. -/
theorem units_strictMono : StrictMono units := by
  apply strictMono_nat_of_lt_succ
  intro p
  rcases exists_binade p with ⟨s, k, rfl, hs, hk⟩
  have hstep : k * 2 ^ s < (k + 1) * 2 ^ s :=
    Nat.mul_lt_mul_of_pos_right (Nat.lt_succ_self k) (Nat.two_pow_pos s)
  rw [units_binade hs (by omega)]
  exact Nat.lt_of_lt_of_le hstep (succ_mul_le_units hs (by omega))

/-! ## Rounding to integers -/

/-- An integer that is rounded to is within a half of the fraction, and even if it is exactly
a half away. -/
theorem roundHalfEven_spec {n d : Nat} (hd : 0 < d) :
    2 * n ≤ (2 * roundHalfEven n d + 1) * d ∧ 2 * roundHalfEven n d * d ≤ 2 * n + d ∧
      (2 * n = (2 * roundHalfEven n d + 1) * d → roundHalfEven n d % 2 = 0) ∧
      (2 * roundHalfEven n d * d = 2 * n + d → roundHalfEven n d % 2 = 0) := by
  have hn : n / d * d + n % d = n := Nat.div_add_mod' n d
  have hr : n % d < d := Nat.mod_lt n hd
  have hodd : ∀ k, (2 * k + 1) * d = 2 * (k * d) + d := fun k => by
    rw [Nat.add_mul, Nat.one_mul, Nat.mul_assoc]
  have heven : ∀ k, 2 * k * d = 2 * (k * d) := fun k => Nat.mul_assoc 2 k d
  have hsucc : (n / d + 1) * d = n / d * d + d := Nat.succ_mul _ _
  unfold roundHalfEven
  simp only [hodd, heven]
  split
  · rw [hsucc]
    omega
  · omega

/-- Rounding goes to one of the two integers beside the fraction. -/
theorem roundHalfEven_eq_or (n d : Nat) :
    roundHalfEven n d = n / d ∨ roundHalfEven n d = n / d + 1 := by
  unfold roundHalfEven
  simp only
  split
  · exact .inr rfl
  · exact .inl rfl

/-! ## Rounding to the grid -/

/-- The binade of a fraction by the binary logarithm of its integer part: how far its step is
from the least one. -/
def binade (n d : Nat) : Nat :=
  Nat.log2 (n / d) - fractionWidth

/-- The pattern that a fraction is rounded to, if there were no greatest number. -/
def gridPattern (n d : Nat) : Nat :=
  binade n d * 2 ^ 52 + roundHalfEven n (d * 2 ^ binade n d)

/-- Too large a pattern becomes infinity. -/
theorem roundUnits_eq (n d : Nat) : roundUnits n d = min (gridPattern n d) infinityPattern :=
  rfl

/-- In steps of its binade, the integer part of a fraction has 53 binary digits, or fewer if
the step is the least one. -/
theorem div_binade (n d : Nat) :
    n / (d * 2 ^ binade n d) < 2 ^ 53 ∧
      (binade n d = 0 ∨ 2 ^ 52 ≤ n / (d * 2 ^ binade n d)) := by
  rw [← Nat.div_div_eq_div_mul]
  have hlt : n / d < 2 ^ (Nat.log2 (n / d) + 1) := Nat.lt_log2_self
  by_cases hsmall : Nat.log2 (n / d) ≤ 52
  · have hbinade : binade n d = 0 := Nat.sub_eq_zero_of_le hsmall
    have hpow : 2 ^ (Nat.log2 (n / d) + 1) ≤ 2 ^ 53 := Nat.pow_le_pow_right (by decide) (by omega)
    rw [hbinade, Nat.pow_zero, Nat.div_one]
    exact ⟨Nat.lt_of_lt_of_le hlt hpow, .inl rfl⟩
  · have hlog : Nat.log2 (n / d) = 52 + binade n d := by
      rw [binade, fractionWidth]
      omega
    have hne : n / d ≠ 0 := by
      intro hzero
      rw [hzero, Nat.log2_zero] at hsmall
      omega
    have hle : 2 ^ Nat.log2 (n / d) ≤ n / d := Nat.log2_self_le hne
    rw [hlog] at hle hlt
    refine ⟨?_, .inr ?_⟩
    · rw [Nat.div_lt_iff_lt_mul (Nat.two_pow_pos _), ← Nat.pow_add]
      rwa [show 53 + binade n d = 52 + binade n d + 1 by omega]
    · rw [Nat.le_div_iff_mul_le (Nat.two_pow_pos _), ← Nat.pow_add]
      exact hle

/-- The pattern of the point of the grid that is nearest to `n / d`: the fraction is not
beyond the middle between the point and the one above it or below it, and in a middle, the
pattern is even. -/
structure Nearest (n d p : Nat) : Prop where
  le_above : 2 * n ≤ (units p + units (p + 1)) * d
  below_le : ∀ q, q + 1 = p → (units q + units p) * d ≤ 2 * n
  even_of_above : 2 * n = (units p + units (p + 1)) * d → p % 2 = 0
  even_of_below : ∀ q, q + 1 = p → (units q + units p) * d = 2 * n → p % 2 = 0

namespace Nearest

variable {n d p q : Nat}

/-- The fraction is not beyond the middle between the nearest point and any point below it. -/
theorem add_le (h : Nearest n d p) (hd : 0 < d) (hq : q < p) :
    (units q + units p) * d ≤ 2 * n ∧ ((units q + units p) * d = 2 * n → p % 2 = 0) := by
  obtain ⟨r, rfl⟩ : ∃ r, p = r + 1 := ⟨p - 1, by omega⟩
  have hle := h.below_le r rfl
  by_cases hnext : q = r
  · subst hnext
    exact ⟨hle, h.even_of_below q rfl⟩
  · have hlt : units q < units r := units_strictMono (by omega)
    have hmul := Nat.mul_lt_mul_of_pos_right (Nat.add_lt_add_right hlt (units (r + 1))) hd
    omega

/-- The fraction is not beyond the middle between the nearest point and any point above it. -/
theorem le_add (h : Nearest n d p) (hd : 0 < d) (hq : p < q) :
    2 * n ≤ (units p + units q) * d ∧ (2 * n = (units p + units q) * d → p % 2 = 0) := by
  have hle := h.le_above
  by_cases hnext : q = p + 1
  · subst hnext
    exact ⟨hle, h.even_of_above⟩
  · have hlt : units (p + 1) < units q := units_strictMono (by omega)
    have hmul := Nat.mul_lt_mul_of_pos_right (Nat.add_lt_add_left hlt (units p)) hd
    omega

/-- A point is reached from the middle below it on, with the middle if the pattern is even. -/
theorem succ_le_iff (h : Nearest n d p) (hd : 0 < d) :
    q + 1 ≤ p ↔ (units q + units (q + 1)) * d < 2 * n ∨
      ((units q + units (q + 1)) * d = 2 * n ∧ q % 2 = 1) := by
  constructor
  · intro hq
    by_cases hpoint : p = q + 1
    · subst hpoint
      have hbelow := h.add_le hd (Nat.lt_succ_self q)
      omega
    · have hlt : units (q + 1) < units p := units_strictMono (by omega)
      have hmul := Nat.mul_lt_mul_of_pos_right (Nat.add_lt_add_left hlt (units q)) hd
      exact .inl (Nat.lt_of_lt_of_le hmul (h.add_le hd (by omega)).1)
  · intro hmiddle
    apply Nat.succ_le_of_lt
    apply Nat.lt_of_not_le
    intro hle
    have hbelow := h.le_add hd (show p < q + 1 by omega)
    by_cases hpoint : p = q
    · subst hpoint
      omega
    · have hlt : units p < units q := units_strictMono (by omega)
      have hmul := Nat.mul_lt_mul_of_pos_right (Nat.add_lt_add_right hlt (units (q + 1))) hd
      omega

end Nearest

/-- A fraction is rounded to the grid in steps of its binade. -/
theorem gridPattern_eq (n : Nat) {d : Nat} (hd : 0 < d) :
    ∃ s k, gridPattern n d = s * 2 ^ 52 + k ∧ (s = 0 ∨ 2 ^ 52 ≤ k) ∧ k ≤ 2 ^ 53 ∧
      k = roundHalfEven n (d * 2 ^ s) ∧ (s = 0 ∨ 2 ^ 52 * (d * 2 ^ s) ≤ n) := by
  rcases div_binade n d with ⟨hlt, hnormal⟩
  have hstep : 0 < d * 2 ^ binade n d := Nat.mul_pos hd (Nat.two_pow_pos _)
  have hcases := roundHalfEven_eq_or n (d * 2 ^ binade n d)
  refine ⟨binade n d, _, rfl, ?_, ?_, rfl, ?_⟩
  · omega
  · omega
  · exact hnormal.imp_right (Nat.le_div_iff_mul_le hstep).mp

/-- Rounding to the grid goes to the nearest point. -/
theorem nearest_gridPattern (n : Nat) {d : Nat} (hd : 0 < d) : Nearest n d (gridPattern n d) := by
  rcases gridPattern_eq n hd with ⟨s, k, hpattern, hs, hk, hround, hfirst⟩
  have hstep : 0 < d * 2 ^ s := Nat.mul_pos hd (Nat.two_pow_pos s)
  rcases roundHalfEven_spec (n := n) hstep with ⟨hle, hge, heven, heven'⟩
  rw [← hround] at hle hge heven heven'
  have hparity : k % 2 = 0 → (s * 2 ^ 52 + k) % 2 = 0 := by omega
  have hpoint : units (s * 2 ^ 52 + k) = k * 2 ^ s := units_binade hs hk
  have hscale : ∀ i, i * 2 ^ s * d = i * (d * 2 ^ s) := fun i => by
    rw [Nat.mul_comm d, Nat.mul_assoc]
  have habove : (2 * k + 1) * (d * 2 ^ s) ≤
      (units (s * 2 ^ 52 + k) + units (s * 2 ^ 52 + k + 1)) * d := by
    have hnext := Nat.mul_le_mul_right d (succ_mul_le_units hs hk)
    calc (2 * k + 1) * (d * 2 ^ s) = k * 2 ^ s * d + (k + 1) * 2 ^ s * d := by ring
      _ ≤ k * 2 ^ s * d + units (s * 2 ^ 52 + k + 1) * d := Nat.add_le_add_left hnext _
      _ = (units (s * 2 ^ 52 + k) + units (s * 2 ^ 52 + k + 1)) * d := by rw [hpoint, Nat.add_mul]
  -- The point below is a step of the binade away, or less far at the beginning of a binade,
  -- but there the fraction is not below the point.
  have hbelow : ∀ q, q + 1 = s * 2 ^ 52 + k →
      (units q + units (s * 2 ^ 52 + k)) * d + d * 2 ^ s = 2 * k * (d * 2 ^ s) ∨
        (units q + units (s * 2 ^ 52 + k)) * d < 2 * n := by
    intro q hq
    by_cases hinside : s = 0 ∨ 2 ^ 52 < k
    · left
      obtain ⟨j, rfl⟩ : ∃ j, k = j + 1 := ⟨k - 1, by omega⟩
      obtain rfl : q = s * 2 ^ 52 + j := by omega
      rw [hpoint, units_binade (by omega) (by omega), Nat.add_mul, hscale, hscale]
      ring
    · right
      have hlt : units q < units (s * 2 ^ 52 + k) := units_strictMono (by omega)
      have hmul := Nat.mul_lt_mul_of_pos_right hlt hd
      have hreached : units (s * 2 ^ 52 + k) * d ≤ n := by
        obtain rfl : k = 2 ^ 52 := by omega
        rw [hpoint, hscale]
        exact hfirst.resolve_left (by omega)
      rw [Nat.add_mul]
      omega
  rw [hpattern]
  refine ⟨?_, ?_, ?_, ?_⟩
  · exact Nat.le_trans hle habove
  · intro q hq
    rcases hbelow q hq with hin | hfar <;> omega
  · intro htie
    exact hparity (heven (Nat.le_antisymm hle (htie ▸ habove)))
  · intro q hq htie
    rcases hbelow q hq with hin | hfar
    · exact hparity (heven' (by omega))
    · omega

end Binary64
end LoxScan
