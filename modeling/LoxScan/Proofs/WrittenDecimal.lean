import Mathlib.Data.List.DropRight
import LoxScan.Proofs.NumberLiterals

/-!
# LoxScan - Written decimals

A written decimal is digits with a point among them, and possibly an exponent.  It has the
value of the decimal that is written, and its digits are the significant ones of the decimal,
the zeros around them apart.  Which of the two forms is taken depends on the value only.

Main definitions:

- `writtenValue`, the value of digits with a point and an exponent;
- `writtenDigits`, the digits of a written number without the zeros around them;
- `placedValue`, the value of digits by the place of the point;
- `Numeral.placed` and `Numeral.leading`, the numerals of the two forms.

Main results:

- Theorem `Decimal.length_significantDigits_le_iff`: what a decimal with a few significant
  digits is.
- Theorems `Decimal.text_eq_chars` and `Decimal.text_eq_chars_append`: the two forms.
- Theorem `Decimal.le_pointPlace_iff`: the place of the point by the value.
- Theorem `Decimal.writtenValue_text`: a written decimal has the value of the decimal.
- Theorem `Decimal.writtenDigits_text`: it has the significant digits of the decimal.
-/

namespace LoxScan

/-! ## Digits -/

/-- Digits spell a number that is less than the power of ten with their number. -/
theorem ofDigitChars_lt {cs : List Char} (h : ∀ c ∈ cs, c.isDigit) :
    Nat.ofDigitChars 10 cs 0 < 10 ^ cs.length := by
  induction cs with
  | nil => simp
  | cons c cs ih =>
    have hrest := ih fun d hd => h d (List.mem_cons_of_mem c hd)
    have hdigit : c.toNat - 48 ≤ 9 := by
      have hc : c.toNat ≤ 57 := (Char.isDigit_iff_toNat.mp (h c List.mem_cons_self)).2
      omega
    have hfirst := Nat.mul_le_mul_left (10 ^ cs.length) hdigit
    rw [Nat.ofDigitChars_cons, Nat.mul_zero, Nat.zero_add, Nat.ofDigitChars_eq_ofDigitChars_zero,
      List.length_cons, Nat.pow_succ, show '0'.toNat = 48 from rfl]
    omega

/-- A number times a power of ten has zeros at its end. -/
theorem toDigits_mul_pow {m : ℕ} (hm : 0 < m) (z : ℕ) :
    Nat.toDigits 10 (m * 10 ^ z) = Nat.toDigits 10 m ++ List.replicate z '0' := by
  induction z with
  | zero => simp
  | succ z ih =>
    have hpos : 0 < m * 10 ^ z := Nat.mul_pos hm (Nat.pow_pos (by decide))
    have happend := Nat.toDigits_append_toDigits (d := 0) (by decide : 1 < 10) hpos (by decide)
    rw [Nat.add_zero, Nat.toDigits_zero, ih] at happend
    rw [Nat.pow_succ, ← Nat.mul_assoc, Nat.mul_comm _ 10, ← happend, List.replicate_succ',
      List.append_assoc]

/-- The digits of a number other than zero do not begin with a zero. -/
theorem head?_toDigits_ne {m : ℕ} (hm : 0 < m) : (Nat.toDigits 10 m).head? ≠ some '0' := by
  intro hzero
  obtain ⟨cs, hcs⟩ := List.head?_eq_some_iff.mp hzero
  have hdigits : ∀ c ∈ cs, c.isDigit := fun c hc =>
    Nat.isDigit_of_mem_toDigits (by decide) (by decide) (hcs ▸ List.mem_cons_of_mem _ hc)
  have hvalue : Nat.ofDigitChars 10 cs 0 = m := by
    rw [← Nat.ofDigitChars_ten_toDigits (n := m), hcs, Nat.ofDigitChars_cons]
    rfl
  have hlt : m < 10 ^ cs.length := hvalue ▸ ofDigitChars_lt hdigits
  have hne : 0 < cs.length := by
    apply Nat.pos_of_ne_zero
    intro hempty
    rw [hempty, Nat.pow_zero] at hlt
    omega
  have hlength := (Nat.length_toDigits_le_iff (by decide) hne).mpr hlt
  rw [hcs, List.length_cons] at hlength
  omega

/-- The zeros at the end of a list are dropped, however many they are. -/
theorem rdropWhile_append_replicate (cs : List Char) (z : ℕ) :
    (cs ++ List.replicate z '0').rdropWhile (· = '0') = cs.rdropWhile (· = '0') := by
  rw [List.rdropWhile, List.rdropWhile, List.reverse_append, List.reverse_replicate,
    List.dropWhile_append_of_pos]
  intro c hc
  exact decide_eq_true (List.eq_of_mem_replicate hc)

/-! ## Digits with a point -/

/-- The value of digits with the point after the first `place` of them, or before them all by
as many zeros as `place` is below zero. -/
def placedValue (digits : List Char) (place : ℤ) : ℚ :=
  Nat.ofDigitChars 10 digits 0 * 10 ^ (place - digits.length)

/-- Zeros at the front do not change the value. -/
theorem placedValue_replicate_append (z : ℕ) (digits : List Char) (place : ℤ) :
    placedValue (List.replicate z '0' ++ digits) (place + z) = placedValue digits place := by
  rw [placedValue, placedValue, Nat.ofDigitChars_append, Nat.ofDigitChars_replicate_zero,
    Nat.mul_zero, List.length_append, List.length_replicate]
  congr 2
  omega

/-- Zeros at the end do not change the value. -/
theorem placedValue_append_replicate (digits : List Char) (z : ℕ) (place : ℤ) :
    placedValue (digits ++ List.replicate z '0') place = placedValue digits place := by
  have hsub : place - digits.length = place - (digits.length + z : ℕ) + z := by omega
  rw [placedValue, placedValue, Nat.ofDigitChars_append, Nat.ofDigitChars_replicate_zero,
    List.length_append, List.length_replicate, hsub, zpow_add₀ (by norm_num), zpow_natCast]
  push_cast
  ring

/-- A power of ten moves the point. -/
theorem placedValue_mul_zpow (digits : List Char) (place e : ℤ) :
    placedValue digits place * 10 ^ e = placedValue digits (place + e) := by
  have hsub : place + e - digits.length = place - digits.length + e := by omega
  rw [placedValue, placedValue, hsub, zpow_add₀ (by norm_num), mul_assoc]

namespace Decimal

/-! ## Significant digits -/

/-- The value of a decimal by its parts. -/
theorem toRat_eq (d : Decimal) : d.toRat = d.coefficient * 10 ^ d.exponent := by
  have hsub : d.exponent = d.exponent.toNat - (-d.exponent).toNat := by omega
  conv_rhs => rw [hsub, zpow_sub₀ (by norm_num), zpow_natCast, zpow_natCast]
  rw [toRat, numerator, denominator, Nat.pow_eq, Nat.pow_eq]
  push_cast
  rw [mul_div_assoc]

/-- The significant digits are the digits of the coefficient without the zeros at the end. -/
theorem significantDigits_eq (d : Decimal) :
    d.significantDigits = (Nat.toDigits 10 d.coefficient).rdropWhile (· = '0') :=
  rfl

/-- The digits of the coefficient are the significant ones and zeros. -/
theorem exists_toDigits_eq (d : Decimal) :
    ∃ z, Nat.toDigits 10 d.coefficient = d.significantDigits ++ List.replicate z '0' := by
  have hzeros : ∀ c ∈ (Nat.toDigits 10 d.coefficient).rtakeWhile (· = '0'), c = '0' := by
    intro c hc
    simpa using List.mem_rtakeWhile_imp hc
  refine ⟨((Nat.toDigits 10 d.coefficient).rtakeWhile (· = '0')).length, ?_⟩
  rw [significantDigits_eq, ← List.eq_replicate_of_mem hzeros, List.rdropWhile_append_rtakeWhile]

/-- Significant digits are digits. -/
theorem isDigit_of_mem_significantDigits {d : Decimal} {c : Char}
    (h : c ∈ d.significantDigits) : c.isDigit := by
  rcases exists_toDigits_eq d with ⟨z, hz⟩
  have hmem : c ∈ Nat.toDigits 10 d.coefficient := hz ▸ List.mem_append_left _ h
  exact Nat.isDigit_of_mem_toDigits (by decide) (by decide) hmem

/-- The number that the significant digits spell is the coefficient, if zeros are added. -/
theorem coefficient_eq {d : Decimal} {z : ℕ}
    (h : Nat.toDigits 10 d.coefficient = d.significantDigits ++ List.replicate z '0') :
    d.coefficient = Nat.ofDigitChars 10 d.significantDigits 0 * 10 ^ z := by
  rw [← Nat.ofDigitChars_ten_toDigits (n := d.coefficient), h, Nat.ofDigitChars_append,
    Nat.ofDigitChars_replicate_zero, Nat.mul_comm]

/-- A decimal has at most `k` significant digits exactly if its coefficient is a number with at
most `k` digits, times a power of ten. -/
theorem length_significantDigits_le_iff {d : Decimal} {k : ℕ} :
    d.significantDigits.length ≤ k ↔ ∃ m z, d.coefficient = m * 10 ^ z ∧ m < 10 ^ k := by
  constructor
  · intro hle
    rcases exists_toDigits_eq d with ⟨z, hz⟩
    refine ⟨_, z, coefficient_eq hz, ?_⟩
    exact (ofDigitChars_lt fun c => isDigit_of_mem_significantDigits).trans_le
      (Nat.pow_le_pow_right (by decide) hle)
  · rintro ⟨m, z, hcoefficient, hlt⟩
    rcases Nat.eq_zero_or_pos m with rfl | hm
    · rw [significantDigits_eq, hcoefficient, Nat.zero_mul, Nat.toDigits_zero]
      exact Nat.zero_le k
    · have hk : 0 < k := by
        apply Nat.pos_of_ne_zero
        rintro rfl
        omega
      rw [significantDigits_eq, hcoefficient, toDigits_mul_pow hm, rdropWhile_append_replicate]
      calc ((Nat.toDigits 10 m).rdropWhile (· = '0')).length
          ≤ (Nat.toDigits 10 m).length := List.IsPrefix.length_le <| List.rdropWhile_prefix _ _
        _ ≤ k := (Nat.length_toDigits_le_iff (by decide) hk).mpr hlt

/-- A decimal other than zero has a significant digit. -/
theorem significantDigits_ne_nil {d : Decimal} (h : 0 < d.coefficient) :
    d.significantDigits ≠ [] := by
  intro hnil
  rcases exists_toDigits_eq d with ⟨z, hz⟩
  have hcoefficient := coefficient_eq hz
  rw [hnil, Nat.ofDigitChars_nil, Nat.zero_mul] at hcoefficient
  omega

/-- The first significant digit is not zero. -/
theorem head?_significantDigits_ne (d : Decimal) : d.significantDigits.head? ≠ some '0' := by
  rcases Nat.eq_zero_or_pos d.coefficient with hzero | hpos
  · rw [significantDigits_eq, hzero, Nat.toDigits_zero]
    decide
  · rcases exists_toDigits_eq d with ⟨z, hz⟩
    have hhead := head?_toDigits_ne hpos
    rwa [hz, List.head?_append_of_ne_nil _ (significantDigits_ne_nil hpos)] at hhead

/-- The value of a decimal by its significant digits and the place of the point. -/
theorem toRat_eq_placedValue (d : Decimal) :
    d.toRat = placedValue d.significantDigits d.pointPlace := by
  rcases exists_toDigits_eq d with ⟨z, hz⟩
  have hexponent : d.pointPlace - (Nat.toDigits 10 d.coefficient).length = d.exponent := by
    rw [pointPlace]
    omega
  rw [← placedValue_append_replicate _ z, ← hz, placedValue, Nat.ofDigitChars_ten_toDigits,
    hexponent, toRat_eq]

/-- A decimal reaches a power of ten exactly if the point of the power is not after its own. -/
theorem le_pointPlace_iff {d : Decimal} (h : 0 < d.coefficient) (k : ℤ) :
    k + 1 ≤ d.pointPlace ↔ 10 ^ k ≤ d.toRat := by
  obtain ⟨n, hn⟩ : ∃ n, (Nat.toDigits 10 d.coefficient).length = n + 1 :=
    ⟨_, (Nat.succ_pred_eq_of_pos Nat.length_toDigits_pos).symm⟩
  have hplace : d.pointPlace = n + 1 + d.exponent := by
    rw [pointPlace, hn, Nat.cast_succ]
  have hlt : d.coefficient < 10 ^ (n + 1) :=
    (Nat.length_toDigits_le_iff (by decide) n.succ_pos).mp hn.le
  have hle : 10 ^ n ≤ d.coefficient := by
    rcases Nat.eq_zero_or_pos n with rfl | hpos
    · exact h
    · by_contra hless
      have hlength := (Nat.length_toDigits_le_iff (by decide) hpos).mpr (Nat.lt_of_not_le hless)
      omega
  have hscale : (0 : ℚ) < 10 ^ d.exponent := zpow_pos (by norm_num) _
  rw [hplace, toRat_eq]
  constructor
  · intro hk
    calc (10 : ℚ) ^ k ≤ 10 ^ (n + d.exponent) := zpow_le_zpow_right₀ (by norm_num) (by omega)
      _ = 10 ^ n * 10 ^ d.exponent := by rw [zpow_add₀ (by norm_num), zpow_natCast]
      _ ≤ d.coefficient * 10 ^ d.exponent := by
        rw [mul_le_mul_iff_left₀ hscale]
        exact_mod_cast hle
  · intro hk
    have hpow : (10 : ℚ) ^ k < 10 ^ (n + 1 + d.exponent) := by
      calc (10 : ℚ) ^ k ≤ d.coefficient * 10 ^ d.exponent := hk
        _ < 10 ^ (n + 1) * 10 ^ d.exponent := by
          rw [mul_lt_mul_iff_left₀ hscale]
          exact_mod_cast hlt
        _ = 10 ^ (n + 1 + d.exponent) := by
          rw [zpow_add₀ (by norm_num)]
          norm_cast
    have hless := (zpow_lt_zpow_iff_right₀ (by norm_num)).mp hpow
    omega

end Decimal

/-! ## Numerals by their digits -/

namespace Numeral

/-- The value of a numeral by its digits and the place of the point. -/
theorem toRat_decimal (n : Numeral) :
    n.decimal.toRat = placedValue (n.whole ++ n.fraction) n.whole.length := by
  have hplace : -(n.fraction.length : ℤ) = n.whole.length - (n.whole ++ n.fraction).length := by
    rw [List.length_append]
    omega
  rw [Decimal.toRat_eq, placedValue, ← hplace]
  rfl

/-- The numeral with the point after the first `place` of its digits.  Zeros are added where
there are not enough digits on one side of the point. -/
def placed (digits : List Char) (place : ℤ) : Numeral :=
  if place ≤ 0 then
    ⟨['0'], List.replicate (-place).toNat '0' ++ digits⟩
  else
    ⟨digits.take place.toNat ++ List.replicate (place.toNat - digits.length) '0',
      if (digits.drop place.toNat).isEmpty then ['0'] else digits.drop place.toNat⟩

/-- The numeral with the point after the first digit, if there are others. -/
def leading (digits : List Char) : Numeral :=
  ⟨digits.take 1, digits.drop 1⟩

/-- A numeral that is placed has the given digits and zeros around them. -/
theorem exists_placed_eq (digits : List Char) (place : ℤ) :
    ∃ a b, (placed digits place).whole ++ (placed digits place).fraction =
        List.replicate a '0' ++ digits ++ List.replicate b '0' ∧
      ((placed digits place).whole.length : ℤ) = place + a := by
  unfold placed
  split
  · refine ⟨(-place).toNat + 1, 0, by simp [List.replicate_succ], ?_⟩
    rw [List.length_singleton]
    omega
  · by_cases hlong : digits.length ≤ place.toNat
    · refine ⟨0, place.toNat - digits.length + 1, ?_, ?_⟩
      · simp [List.take_of_length_le hlong, List.drop_eq_nil_of_le hlong, List.replicate_succ']
      · simp only [List.length_append, List.length_take, List.length_replicate]
        omega
    · have hrest : (digits.drop place.toNat).isEmpty = false := by
        rw [List.isEmpty_eq_false_iff, Ne, List.drop_eq_nil_iff]
        exact hlong
      refine ⟨0, 0, ?_, ?_⟩
      · simp [hrest, Nat.sub_eq_zero_of_le (Nat.le_of_not_le hlong)]
      · simp only [List.length_append, List.length_take, List.length_replicate]
        omega

/-- A numeral that is placed has the value of its digits. -/
theorem toRat_decimal_placed (digits : List Char) (place : ℤ) :
    (placed digits place).decimal.toRat = placedValue digits place := by
  rcases exists_placed_eq digits place with ⟨a, b, hdigits, hlength⟩
  rw [toRat_decimal, hdigits, hlength, placedValue_append_replicate, placedValue_replicate_append]

/-- A numeral that is placed is well formed. -/
theorem wellFormed_placed {digits : List Char} (hne : digits ≠ [])
    (h : ∀ c ∈ digits, c.isDigit) (place : ℤ) : (placed digits place).WellFormed := by
  rcases exists_placed_eq digits place with ⟨a, b, hdigits, hlength⟩
  have hall : ∀ c ∈ (placed digits place).whole ++ (placed digits place).fraction, c.isDigit := by
    intro c hc
    rw [hdigits, List.mem_append, List.mem_append, List.mem_replicate, List.mem_replicate] at hc
    rcases hc with (⟨-, rfl⟩ | hmem) | ⟨-, rfl⟩
    · rfl
    · exact h c hmem
    · rfl
  refine ⟨?_, fun c hc => hall c (List.mem_append_left _ hc),
    fun c hc => hall c (List.mem_append_right _ hc)⟩
  unfold placed
  split
  · exact List.cons_ne_nil _ _
  · refine List.append_ne_nil_of_left_ne_nil ?_ _
    rw [Ne, List.take_eq_nil_iff, not_or]
    exact ⟨by omega, hne⟩

/-- Digits are written with a point as the numeral that is placed. -/
theorem positional_eq_chars {digits : List Char} (hne : digits ≠ []) (place : ℤ) :
    Decimal.positional digits place = (placed digits place).chars := by
  have hpointed : ∀ cs : List Char, cs ≠ [] → pointed cs = '.' :: cs := by
    intro cs hcs
    cases cs with
    | nil => exact (hcs rfl).elim
    | cons c cs => rfl
  unfold Decimal.positional placed chars
  split
  · rw [hpointed _ (List.append_ne_nil_of_right_ne_nil _ hne)]
    rfl
  · rw [hpointed]
    split
    · exact List.cons_ne_nil _ _
    · rename_i hrest
      simpa using hrest

/-- A numeral with a leading digit is well formed. -/
theorem wellFormed_leading {digits : List Char} (hne : digits ≠ [])
    (h : ∀ c ∈ digits, c.isDigit) : (leading digits).WellFormed := by
  refine ⟨?_, fun c hc => h c (List.mem_of_mem_take hc), fun c hc => h c (List.mem_of_mem_drop hc)⟩
  rw [leading, Ne, List.take_eq_nil_iff, not_or]
  exact ⟨by decide, hne⟩

/-- A numeral with a leading digit has the value of its digits. -/
theorem toRat_decimal_leading {digits : List Char} (hne : digits ≠ []) :
    (leading digits).decimal.toRat = placedValue digits 1 := by
  have hlength : (digits.take 1).length = 1 :=
    List.length_take_of_le (List.length_pos_of_ne_nil hne)
  rw [toRat_decimal, leading, List.take_append_drop, hlength, Nat.cast_one]

/-- The numeral of zero is well formed. -/
theorem wellFormed_zero : (⟨['0'], ['0']⟩ : Numeral).WellFormed := by
  have hdigit : ∀ c ∈ ['0'], c.isDigit := List.forall_mem_singleton.mpr rfl
  exact ⟨List.cons_ne_nil _ _, hdigit, hdigit⟩

/-- Digits are written with an exponent after the numeral with a leading digit. -/
theorem scientific_eq_chars_append (digits : List Char) (e : ℤ) :
    Decimal.scientific digits e = (leading digits).chars ++ 'e' :: Decimal.exponentDigits e := by
  unfold Decimal.scientific leading chars
  cases digits.drop 1 <;> rfl

end Numeral

namespace Decimal

/-! ## The two forms -/

variable {layout : Layout} {d : Decimal}

/-- A decimal near one is written as a numeral. -/
theorem text_eq_chars (hd : 0 < d.coefficient) (hlowest : 10 ^ layout.lowest ≤ d.toRat)
    (hhighest : d.toRat < 10 ^ (layout.highest + 1)) :
    d.text layout = (Numeral.placed d.significantDigits d.pointPlace).chars := by
  rw [← le_pointPlace_iff hd] at hlowest
  rw [← not_le, ← le_pointPlace_iff hd] at hhighest
  rw [text, if_neg hd.ne', if_pos ⟨by omega, by omega⟩,
    Numeral.positional_eq_chars (significantDigits_ne_nil hd)]

/-- Another decimal is written as a numeral with an exponent. -/
theorem text_eq_chars_append (hd : 0 < d.coefficient)
    (hfar : ¬ (10 ^ layout.lowest ≤ d.toRat ∧ d.toRat < 10 ^ (layout.highest + 1))) :
    d.text layout = (Numeral.leading d.significantDigits).chars ++
      'e' :: exponentDigits (d.pointPlace - 1) := by
  rw [← not_le (b := d.toRat), ← le_pointPlace_iff hd, ← le_pointPlace_iff hd] at hfar
  rw [text, if_neg hd.ne', if_neg (by omega), Numeral.scientific_eq_chars_append]

/-- Zero is written as a numeral. -/
theorem text_eq_chars_of_coefficient_eq_zero (hd : d.coefficient = 0) :
    d.text layout = (⟨['0'], ['0']⟩ : Numeral).chars := by
  rw [text, if_pos hd]
  rfl

end Decimal

/-! ## Reading a written number -/

/-- An exponent, possibly with a minus sign. -/
def exponentValue : List Char → ℤ
  | '-' :: cs => -Nat.ofDigitChars 10 cs 0
  | cs => Nat.ofDigitChars 10 cs 0

/-- The value of digits with a point and an exponent after an `e`. -/
def writtenValue (cs : List Char) : ℚ :=
  decimalValue (before 'e' cs) * 10 ^ exponentValue (after 'e' cs)

/-- Characters without the zeros at both ends. -/
def trimZeros (cs : List Char) : List Char :=
  (cs.dropWhile (· = '0')).rdropWhile (· = '0')

/-- The digits of a written number, the exponent apart, without the zeros at both ends. -/
def writtenDigits (cs : List Char) : List Char :=
  trimZeros ((before 'e' cs).filter Char.isDigit)

/-- An exponent is read back. -/
theorem exponentValue_exponentDigits (e : ℤ) : exponentValue (Decimal.exponentDigits e) = e := by
  unfold Decimal.exponentDigits
  split
  · rw [exponentValue, Nat.ofDigitChars_ten_toDigits]
    omega
  · unfold exponentValue
    split
    · rename_i cs hminus
      have hdigit : '-'.isDigit := Nat.isDigit_of_mem_toDigits (by decide) (by decide)
        (hminus ▸ List.mem_cons_self)
      cases hdigit
    · rw [Nat.ofDigitChars_ten_toDigits]
      omega

/-- Zeros around significant digits are trimmed. -/
theorem Decimal.trimZeros_significantDigits (d : Decimal) (a b : ℕ) :
    trimZeros (List.replicate a '0' ++ d.significantDigits ++ List.replicate b '0') =
      d.significantDigits := by
  have hfront : (List.replicate a '0' ++ (d.significantDigits ++ List.replicate b '0')).dropWhile
      (· = '0') = (d.significantDigits ++ List.replicate b '0').dropWhile (· = '0') :=
    List.dropWhile_append_of_pos fun c hc => decide_eq_true (List.eq_of_mem_replicate hc)
  rw [trimZeros, List.append_assoc, hfront]
  cases hdigits : d.significantDigits with
  | nil => simp
  | cons c cs =>
    have hc : c ≠ '0' := by
      rintro rfl
      exact d.head?_significantDigits_ne (by rw [hdigits]; rfl)
    have hkeep : (c :: cs).rdropWhile (· = '0') = c :: cs := by
      rw [← hdigits, significantDigits_eq, List.rdropWhile_idempotent]
    rw [List.cons_append, List.dropWhile_cons_of_neg (by simpa using hc), ← List.cons_append,
      rdropWhile_append_replicate, hkeep]

namespace Numeral

variable {n : Numeral}

/-- An `e` does not belong to a numeral. -/
theorem e_not_mem_chars (h : n.WellFormed) : 'e' ∉ n.chars :=
  not_mem_chars h (by decide) (by decide)

/-- The digits of a numeral are those of its parts. -/
theorem filter_isDigit_chars (h : n.WellFormed) :
    n.chars.filter Char.isDigit = n.whole ++ n.fraction := by
  have hpointed : (pointed n.fraction).filter Char.isDigit = n.fraction.filter Char.isDigit := by
    cases n.fraction <;> rfl
  rw [chars, List.filter_append, hpointed, List.filter_eq_self.mpr h.2.1,
    List.filter_eq_self.mpr h.2.2]

/-- A numeral without an exponent has its value. -/
theorem writtenValue_chars (h : n.WellFormed) : writtenValue n.chars = n.decimal.toRat := by
  have hexponent : exponentValue [] = 0 := rfl
  rw [writtenValue, before_of_not_mem (e_not_mem_chars h), after_of_not_mem (e_not_mem_chars h),
    decimalValue_chars h, hexponent, zpow_zero, mul_one]

/-- A numeral with an exponent has its value times a power of ten. -/
theorem writtenValue_chars_append (h : n.WellFormed) (cs : List Char) :
    writtenValue (n.chars ++ 'e' :: cs) = n.decimal.toRat * 10 ^ exponentValue cs := by
  rw [writtenValue, before_append_cons (e_not_mem_chars h), after_append_cons (e_not_mem_chars h),
    decimalValue_chars h]

/-- The digits of a numeral without an exponent. -/
theorem writtenDigits_chars (h : n.WellFormed) :
    writtenDigits n.chars = trimZeros (n.whole ++ n.fraction) := by
  rw [writtenDigits, before_of_not_mem (e_not_mem_chars h), filter_isDigit_chars h]

/-- The digits of a numeral with an exponent. -/
theorem writtenDigits_chars_append (h : n.WellFormed) (cs : List Char) :
    writtenDigits (n.chars ++ 'e' :: cs) = trimZeros (n.whole ++ n.fraction) := by
  rw [writtenDigits, before_append_cons (e_not_mem_chars h), filter_isDigit_chars h]

end Numeral

namespace Decimal

/-- A written decimal has the value of the decimal. -/
theorem writtenValue_text (layout : Layout) (d : Decimal) :
    writtenValue (d.text layout) = d.toRat := by
  rcases Nat.eq_zero_or_pos d.coefficient with hzero | hpos
  · have hvalue : (⟨['0'], ['0']⟩ : Numeral).decimal.coefficient = 0 := rfl
    rw [text_eq_chars_of_coefficient_eq_zero hzero,
      Numeral.writtenValue_chars Numeral.wellFormed_zero, toRat_eq, toRat_eq, hzero, hvalue,
      Nat.cast_zero, zero_mul, zero_mul]
  · have hne := significantDigits_ne_nil hpos
    have hdigits : ∀ c ∈ d.significantDigits, c.isDigit :=
      fun c => isDigit_of_mem_significantDigits
    by_cases hnear : 10 ^ layout.lowest ≤ d.toRat ∧ d.toRat < 10 ^ (layout.highest + 1)
    · rw [text_eq_chars hpos hnear.1 hnear.2,
        Numeral.writtenValue_chars (Numeral.wellFormed_placed hne hdigits _),
        Numeral.toRat_decimal_placed, toRat_eq_placedValue]
    · rw [text_eq_chars_append hpos hnear,
        Numeral.writtenValue_chars_append (Numeral.wellFormed_leading hne hdigits),
        Numeral.toRat_decimal_leading hne, exponentValue_exponentDigits, placedValue_mul_zpow,
        add_sub_cancel, toRat_eq_placedValue]

/-- A written decimal has the significant digits of the decimal. -/
theorem writtenDigits_text (layout : Layout) {d : Decimal} (hpos : 0 < d.coefficient) :
    writtenDigits (d.text layout) = d.significantDigits := by
  have hne := significantDigits_ne_nil hpos
  have hdigits : ∀ c ∈ d.significantDigits, c.isDigit :=
    fun c => isDigit_of_mem_significantDigits
  by_cases hnear : 10 ^ layout.lowest ≤ d.toRat ∧ d.toRat < 10 ^ (layout.highest + 1)
  · rcases Numeral.exists_placed_eq d.significantDigits d.pointPlace with ⟨a, b, hplaced, -⟩
    rw [text_eq_chars hpos hnear.1 hnear.2,
      Numeral.writtenDigits_chars (Numeral.wellFormed_placed hne hdigits _), hplaced,
      trimZeros_significantDigits]
  · have htrim := d.trimZeros_significantDigits 0 0
    rw [List.replicate_zero, List.nil_append, List.append_nil] at htrim
    rw [text_eq_chars_append hpos hnear,
      Numeral.writtenDigits_chars_append (Numeral.wellFormed_leading hne hdigits),
      Numeral.leading, List.take_append_drop, htrim]

end Decimal
end LoxScan
