import LoxScan.Proofs.Rounding
import LoxScan.Proofs.Steps

/-!
# LoxScan - The values of number tokens

The text of a number token has a value: its digits before the point count ones, and those
after it parts of one, whatever their number.  The literal of the token is the binary64 number
that this value is rounded to.

Main definitions:

- `decimalValue`, the value of digits with a point among them, or without one.

Main results:

- Theorem `Numeral.decimalValue_chars`: a numeral spells a decimal of its value.
- Theorem `mem_tokens_number_iff`: the number tokens of a source are its numerals.
- Theorem `number_token_rounded`: the literals of number tokens are rounded correctly.  They
  depend on the values of the texts only, and keep their order.
-/

namespace LoxScan

/-! ## Values of texts -/

/-- The value of digits with a point among them, or without one. -/
def decimalValue (cs : List Char) : ℚ :=
  Nat.ofDigitChars 10 (before '.' cs) 0 +
    Nat.ofDigitChars 10 (after '.' cs) 0 / 10 ^ (after '.' cs).length

/-- A fraction of zeros adds nothing to the value. -/
theorem decimalValue_of_zero_fraction {cs : List Char}
    (h : Nat.ofDigitChars 10 (after '.' cs) 0 = 0) :
    decimalValue cs = Nat.ofDigitChars 10 (before '.' cs) 0 := by
  rw [decimalValue, h, Nat.cast_zero, zero_div, add_zero]

namespace Numeral

/-- The only point of a numeral stands between its parts. -/
theorem before_chars {n : Numeral} (h : n.WellFormed) :
    before '.' n.chars = n.whole ∧ after '.' n.chars = n.fraction := by
  have hwhole : '.' ∉ n.whole := fun hmem => absurd (h.2.1 _ hmem) (by decide)
  cases hfraction : n.fraction with
  | nil =>
    rw [chars, hfraction, pointed, List.append_nil]
    exact ⟨before_of_not_mem hwhole, after_of_not_mem hwhole⟩
  | cons c fraction =>
    rw [chars, hfraction]
    exact ⟨before_append_cons hwhole _, after_append_cons hwhole _⟩

/-- A numeral spells a decimal of its value. -/
theorem decimalValue_chars {n : Numeral} (h : n.WellFormed) :
    decimalValue n.chars = n.decimal.toRat := by
  have hnumerator : n.decimal.numerator =
      10 ^ n.fraction.length * Nat.ofDigitChars 10 n.whole 0 +
        Nat.ofDigitChars 10 n.fraction 0 := by
    have hexponent : (-(n.fraction.length : ℤ)).toNat = 0 := by omega
    rw [Decimal.numerator, decimal, hexponent, Nat.pow_eq, Nat.pow_zero, Nat.mul_one,
      Nat.ofDigitChars_append, Nat.ofDigitChars_eq_ofDigitChars_zero]
  have hdenominator : n.decimal.denominator = 10 ^ n.fraction.length := by
    rw [Decimal.denominator, decimal, neg_neg, Int.toNat_natCast, Nat.pow_eq]
  have hpow : (10 : ℚ) ^ n.fraction.length ≠ 0 := by positivity
  rw [decimalValue, (before_chars h).1, (before_chars h).2, Decimal.toRat, hnumerator,
    hdenominator]
  push_cast
  rw [add_div, mul_div_cancel_left₀ _ hpow]

end Numeral

/-! ## Number tokens -/

/-- The number tokens of a source are its numerals, with the numbers that they denote. -/
theorem mem_tokens_number_iff {source : String} {t : Token} :
    t ∈ (tokenize source).tokens ∧ t.kind = .number ↔
      ∃ offset line n, ⟨offset, line, .number n⟩ ∈ Scan.steps source ∧
        t = ⟨.number, String.ofList n.chars, some (.number n.value), line⟩ := by
  rw [tokens_tokenize, List.mem_append, List.mem_filterMap, List.mem_singleton]
  constructor
  · rintro ⟨⟨⟨offset, line, p⟩, hs, htoken⟩ | rfl, hkind⟩
    · have hwell := Scan.wellFormed_of_mem_steps hs
      have hcontent : p.content? = some t.content := by
        rw [← Scan.Step.map_content_token? hwell, htoken, Option.map_some]
      cases p with
      | number n =>
        rw [Scan.Step.token?_number hwell] at htoken
        exact ⟨offset, line, n, hs, (Option.some.inj htoken).symm⟩
      | _ => simp [Piece.content?, Token.content, hkind] at hcontent
    · cases hkind
  · rintro ⟨offset, line, n, hs, rfl⟩
    exact ⟨.inl ⟨_, hs, Scan.Step.token?_number (Scan.wellFormed_of_mem_steps hs) offset line⟩, rfl⟩

/-- A number token has a literal, and it is that of a decimal with the value of the text. -/
theorem exists_decimal_of_mem_tokens {source : String} {t : Token}
    (ht : t ∈ (tokenize source).tokens) (hkind : t.kind = .number) :
    ∃ d : Decimal, t.literal = some (.number (.ofDecimal d)) ∧
      decimalValue t.lexeme.toList = d.toRat := by
  rcases mem_tokens_number_iff.mp ⟨ht, hkind⟩ with ⟨_, _, n, hs, rfl⟩
  refine ⟨n.decimal, rfl, ?_⟩
  rw [String.toList_ofList]
  exact Numeral.decimalValue_chars (Scan.wellFormed_of_mem_steps hs)

/-- The literals of number tokens are the numbers that the values of their texts are rounded
to.  A value that is too small has no leading one or is zero, and a value that a number has is
kept.  A greater value has no lesser literal, and the same value has the same one, wherever
the tokens come from. -/
theorem number_token_rounded {source : String} {t : Token} (ht : t ∈ (tokenize source).tokens)
    (hkind : t.kind = .number) :
    ∃ x, t.literal = some (.number x) ∧ x.Rounds (decimalValue t.lexeme.toList) ∧
      (x.exponentField = 0 ↔
        decimalValue t.lexeme.toList < 2 ^ (-1022 : ℤ) - 2 ^ (-1075 : ℤ)) ∧
      (x.bits = 0 ↔ decimalValue t.lexeme.toList ≤ 2 ^ (-1075 : ℤ)) ∧
      ((∃ y : Binary64, y.toRat? = some (decimalValue t.lexeme.toList)) →
        x.toRat? = some (decimalValue t.lexeme.toList)) ∧
      ∀ source', ∀ u ∈ (tokenize source').tokens, u.kind = .number →
        ∃ y, u.literal = some (.number y) ∧
          (decimalValue t.lexeme.toList ≤ decimalValue u.lexeme.toList →
            x.bits ≤ y.bits ∧ ∀ r, y.toRat? = some r → ∃ q, x.toRat? = some q ∧ q ≤ r) ∧
          (decimalValue t.lexeme.toList = decimalValue u.lexeme.toList → x.bits = y.bits) := by
  rcases exists_decimal_of_mem_tokens ht hkind with ⟨d, hliteral, hvalue⟩
  rw [hvalue]
  refine ⟨.ofDecimal d, hliteral, Binary64.rounds_ofDecimal d,
    Binary64.exponentField_ofDecimal_eq_zero_iff d, Binary64.bits_ofDecimal_eq_zero_iff d, ?_, ?_⟩
  · rintro ⟨y, hy⟩
    exact Binary64.toRat?_ofDecimal_of_toRat? hy
  intro source' u hu hukind
  rcases exists_decimal_of_mem_tokens hu hukind with ⟨d', hliteral', hvalue'⟩
  rw [hvalue']
  refine ⟨.ofDecimal d', hliteral', ?_, ?_⟩
  · intro hle
    have hbits := (Binary64.rounds_ofDecimal d).bits_le (Binary64.rounds_ofDecimal d') hle
    exact ⟨hbits, fun r => Binary64.exists_toRat?_le (Binary64.bits_ofDecimal_le d') hbits⟩
  · intro heq
    exact (Binary64.rounds_ofDecimal d).bits_eq (heq ▸ Binary64.rounds_ofDecimal d')

/-- The number after `2 ^ 53` is in the middle between two numbers, and is rounded to the even
one of them, which is the value of `2 ^ 53` with a point and zeros. -/
theorem number_token_rounded_to_even :
    ∃ t u : Token, t ∈ (tokenize "9007199254740993").tokens ∧ t.kind = .number ∧
      u ∈ (tokenize "-9007199254740992.00").tokens ∧ u.kind = .number ∧
      ∃ x y, t.literal = some (.number x) ∧ u.literal = some (.number y) ∧
        x.Rounds 9007199254740993 ∧ y.toRat? = some 9007199254740992 ∧
        y.bits ≤ x.bits ∧ x.bits = 0x4340000000000000 ∧ y.bits = 0x4340000000000000 := by
  have htie : (⟨0, 1, .number ⟨"9007199254740993".toList, []⟩⟩ : Scan.Step) ∈
      Scan.steps "9007199254740993" := by
    decide +kernel
  have heven : (⟨1, 1, .number ⟨"9007199254740992".toList, ['0', '0']⟩⟩ : Scan.Step) ∈
      Scan.steps "-9007199254740992.00" := by
    decide +kernel
  obtain ⟨t, htlexeme, htliteral, ht, htkind⟩ : ∃ t : Token, t.lexeme = "9007199254740993" ∧
      t.literal = some (.number (Numeral.value ⟨"9007199254740993".toList, []⟩)) ∧
      t ∈ (tokenize "9007199254740993").tokens ∧ t.kind = .number :=
    ⟨_, by decide, rfl, mem_tokens_number_iff.mpr ⟨_, _, _, htie, rfl⟩⟩
  obtain ⟨u, hulexeme, huliteral, hu, hukind⟩ : ∃ u : Token, u.lexeme = "9007199254740992.00" ∧
      u.literal = some (.number (Numeral.value ⟨"9007199254740992".toList, ['0', '0']⟩)) ∧
      u ∈ (tokenize "-9007199254740992.00").tokens ∧ u.kind = .number :=
    ⟨_, by decide, rfl, mem_tokens_number_iff.mpr ⟨_, _, _, heven, rfl⟩⟩
  have htvalue : decimalValue t.lexeme.toList = 9007199254740993 := by
    have hbefore : Nat.ofDigitChars 10 (before '.' "9007199254740993".toList) 0 =
        9007199254740993 := by
      decide +kernel
    rw [htlexeme, decimalValue_of_zero_fraction (by decide +kernel), hbefore, Nat.cast_ofNat]
  have huvalue : decimalValue u.lexeme.toList = 9007199254740992 := by
    have hbefore : Nat.ofDigitChars 10 (before '.' "9007199254740992.00".toList) 0 =
        9007199254740992 := by
      decide +kernel
    rw [hulexeme, decimalValue_of_zero_fraction (by decide +kernel), hbefore, Nat.cast_ofNat]
  rcases number_token_rounded ht htkind with ⟨x, hx, hround, -⟩
  rcases number_token_rounded hu hukind with ⟨y, hy, -, -, -, hexact, hother⟩
  rcases hother _ _ ht htkind with ⟨x', hx', hmono, -⟩
  obtain rfl : x = x' := Literal.number.inj (Option.some.inj (hx.symm.trans hx'))
  have hxbits : x.bits = 0x4340000000000000 := by
    rw [← Literal.number.inj (Option.some.inj (htliteral.symm.trans hx))]
    decide +kernel
  have hybits : y.bits = 0x4340000000000000 := by
    rw [← Literal.number.inj (Option.some.inj (huliteral.symm.trans hy))]
    decide +kernel
  have hfields : Binary64.toRat? ⟨0x4340000000000000⟩ = some 9007199254740992 := by
    have hsign : Binary64.signField ⟨0x4340000000000000⟩ = 0 := by decide +kernel
    have hexponent : Binary64.exponentField ⟨0x4340000000000000⟩ = 1076 := by decide +kernel
    have hfraction : Binary64.fractionField ⟨0x4340000000000000⟩ = 0 := by decide +kernel
    rw [Binary64.toRat?, hsign, hexponent, hfraction]
    norm_num
  rw [htvalue] at hround hmono
  rw [huvalue] at hexact hmono
  exact ⟨t, u, ht, htkind, hu, hukind, x, y, hx, hy, hround, hexact ⟨_, hfields⟩,
    (hmono (by norm_num)).1, hxbits, hybits⟩

end LoxScan
