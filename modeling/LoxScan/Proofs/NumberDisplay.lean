import LoxScan.Proofs.ShortestDecimal

/-!
# LoxScan - Written numbers read back

The written form of a number is that of its shortest decimal.  It has no exponent exactly if
the number is zero, or from `0.0001` up to, and without, `10 ^ 16`; both bounds are hit with a
single digit, so that rounding to the shortest decimal never carries a number across them.
Without an exponent, the written form is a numeral, which is scanned as one token with the same
number.  With one, or with the word for infinity, the letters are errors.

Main results:

- Theorem `Binary64.rounds_iff_nearestPattern_eq`: the decimals that are rounded to a number.
- Theorem `Binary64.le_toRat_shortest_iff`: a bound that the shortest decimals keep.
- Theorem `tokenize_numeral`: a numeral by itself is one token.
- Theorem `causes_tokenize_numeral_exponent`: a numeral with an exponent has one error.
- Theorem `number_text_reads_back`: the written numbers that are read back, the errors of the
  others, and that all are as short as they can be.
-/

namespace LoxScan
namespace Binary64

variable {p : ℕ} {x : Binary64} {d : Decimal}

/-! ## Numbers and their shortest decimals -/

/-- A decimal that is nearest to a finite number is read as the number. -/
theorem ofDecimal_eq_of_nearestPattern (hx : x.bits.toNat < infinityPattern)
    (h : nearestPattern d = x.bits.toNat) : ofDecimal d = x := by
  have hbits : (ofDecimal d).bits = x.bits := by
    rw [← UInt64.toNat_inj, toNat_bits_ofDecimal, h, min_eq_left hx.le]
  exact congrArg mk hbits

/-- The decimals that are rounded to a finite number are those that are nearest to it. -/
theorem rounds_iff_nearestPattern_eq (hx : x.bits.toNat < infinityPattern) :
    x.Rounds d.toRat ↔ nearestPattern d = x.bits.toNat := by
  constructor
  · intro hround
    have hbits := toNat_bits_ofDecimal d
    rw [← hround.bits_eq (rounds_ofDecimal d)] at hbits
    omega
  · intro hnearest
    have hround := rounds_ofDecimal d
    rwa [ofDecimal_eq_of_nearestPattern hx hnearest] at hround

/-- A finite number without a sign is written as its shortest decimal. -/
theorem text_of_bits_lt (hx : x.bits.toNat < infinityPattern) (layout : Layout) :
    x.text layout = (shortest x.bits.toNat).text layout := by
  have hlt : x.bits.toNat < 2047 * 2 ^ 52 := hx
  have hpattern : x.pattern = x.bits.toNat := Nat.mod_eq_of_lt (by rw [Nat.pow_eq]; omega)
  have hnumber : ¬ x.isNaN := by
    rw [isNaN, hpattern, decide_eq_true_iff]
    omega
  have hpositive : ¬ x.isNegative := by
    rw [isNegative, decide_eq_true_iff, Nat.pow_eq]
    omega
  have hfinite : x.pattern ≠ infinityPattern := by
    rw [hpattern]
    exact hx.ne
  rw [← hpattern]
  unfold text
  rw [if_neg hnumber, if_neg hfinite, if_neg hpositive]
  exact List.nil_append _

/-- Infinity is written as a word. -/
theorem text_of_bits_eq (hx : x.bits.toNat = infinityPattern) (layout : Layout) :
    x.text layout = ['i', 'n', 'f'] := by
  have hbits : x.bits = UInt64.ofNat infinityPattern := by
    rw [← UInt64.toNat_inj, hx]
    rfl
  obtain rfl : x = ⟨UInt64.ofNat infinityPattern⟩ := congrArg mk hbits
  rfl

/-- Shortest decimals keep a power of ten as their bound, if the power is the shortest decimal
of the number next to it, and not greater than that number. -/
theorem le_toRat_shortest_iff (place q : ℕ) (hq : q < infinityPattern)
    (hpattern : patternOf (multiple place 1) = q) (hshortest : shortest q = multiple place 1)
    (hbound : 1 ≤ exactCoefficient q / 10 ^ place) (hpos : 0 < p) (hp : p < infinityPattern) :
    (multiple place 1).toRat ≤ (shortest p).toRat ↔ (multiple place 1).toRat ≤ point p := by
  rw [patternOf_eq_iff hq] at hpattern
  rw [← toRat_multiple_le_point_iff] at hbound
  constructor
  · intro hle
    have hreached := nearestPattern_le_of_toRat_le hle
    rw [hpattern, nearestPattern_shortest hpos hp] at hreached
    exact hbound.trans (point_strictMono.monotone hreached)
  · intro hle
    have hreached := nearestPattern_le_of_toRat_le_point hle
    rw [hpattern] at hreached
    rcases hreached.eq_or_lt with rfl | hlt
    · rw [hshortest]
    · by_contra hless
      have hge := nearestPattern_le_of_toRat_le (le_of_not_ge hless)
      rw [hpattern, nearestPattern_shortest hpos hp] at hge
      omega

/-- Shortest decimals keep the least number that is written without an exponent. -/
theorem le_toRat_shortest_lowest_iff (hpos : 0 < p) (hp : p < infinityPattern) :
    (10 : ℚ) ^ (-4 : ℤ) ≤ (shortest p).toRat ↔ (10 : ℚ) ^ (-4 : ℤ) ≤ point p := by
  have hvalue : (multiple 1070 1).toRat = 10 ^ (-4 : ℤ) := by
    rw [toRat_multiple, Nat.cast_one, one_mul]
    rfl
  rw [← hvalue]
  exact le_toRat_shortest_iff 1070 0x3F1A36E2EB1C432D (by decide) (by decide +kernel)
    (by decide +kernel) (by decide +kernel) hpos hp

/-- Shortest decimals keep the bound of the numbers that are written without an exponent. -/
theorem le_toRat_shortest_highest_iff (hpos : 0 < p) (hp : p < infinityPattern) :
    (10 : ℚ) ^ 16 ≤ (shortest p).toRat ↔ (10 : ℚ) ^ 16 ≤ point p := by
  have hvalue : (multiple 1090 1).toRat = 10 ^ 16 := by
    rw [toRat_multiple, Nat.cast_one, one_mul]
    rfl
  rw [← hvalue]
  exact le_toRat_shortest_iff 1090 0x4341C37937E08000 (by decide) (by decide +kernel)
    (by decide +kernel) (by decide +kernel) hpos hp

/-! ## The forms of written numbers -/

/-- Whether a number is zero, or from `0.0001` up to, and without, `10 ^ 16`. -/
def InPlainRange (x : Binary64) : Prop :=
  ∃ q, x.toRat? = some q ∧ (q = 0 ∨ 10 ^ (-4 : ℤ) ≤ q ∧ q < 10 ^ 16)

/-- The shortest decimal of a number other than zero is not zero. -/
theorem coefficient_shortest_pos (hpos : 0 < p) (hp : p < infinityPattern) :
    0 < (shortest p).coefficient :=
  coefficient_pos_of_nearestPattern ((nearestPattern_shortest hpos hp).symm ▸ hpos)

/-- Only zero has the least pattern. -/
theorem pos_of_point_ne_zero (h : point p ≠ 0) : 0 < p := by
  apply Nat.pos_of_ne_zero
  rintro rfl
  exact h point_zero

/-- Zero is written as a numeral that denotes it. -/
theorem exists_numeral_of_bits_eq_zero (hx : x.bits.toNat = 0) (layout : Layout) :
    ∃ n : Numeral, n.WellFormed ∧ x.text layout = n.chars ∧ n.value = x := by
  have hfinite : x.bits.toNat < infinityPattern := by
    rw [hx]
    decide
  have hshortest : (shortest 0).coefficient = 0 := by decide +kernel
  have hnearest : nearestPattern (⟨['0'], ['0']⟩ : Numeral).decimal = 0 := by
    have hcoefficient : (⟨['0'], ['0']⟩ : Numeral).decimal.coefficient = 0 := rfl
    apply nearestPattern_of_toRat_eq
    rw [Decimal.toRat_eq, hcoefficient, Nat.cast_zero, zero_mul, point_zero]
  refine ⟨⟨['0'], ['0']⟩, Numeral.wellFormed_zero, ?_, ?_⟩
  · rw [text_of_bits_lt hfinite, hx, Decimal.text_eq_chars_of_coefficient_eq_zero hshortest]
  · exact ofDecimal_eq_of_nearestPattern hfinite (hnearest.trans hx.symm)

/-- A number that is not too far from one is written as a numeral that denotes it. -/
theorem exists_numeral_of_le_of_lt (hx : x.bits.toNat < infinityPattern)
    (hpos : 0 < x.bits.toNat) (hlowest : 10 ^ (-4 : ℤ) ≤ point x.bits.toNat)
    (hhighest : point x.bits.toNat < 10 ^ 16) :
    ∃ n : Numeral, n.WellFormed ∧ x.text Literal.numberLayout = n.chars ∧ n.value = x := by
  have hcoefficient := coefficient_shortest_pos hpos hx
  have hwell := Numeral.wellFormed_placed (Decimal.significantDigits_ne_nil hcoefficient)
    (fun c => Decimal.isDigit_of_mem_significantDigits) (shortest x.bits.toNat).pointPlace
  rw [← le_toRat_shortest_lowest_iff hpos hx] at hlowest
  rw [← not_le, ← le_toRat_shortest_highest_iff hpos hx, not_le] at hhighest
  refine ⟨_, hwell, ?_, ?_⟩
  · exact (text_of_bits_lt hx _).trans (Decimal.text_eq_chars hcoefficient hlowest hhighest)
  · apply ofDecimal_eq_of_nearestPattern hx
    rw [← rounds_iff_nearestPattern_eq hx, Numeral.toRat_decimal_placed,
      ← Decimal.toRat_eq_placedValue, rounds_iff_nearestPattern_eq hx,
      nearestPattern_shortest hpos hx]

/-- A number in the plain range is written as a numeral that denotes it. -/
theorem exists_numeral_of_inPlainRange (hx : x.bits.toNat ≤ infinityPattern)
    (hplain : x.InPlainRange) :
    ∃ n : Numeral, n.WellFormed ∧ x.text Literal.numberLayout = n.chars ∧ n.value = x := by
  rcases hplain with ⟨q, hq, hrange⟩
  have hfinite := bits_lt_of_toRat? hx hq
  rw [toRat?_of_bits_lt hfinite] at hq
  obtain rfl := Option.some.inj hq
  rcases hrange with hzero | ⟨hlowest, hhighest⟩
  · exact exists_numeral_of_bits_eq_zero
      (point_strictMono.injective (hzero.trans point_zero.symm)) _
  · have hne : point x.bits.toNat ≠ 0 := ((zpow_pos (by norm_num) _).trans_le hlowest).ne'
    exact exists_numeral_of_le_of_lt hfinite (pos_of_point_ne_zero hne) hlowest hhighest

/-- The least number in the plain range, zero apart, has four digits after the point. -/
example : (ofDecimal ⟨1, -4⟩).text Literal.numberLayout = "0.0001".toList := by decide +kernel

/-- Another finite number is written as a numeral with an exponent. -/
theorem exists_numeral_of_not_inPlainRange (hx : x.bits.toNat < infinityPattern)
    (hplain : ¬ x.InPlainRange) :
    ∃ (n : Numeral) (e : ℤ), n.WellFormed ∧
      x.text Literal.numberLayout = n.chars ++ 'e' :: Decimal.exponentDigits e := by
  have hvalue := toRat?_of_bits_lt hx
  have hpos : 0 < x.bits.toNat := by
    apply pos_of_point_ne_zero
    intro hzero
    exact hplain ⟨_, hvalue, .inl hzero⟩
  have hcoefficient := coefficient_shortest_pos hpos hx
  have hfar : ¬ ((10 : ℚ) ^ (-4 : ℤ) ≤ (shortest x.bits.toNat).toRat ∧
      (shortest x.bits.toNat).toRat < 10 ^ 16) := by
    rw [← not_le (b := (shortest x.bits.toNat).toRat), le_toRat_shortest_lowest_iff hpos hx,
      le_toRat_shortest_highest_iff hpos hx, not_le]
    exact fun hrange => hplain ⟨_, hvalue, .inr hrange⟩
  rw [text_of_bits_lt hx]
  exact ⟨_, _, Numeral.wellFormed_leading (Decimal.significantDigits_ne_nil hcoefficient)
    (fun c => Decimal.isDigit_of_mem_significantDigits),
    Decimal.text_eq_chars_append hcoefficient hfar⟩

/-- The first number after the plain range is written without a point. -/
example : (ofDecimal ⟨1, 16⟩).text Literal.numberLayout = "1e16".toList := by decide +kernel

/-- The value of a written number is rounded to the number, and no decimal with fewer
significant digits than the written number is. -/
theorem rounds_text (hx : x.bits.toNat < infinityPattern) (hpos : 0 < x.bits.toNat)
    (layout : Layout) :
    x.Rounds (writtenValue (x.text layout)) ∧
      ∀ d : Decimal, x.Rounds d.toRat →
        (writtenDigits (x.text layout)).length ≤ d.significantDigits.length := by
  rw [text_of_bits_lt hx, Decimal.writtenValue_text,
    Decimal.writtenDigits_text _ (coefficient_shortest_pos hpos hx)]
  constructor
  · rw [rounds_iff_nearestPattern_eq hx, nearestPattern_shortest hpos hx]
  · intro d hd
    exact length_significantDigits_shortest_le hpos hx ((rounds_iff_nearestPattern_eq hx).mp hd)

end Binary64

/-! ## Scanning numerals -/

/-- A numeral by itself is one token on the first line, and no error. -/
theorem tokenize_numeral {n : Numeral} (h : n.WellFormed) :
    (tokenize (String.ofList n.chars)).errors = [] ∧
      (tokenize (String.ofList n.chars)).tokens =
        [⟨.number, String.ofList n.chars, some (.number n.value), 1⟩, Token.eof 1] := by
  have hpieces : Piece.ofText n.chars = [.number n] :=
    Piece.ofText_eq_iff.mpr ⟨by simp [Piece.chars], h, n.stopsAt_nil, trivial⟩
  have hsteps : Scan.steps (String.ofList n.chars) = [⟨0, 1, .number n⟩] := by
    rw [Scan.steps, String.toList_ofList, hpieces]
    rfl
  have hline : Line.advance 1 n.chars = 1 := by
    have hnewline : '\n' ∉ n.chars := Numeral.not_mem_chars h (by decide) (by decide)
    rw [Line.advance, List.count_eq_zero.mpr hnewline]
    rfl
  constructor
  · rw [errors_tokenize, hsteps, List.filterMap_cons_none (Scan.Step.error?_number h 0 1)]
    rfl
  · rw [tokens_tokenize, hsteps, List.filterMap_cons_some (Scan.Step.token?_number h 0 1),
      String.toList_ofList, hline]
    rfl

/-- An exponent by itself has no errors. -/
theorem exists_pieces_exponentDigits (e : ℤ) :
    ∃ ps : List Piece, ps.flatMap Piece.chars = Decimal.exponentDigits e ∧ Piece.Fit ps ∧
      ps.filterMap Piece.cause? = [] := by
  have hdigits : (⟨Nat.toDigits 10 e.natAbs, []⟩ : Numeral).WellFormed := by
    refine ⟨Nat.toDigits_ne_nil, fun c => Nat.isDigit_of_mem_toDigits (by decide) (by decide), ?_⟩
    simp
  have hchars : (⟨Nat.toDigits 10 e.natAbs, []⟩ : Numeral).chars = Nat.toDigits 10 e.natAbs :=
    List.append_nil _
  unfold Decimal.exponentDigits
  split
  · refine ⟨[.symbol .minus, .number ⟨Nat.toDigits 10 e.natAbs, []⟩], ?_, ?_, rfl⟩
    · simp [Piece.chars, hchars, Symbol.chars]
    · exact ⟨trivial, by simp [Piece.StopsAt, Symbol.extension?], hdigits,
        Numeral.stopsAt_nil _, trivial⟩
  · refine ⟨[.number ⟨Nat.toDigits 10 e.natAbs, []⟩], ?_, ?_, rfl⟩
    · simp [Piece.chars, hchars]
    · exact ⟨hdigits, Numeral.stopsAt_nil _, trivial⟩

/-- A numeral with an exponent has one error, the letter. -/
theorem causes_tokenize_numeral_exponent {n : Numeral} (h : n.WellFormed) (e : ℤ) :
    (tokenize (String.ofList (n.chars ++ 'e' :: Decimal.exponentDigits e))).errors.map
      LexicalError.cause = [.unexpectedCharacter 'e'] := by
  rcases exists_pieces_exponentDigits e with ⟨ps, hchars, hfit, hcauses⟩
  have hpieces : Piece.ofText (n.chars ++ 'e' :: Decimal.exponentDigits e) =
      .number n :: .unexpected 'e' :: ps := by
    have hletter : ¬ isExpected 'e' := by decide
    refine Piece.ofText_eq_iff.mpr ⟨?_, h, ⟨?_, ?_⟩, hletter, trivial, hfit⟩
    · simp [Piece.chars, hchars]
    · rintro c ⟨⟩
      decide
    · rintro - d tail ⟨⟩
  rw [causes_tokenize, String.toList_ofList, hpieces]
  exact congrArg (Cause.unexpectedCharacter 'e' :: ·) hcauses

/-! ## Scanning written numbers -/

/-- The written form of the number of a number token.  In the plain range it is scanned as a
number token with the same number, and there is no error.  Elsewhere the letters of the
exponent, or of the word for infinity, are errors.  Its value is rounded to the number, and no
decimal with fewer significant digits is rounded to it. -/
theorem number_text_reads_back {source : String} {t : Token} (ht : t ∈ (tokenize source).tokens)
    (hkind : t.kind = .number) :
    ∃ x, t.literal = some (.number x) ∧
      (x.InPlainRange →
        (tokenize (Literal.number x).text).errors = [] ∧
          ∃ y, (tokenize (Literal.number x).text).tokens =
              [⟨.number, (Literal.number x).text, some (.number y), 1⟩, Token.eof 1] ∧
            y.bits = x.bits ∧ (Literal.number y).text = (Literal.number x).text) ∧
      (¬ x.InPlainRange →
        (tokenize (Literal.number x).text).errors.map LexicalError.cause =
          if x.toRat?.isSome then [.unexpectedCharacter 'e']
          else [.unexpectedCharacter 'i', .unexpectedCharacter 'n', .unexpectedCharacter 'f']) ∧
      ∀ q, x.toRat? = some q → q ≠ 0 →
        x.Rounds (writtenValue (Literal.number x).text.toList) ∧
          ∀ d : Decimal, x.Rounds d.toRat →
            (writtenDigits (Literal.number x).text.toList).length ≤
              d.significantDigits.length := by
  rcases exists_decimal_of_mem_tokens ht hkind with ⟨d, hliteral, -⟩
  have hbits := Binary64.bits_ofDecimal_le d
  refine ⟨.ofDecimal d, hliteral, ?_, ?_, ?_⟩
  · intro hplain
    rcases Binary64.exists_numeral_of_inPlainRange hbits hplain with ⟨n, hn, htext, hvalue⟩
    rw [Literal.text, htext, ← hvalue]
    exact ⟨(tokenize_numeral hn).1, n.value, (tokenize_numeral hn).2, rfl, by
      rw [Literal.text, hvalue, htext]⟩
  · intro hplain
    rcases hbits.eq_or_lt with hinfinite | hfinite
    · have hnone : (Binary64.ofDecimal d).toRat? = none := by
        rw [Binary64.toRat?_eq, if_pos ((Binary64.isInfinity_iff hbits).mpr hinfinite).1]
      rw [Literal.text, Binary64.text_of_bits_eq hinfinite, hnone, causes_tokenize,
        String.toList_ofList]
      decide +kernel
    · rcases Binary64.exists_numeral_of_not_inPlainRange hfinite hplain with ⟨n, e, hn, htext⟩
      rw [Literal.text, htext, Binary64.toRat?_of_bits_lt hfinite,
        causes_tokenize_numeral_exponent hn]
      rfl
  · intro q hq hne
    have hfinite := Binary64.bits_lt_of_toRat? hbits hq
    rw [Binary64.toRat?_of_bits_lt hfinite] at hq
    obtain rfl := Option.some.inj hq
    rw [Literal.text, String.toList_ofList]
    exact Binary64.rounds_text hfinite (Binary64.pos_of_point_ne_zero hne) _

/-- The number next to `0.3` is written with seventeen digits, which are read back, and cannot
be written with fewer. -/
theorem number_text_reads_back_with_seventeen_digits :
    ∃ t : Token, t ∈ (tokenize "0.3000000000000000444").tokens ∧ t.kind = .number ∧
      ∃ x, t.literal = some (.number x) ∧ x.InPlainRange ∧
        (Literal.number x).text = "0.30000000000000004" ∧
        (tokenize "0.30000000000000004").errors = [] ∧
        (∃ y, (tokenize "0.30000000000000004").tokens =
            [⟨.number, "0.30000000000000004", some (.number y), 1⟩, Token.eof 1] ∧
          y.bits = x.bits) ∧
        ∀ d : Decimal, x.Rounds d.toRat → 17 ≤ d.significantDigits.length := by
  have hstep : (⟨0, 1, .number ⟨['0'], "3000000000000000444".toList⟩⟩ : Scan.Step) ∈
      Scan.steps "0.3000000000000000444" := by
    decide +kernel
  obtain ⟨t, htliteral, ht, htkind⟩ : ∃ t : Token,
      t.literal = some (.number (Numeral.value ⟨['0'], "3000000000000000444".toList⟩)) ∧
      t ∈ (tokenize "0.3000000000000000444").tokens ∧ t.kind = .number :=
    ⟨_, rfl, mem_tokens_number_iff.mpr ⟨_, _, _, hstep, rfl⟩⟩
  rcases number_text_reads_back ht htkind with ⟨x, hx, hplain, -, hshortest⟩
  obtain rfl : x = ⟨0x3FD3333333333334⟩ := by
    rw [← Literal.number.inj (Option.some.inj (htliteral.symm.trans hx))]
    exact congrArg Binary64.mk (by decide +kernel)
  have hvalue : Binary64.toRat? ⟨0x3FD3333333333334⟩ =
      some (5404319552844596 * 2 ^ (-54 : ℤ)) := by
    have hsign : Binary64.signField ⟨0x3FD3333333333334⟩ = 0 := by decide +kernel
    have hexponent : Binary64.exponentField ⟨0x3FD3333333333334⟩ = 1021 := by decide +kernel
    have hfraction : Binary64.fractionField ⟨0x3FD3333333333334⟩ = 900719925474100 := by
      decide +kernel
    rw [Binary64.toRat?, hsign, hexponent, hfraction]
    norm_num
  have hrange : Binary64.InPlainRange ⟨0x3FD3333333333334⟩ := by
    refine ⟨_, hvalue, .inr ⟨?_, ?_⟩⟩ <;> norm_num
  have htext : (Literal.number ⟨0x3FD3333333333334⟩).text = "0.30000000000000004" := by
    decide +kernel
  have hdigits : (writtenDigits "0.30000000000000004".toList).length = 17 := by decide +kernel
  rw [htext] at hplain hshortest
  rcases hplain hrange with ⟨herrors, y, htokens, hbits, -⟩
  refine ⟨t, ht, htkind, _, hx, hrange, htext, herrors, ⟨y, htokens, hbits⟩, ?_⟩
  intro d hd
  rw [← hdigits]
  exact (hshortest _ hvalue (by norm_num)).2 d hd

end LoxScan
