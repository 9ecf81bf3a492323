import LoxScan.Proofs.Listing
import LoxScan.Proofs.Rounding

/-!
# LoxScan - Equality of tokens

Tokens are compared field by field, and the numbers in them by value.  That is no equivalence
on all tokens: what is not a number differs from itself, and the two zeros are equal though
they are written in different ways.  Scanning gives neither, and it gives the same kind and
the same literal for the same text.  So the tokens of sources are equal exactly if they have
the same text on the same line, and then they are the same in all else.

Main definitions:

- `Token.key`, the text and the line of a token.

Main results:

- Theorem `Binary64.beq_iff`: numbers are compared by value.
- Theorem `Token.beq_iff`: tokens are compared field by field.
- Theorem `Token.Scanned.beq_iff_key`: the tokens of sources are compared by text and line.
- Theorem `tokens_beq_iff`: equality of the tokens and of the token lists of sources.
-/

namespace LoxScan

/-! ## Equality of numbers -/

namespace Binary64

variable {x y : Binary64}

/-- The bits of a number are its sign and its pattern. -/
theorem toNat_bits_eq (x : Binary64) : x.bits.toNat = 2 ^ 63 * x.signField + x.pattern :=
  (Nat.div_add_mod x.bits.toNat (2 ^ 63)).symm

/-- There are two signs. -/
theorem signField_eq_zero_or_one (x : Binary64) : x.signField = 0 ∨ x.signField = 1 := by
  have hlt := x.bits.toNat_lt
  rw [signField]
  omega

/-- Numbers are the same exactly if their signs and their patterns are. -/
theorem bits_eq_iff : x.bits = y.bits ↔ x.signField = y.signField ∧ x.pattern = y.pattern := by
  have hx := toNat_bits_eq x
  have hy := toNat_bits_eq y
  have hxlt : x.pattern < 2 ^ 63 := Nat.mod_lt _ (by decide)
  have hylt : y.pattern < 2 ^ 63 := Nat.mod_lt _ (by decide)
  rw [← UInt64.toNat_inj]
  omega

/-- With the greatest exponent, a fraction stands for no number. -/
theorem isNaN_iff : x.isNaN ↔ x.exponentField = 2047 ∧ x.fractionField ≠ 0 := by
  have hlt : x.exponentField < 2 ^ 11 := Nat.mod_lt _ (by decide)
  have hfields := div_pattern x
  have hinfinity := infinityPattern_eq
  rw [isNaN, decide_eq_true_iff]
  omega

/-- A sign is told by its factor. -/
theorem signField_eq_of_neg_one_pow_eq (h : (-1 : ℚ) ^ x.signField = (-1) ^ y.signField) :
    x.signField = y.signField := by
  rcases signField_eq_zero_or_one x with hx | hx <;>
    rcases signField_eq_zero_or_one y with hy | hy <;> rw [hx, hy] at h ⊢ <;> norm_num at h

/-- Points with signs are the same exactly if the patterns are, and the signs, except those of
zero. -/
theorem signed_point_eq_iff :
    (-1) ^ x.signField * point x.pattern = (-1) ^ y.signField * point y.pattern ↔
      x.pattern = y.pattern ∧ (x.signField = y.signField ∨ x.pattern = 0) := by
  constructor
  · intro hvalue
    have habs := congrArg abs hvalue
    rw [abs_mul, abs_mul, abs_neg_one_pow, abs_neg_one_pow, one_mul, one_mul,
      abs_of_nonneg (point_nonneg _), abs_of_nonneg (point_nonneg _)] at habs
    have hpattern := point_strictMono.injective habs
    refine ⟨hpattern, ?_⟩
    by_cases hzero : x.pattern = 0
    · exact .inr hzero
    · left
      have hpos : 0 < point x.pattern := point_zero ▸ point_strictMono (Nat.pos_of_ne_zero hzero)
      rw [← hpattern] at hvalue
      exact signField_eq_of_neg_one_pow_eq (mul_right_cancel₀ hpos.ne' hvalue)
  · rintro ⟨hpattern, hsign | hzero⟩
    · rw [hpattern, hsign]
    · rw [← hpattern, hzero, point_zero, mul_zero, mul_zero]

/-- Finite numbers have the same value exactly if their patterns are the same, and their signs,
except those of zero. -/
theorem exists_toRat?_iff : (∃ q, x.toRat? = some q ∧ y.toRat? = some q) ↔
    (x.exponentField ≠ 2047 ∧ y.exponentField ≠ 2047) ∧
      x.pattern = y.pattern ∧ (x.signField = y.signField ∨ x.pattern = 0) := by
  rw [toRat?_eq, toRat?_eq, ← signed_point_eq_iff]
  by_cases hx : x.exponentField = 2047
  · simp [hx]
  by_cases hy : y.exponentField = 2047
  · simp [hy]
  simp [hx, hy, eq_comm]

/-- Numbers are compared by value: equal ones have the same value, or are infinite with the
same sign. -/
theorem beq_iff : (x == y) = true ↔
    (∃ q, x.toRat? = some q ∧ y.toRat? = some q) ∨
      (x.IsInfinity ∧ y.IsInfinity ∧ x.signField = y.signField) := by
  have hnumeric : (x == y) = true ↔ (¬ x.isNaN ∧ ¬ y.isNaN) ∧
      ((x.signField = y.signField ∧ x.pattern = y.pattern) ∨
        (x.pattern = 0 ∧ y.pattern = 0)) := by
    rw [← bits_eq_iff]
    change numericEq x y = true ↔ _
    simp [numericEq]
  have hx := div_pattern x
  have hy := div_pattern y
  rw [hnumeric, exists_toRat?_iff, isNaN_iff, isNaN_iff, IsInfinity, IsInfinity]
  omega

/-- What is a number, if only infinity, equals itself. -/
theorem beq_self (h : x.exponentField = 2047 → x.fractionField = 0) : (x == x) = true := by
  rw [beq_iff]
  by_cases hexponent : x.exponentField = 2047
  · exact .inr ⟨⟨hexponent, h hexponent⟩, ⟨hexponent, h hexponent⟩, rfl⟩
  · left
    rw [toRat?_eq, if_neg hexponent]
    exact ⟨_, rfl, rfl⟩

/-- What is not a number does not equal itself. -/
example : ((⟨0x7FF8000000000000⟩ : Binary64) == ⟨0x7FF8000000000000⟩) = false := by decide

/-- The zeros are equal, and have different bits. -/
example : ((⟨0⟩ : Binary64) == ⟨0x8000000000000000⟩) = true := by decide

end Binary64

/-! ## Equality of tokens -/

/-- Numbers as literals are compared as numbers. -/
theorem Literal.number_beq_number (x y : Binary64) : (number x == number y) = (x == y) :=
  rfl

/-- The literal of a piece equals itself, as the value of a decimal is rounded to a number. -/
theorem Piece.beq_literal_self {p : Piece} {content : Kind × String × Option Literal}
    (h : p.content? = some content) : (content.2.2 == content.2.2) = true := by
  cases p with
  | symbol s =>
    obtain rfl := Option.some.inj h
    rfl
  | string body =>
    obtain rfl := Option.some.inj h
    exact beq_self_eq_true (String.ofList body)
  | number n =>
    obtain rfl := Option.some.inj h
    rw [Option.some_beq_some, Literal.number_beq_number, Numeral.value]
    exact Binary64.beq_self (Binary64.rounds_ofDecimal n.decimal).number
  | _ => cases h

namespace Token

/-- The source text and the line of a token. -/
def key (t : Token) : String × UInt32 :=
  (t.lexeme, t.line)

/-- Tokens are compared field by field. -/
theorem beq_iff {t u : Token} : (t == u) = true ↔
    t.kind = u.kind ∧ t.lexeme = u.lexeme ∧ (t.literal == u.literal) = true ∧ t.line = u.line := by
  rcases t with ⟨kind, lexeme, literal, line⟩
  rcases u with ⟨kind', lexeme', literal', line'⟩
  change ((kind == kind') && ((lexeme == lexeme') && ((literal == literal') &&
    (line == line')))) = true ↔ _
  simp

namespace Scanned

variable {t u : Token}

/-- The literal of a token of a source equals itself. -/
theorem beq_literal_self (h : t.Scanned) : (t.literal == t.literal) = true := by
  rcases h with hwell | ⟨line, rfl⟩
  · exact Piece.beq_literal_self hwell.content?_piece
  · rfl

/-- The tokens of sources are compared by text and line. -/
theorem beq_iff_key (ht : t.Scanned) (hu : u.Scanned) : (t == u) = true ↔ t.key = u.key := by
  rw [beq_iff, key, key, Prod.mk.injEq]
  constructor
  · rintro ⟨_, hlexeme, _, hline⟩
    exact ⟨hlexeme, hline⟩
  · rintro ⟨hlexeme, hline⟩
    obtain ⟨hkind, _, hliteral⟩ := content_eq_iff.mp (ht.content_eq hu hlexeme)
    exact ⟨hkind, hlexeme, hliteral ▸ ht.beq_literal_self, hline⟩

/-- The token lists of sources are compared by text and line, token by token. -/
theorem beq_iff_map_key {ts us : List Token} (hts : ∀ t ∈ ts, t.Scanned)
    (hus : ∀ u ∈ us, u.Scanned) : (ts == us) = true ↔ ts.map key = us.map key := by
  induction ts generalizing us with
  | nil => cases us <;> simp
  | cons t ts ih =>
    cases us with
    | nil => simp
    | cons u us =>
      have hhead := (hts t (by simp)).beq_iff_key (hus u (by simp))
      have htail := @ih us (fun v hv => hts v (by simp [hv])) (fun v hv => hus v (by simp [hv]))
      rw [List.cons_beq_cons, Bool.and_eq_true, hhead, htail, List.map_cons, List.map_cons,
        List.cons.injEq]

end Scanned

end Token

/-- A relation that holds exactly between what has the same image is an equivalence. -/
theorem equivalence_of_iff {α β : Type} {r : α → α → Prop} (f : α → β)
    (h : ∀ a b, r a b ↔ f a = f b) : Equivalence r where
  refl a := (h a a).mpr rfl
  symm hab := (h _ _).mpr ((h _ _).mp hab).symm
  trans hab hbc := (h _ _).mpr (((h _ _).mp hab).trans ((h _ _).mp hbc))

/-- The tokens of any two sources, those for the end among them, are equal exactly if they have
the same text on the same line.  Equal tokens have the same kind and the same literal, numbers
bit for bit, and are listed in the same way.  So equality is an equivalence, on the tokens of
sources and on their token lists, and the lists are equal exactly if text and line are the same
token by token. -/
theorem tokens_beq_iff :
    (∀ a b : String, ∀ t ∈ (tokenize a).tokens, ∀ u ∈ (tokenize b).tokens,
      ((t == u) = true ↔ t.lexeme = u.lexeme ∧ t.line = u.line) ∧
      ((t == u) = true → t.kind = u.kind ∧ t.literal = u.literal ∧ t.text = u.text)) ∧
    Equivalence (fun t u : {t : Token // ∃ source, t ∈ (tokenize source).tokens} =>
      (t.val == u.val) = true) ∧
    Equivalence (fun ts us : {ts : List Token // ∃ source, ts = (tokenize source).tokens} =>
      (ts.val == us.val) = true) ∧
    ∀ a b : String, ((tokenize a).tokens == (tokenize b).tokens) = true ↔
      (tokenize a).tokens.map Token.key = (tokenize b).tokens.map Token.key := by
  refine ⟨?_, ?_, ?_, ?_⟩
  · intro a b t ht u hu
    have hts := scanned_of_mem_tokens ht
    have hus := scanned_of_mem_tokens hu
    have hkey := hts.beq_iff_key hus
    rw [Token.key, Token.key, Prod.mk.injEq] at hkey
    refine ⟨hkey, fun hbeq => ?_⟩
    have hcontent := hts.content_eq hus (hkey.mp hbeq).1
    obtain ⟨hkind, _, hliteral⟩ := Token.content_eq_iff.mp hcontent
    exact ⟨hkind, hliteral, Token.text_eq_of_content_eq hcontent⟩
  · apply equivalence_of_iff (fun t => t.val.key)
    rintro ⟨t, a, ht⟩ ⟨u, b, hu⟩
    exact (scanned_of_mem_tokens ht).beq_iff_key (scanned_of_mem_tokens hu)
  · apply equivalence_of_iff (fun ts => ts.val.map Token.key)
    rintro ⟨_, a, rfl⟩ ⟨_, b, rfl⟩
    exact Token.Scanned.beq_iff_map_key (fun _ => scanned_of_mem_tokens)
      (fun _ => scanned_of_mem_tokens)
  · intro a b
    exact Token.Scanned.beq_iff_map_key (fun _ => scanned_of_mem_tokens)
      (fun _ => scanned_of_mem_tokens)

/-- Numbers with the same value that are written in different ways are different tokens. -/
example : ((tokenize "0.5").tokens == (tokenize "0.50").tokens) = false := by
  decide +kernel

end LoxScan
