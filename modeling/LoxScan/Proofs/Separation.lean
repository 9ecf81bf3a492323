import LoxScan.Proofs.Image

/-!
# LoxScan - Tokens with trivia between them

The texts of tokens may be set apart in any way.  Whatever blanks and lines of comment
stand between them, scanning gives the tokens back; only their lines depend on what
stands before them.

Main definitions:

- `IsSeparator`, for trivia that begin with a blank;
- `Separated`, for tokens that are set apart by separators;
- `Token.spread`, tokens as a text, each with a text after it;
- `Token.restamped`, the tokens on the lines where they begin in such a text.

Main results:

- Theorem `exists_spells_spread`: a text of separated tokens falls apart into pieces that
  spell the tokens on their new lines.
- Theorem `tokenize_spread`: the tokens of any source are given back by the text in which
  they are separated, without an error.
-/

namespace LoxScan

/-! ## Separated tokens -/

/-- Trivia that begin with a blank. -/
def IsSeparator (cs : List Char) : Prop :=
  Trivia cs ∧ ∃ c ∈ cs.head?, isBlank c

/-- A token ends before a text that begins with a separator. -/
theorem IsSeparator.stopsAt_append {sep : List Char} (h : IsSeparator sep) {p : Piece}
    (hp : p.IsToken) (rest : List Char) : p.StopsAt (sep ++ rest) := by
  rcases h with ⟨_, c, hc, hblank⟩
  rcases List.head?_eq_some_iff.mp hc with ⟨cs, rfl⟩
  exact Piece.stopsAt_cons_of_isBlank hp hblank _

/-- Whether tokens with a text after each of them are set apart: the texts are separators,
and the last one may be missing. -/
structure Separated (pairs : List (Token × List Char)) : Prop where
  between : ∀ x ∈ pairs.dropLast, IsSeparator x.2
  atEnd : ∀ x ∈ pairs.getLast?, x.2 = [] ∨ IsSeparator x.2

namespace Separated

variable {t : Token} {sep : List Char} {pairs : List (Token × List Char)}

/-- After the first token there is a separator, or nothing at all. -/
theorem head (h : Separated ((t, sep) :: pairs)) : IsSeparator sep ∨ sep = [] ∧ pairs = [] := by
  cases pairs with
  | nil =>
    rcases h.atEnd (t, sep) rfl with hempty | hsep
    · exact .inr ⟨hempty, rfl⟩
    · exact .inl hsep
  | cons x pairs => exact .inl (h.between (t, sep) (by simp))

/-- The tokens after the first one are set apart. -/
theorem tail (h : Separated ((t, sep) :: pairs)) : Separated pairs := by
  cases pairs with
  | nil => exact ⟨by simp, by simp⟩
  | cons x pairs =>
    constructor
    · intro y hy
      exact h.between y (by simp [hy])
    · intro y hy
      exact h.atEnd y (by rwa [List.getLast?_cons_cons])

end Separated

namespace Token

/-- Tokens as a text, each with a text after it. -/
def spread (pairs : List (Token × List Char)) : List Char :=
  pairs.flatMap fun x => x.1.lexeme.toList ++ x.2

/-- The tokens on the lines where they begin in such a text, which begins on a line. -/
def restamped (line : UInt32) : List (Token × List Char) → List Token
  | [] => []
  | (t, sep) :: pairs =>
    { t with line := line } :: restamped (Line.advance line (t.lexeme.toList ++ sep)) pairs

@[simp]
theorem spread_cons (t : Token) (sep : List Char) (pairs : List (Token × List Char)) :
    spread ((t, sep) :: pairs) = t.lexeme.toList ++ (sep ++ spread pairs) := by
  simp [spread]

/-- On other lines the tokens have the same contents. -/
theorem map_content_restamped (line : UInt32) (pairs : List (Token × List Char)) :
    (restamped line pairs).map content = (pairs.map Prod.fst).map content := by
  induction pairs generalizing line with
  | nil => rfl
  | cons x pairs ih => simp [restamped, ih, content]

/-- A token, the one for the end included, is on the line that is reached with the text
before it. -/
theorem line_of_getElem?_restamped {line : UInt32} {pairs : List (Token × List Char)} {i : Nat}
    {t : Token}
    (h : (restamped line pairs ++ [eof (Line.advance line (spread pairs))])[i]? = some t) :
    t.line = Line.advance line (spread (pairs.take i)) := by
  induction pairs generalizing line i with
  | nil =>
    have hmem : t ∈ [eof (Line.advance line (spread []))] := List.mem_of_getElem? h
    obtain rfl := List.mem_singleton.mp hmem
    rw [List.take_nil]
    rfl
  | cons x pairs ih =>
    rcases x with ⟨u, sep⟩
    cases i with
    | zero =>
      obtain rfl : { u with line := line } = t := by simpa [restamped] using h
      simp [spread, Line.advance]
    | succ i =>
      rw [spread_cons, ← List.append_assoc, Line.advance_append] at h
      have htail := ih (by simpa [restamped] using h)
      rw [htail, List.take_succ_cons, spread_cons, ← List.append_assoc, ← Line.advance_append]

/-- The text before a token has no more newlines than the whole text. -/
theorem count_spread_take_le (pairs : List (Token × List Char)) (i : Nat) (c : Char) :
    (spread (pairs.take i)).count c ≤ (spread pairs).count c := by
  have hsplit : spread (pairs.take i) ++ spread (pairs.drop i) = spread pairs := by
    rw [spread, spread, ← List.flatMap_append, List.take_append_drop, spread]
  rw [← hsplit, List.count_append]
  exact Nat.le_add_right _ _

end Token

/-- A text of well-formed tokens that are set apart falls apart into pieces that spell the
tokens on the lines where they begin there. -/
theorem exists_spells_spread {pairs : List (Token × List Char)} {line last : UInt32}
    (htokens : ∀ x ∈ pairs, x.1.WellFormed) (hsep : Separated pairs)
    (hlast : line.toNat + (Token.spread pairs).count '\n' = last.toNat) :
    ∃ ps, ps.flatMap Piece.chars = Token.spread pairs ∧
      Spells ps line last (Token.restamped line pairs) := by
  induction pairs generalizing line with
  | nil =>
    obtain rfl : line = last := UInt32.toNat_inj.mp hlast
    exact ⟨[], rfl, Spells.nil line⟩
  | cons x pairs ih =>
    rcases x with ⟨t, sep⟩
    have ht : t.WellFormed := htokens (t, sep) (by simp)
    rcases ht.spec_piece with ⟨hp, htoken, hchars, hstep⟩
    have htrivia : Trivia sep ∧ t.piece.StopsAt (sep ++ Token.spread pairs) := by
      rcases hsep.head with hsep | ⟨rfl, rfl⟩
      · exact ⟨hsep.1, hsep.stopsAt_append htoken _⟩
      · exact ⟨.nil, Piece.stopsAt_nil_of_isToken htoken⟩
    -- No line in the text is beyond the last one, so their numbers add up.
    have hlt := last.toNat_lt_size
    rw [Token.spread_cons, List.count_append, List.count_append, ← hchars] at hlast
    have hafter : (Line.advance line t.piece.chars).toNat =
        line.toNat + t.piece.chars.count '\n' := Line.toNat_advance (by omega)
    have hnext : (Line.advance line (t.piece.chars ++ sep)).toNat =
        line.toNat + (t.piece.chars.count '\n' + sep.count '\n') := by
      rw [← List.count_append]
      exact Line.toNat_advance (by rw [List.count_append]; omega)
    have hrest : (Line.advance line (t.piece.chars ++ sep)).toNat +
        (Token.spread pairs).count '\n' = last.toNat := by omega
    have hbetween : (Line.advance line t.piece.chars).toNat + sep.count '\n' =
        (Line.advance line (t.piece.chars ++ sep)).toNat := by omega
    rcases ih (fun y hy => htokens y (by simp [hy])) hsep.tail hrest with ⟨ps, hps, hspells⟩
    rcases hspells.trivia htrivia.1 hbetween with ⟨qs, hqs, hspells⟩
    rw [hps] at hqs
    refine ⟨t.piece :: qs, by simp [hqs, hchars], ?_⟩
    rw [Token.restamped, ← hchars]
    refine hspells.token (t := { t with line := line }) hp htoken ?_ (fun o => hstep o line)
      hafter.symm
    rw [hqs]
    exact htrivia.2

/-- Take the tokens of a source, which may have errors, set them apart by separators, and
put trivia in front.  Scanning that text gives the tokens back, with the same kinds,
texts and values in the same order and with one for the end, and no error; and each of
them is on the line that the newlines before it in the text count. -/
theorem tokenize_spread (source : String) (lead : List Char) (pairs : List (Token × List Char))
    (hpairs : pairs.map Prod.fst = (tokenize source).proper) (hlead : Trivia lead)
    (hsep : Separated pairs)
    (hcount : (lead ++ Token.spread pairs).count '\n' < UInt32.size - 1) :
    (tokenize (String.ofList (lead ++ Token.spread pairs))).errors = [] ∧
    (tokenize (String.ofList (lead ++ Token.spread pairs))).tokens.map Token.content =
      (tokenize source).tokens.map Token.content ∧
    ∀ i t, (tokenize (String.ofList (lead ++ Token.spread pairs))).tokens[i]? = some t →
      t.line.toNat = 1 + (lead ++ Token.spread (pairs.take i)).count '\n' := by
  have htokens : ∀ x ∈ pairs, x.1.WellFormed := by
    intro x hx
    apply wellFormed_of_mem_proper
    rw [← hpairs]
    exact List.mem_map_of_mem hx
  have hlead_le : lead.count '\n' < UInt32.size - 1 := by
    rw [List.count_append] at hcount
    omega
  have hstart : (1 : UInt32).toNat + lead.count '\n' = (Line.advance 1 lead).toNat := by
    rw [Line.toNat_advance_one hlead_le, UInt32.toNat_one]
  have hlast : (Line.advance 1 lead).toNat + (Token.spread pairs).count '\n' =
      (Line.advance 1 (lead ++ Token.spread pairs)).toNat := by
    rw [Line.toNat_advance_one hlead_le, Line.toNat_advance_one hcount, List.count_append,
      Nat.add_assoc]
  rcases exists_spells_spread htokens hsep hlast with ⟨ps, hps, hspells⟩
  rcases hspells.trivia hlead hstart with ⟨qs, hqs, hspells⟩
  rw [hps] at hqs
  have hsource : qs.flatMap Piece.chars = (String.ofList (lead ++ Token.spread pairs)).toList := by
    rw [hqs, String.toList_ofList]
  rcases tokenize_of_spells hspells hsource with ⟨hscanned, herrors, _⟩
  refine ⟨herrors, ?_, ?_⟩
  · rw [hscanned, List.map_append, Token.map_content_restamped, hpairs, tokens_eq_proper_append,
      List.map_append]
    rfl
  · intro i t ht
    rw [hscanned, Line.advance_append] at ht
    rw [Token.line_of_getElem?_restamped ht, ← Line.advance_append, Line.toNat_advance_one]
    have hle := Token.count_spread_take_le pairs i '\n'
    rw [List.count_append] at hcount ⊢
    omega

/-- A number, a string of two lines with slashes in it and a slash, with a newline and a
comment after the first token, and a space after the second one. -/
def commentedTokens : List (Token × List Char) :=
  [(⟨.number, "1", some (.number (.ofDecimal ⟨1, 0⟩)), 1⟩, "\n// /x\n".toList),
    (⟨.string, "\"a//\nb\"", some (.string "a//\nb"), 1⟩, " ".toList),
    (⟨.symbol .slash, "/", none, 2⟩, "".toList)]

/-- The tokens of a source with an error are given back without it from a text with comments
in front and between them. -/
theorem tokenize_spread_commented :
    commentedTokens.map Prod.fst = (tokenize "1@\"a//\nb\"/").proper ∧
      Trivia "// \"\n".toList ∧ Separated commentedTokens ∧
      ("// \"\n".toList ++ Token.spread commentedTokens).count '\n' < UInt32.size - 1 ∧
      (tokenize "// \"\n1\n// /x\n\"a//\nb\" /").errors = [] ∧
      (tokenize "// \"\n1\n// /x\n\"a//\nb\" /").tokens.map Token.content =
        (tokenize "1@\"a//\nb\"/").tokens.map Token.content := by
  have hpairs : commentedTokens.map Prod.fst = (tokenize "1@\"a//\nb\"/").proper := by
    with_unfolding_all rfl
  have hlead : Trivia "// \"\n".toList :=
    Trivia.nil.comment (show '\n' ∉ [' ', '"'] by decide)
  have hcomment : Trivia "// /x\n".toList :=
    Trivia.nil.comment (show '\n' ∉ [' ', '/', 'x'] by decide)
  have hsep : Separated commentedTokens := by
    constructor
    · intro x hx
      rcases List.mem_pair.mp hx with rfl | rfl
      · exact ⟨hcomment.blank rfl, '\n', rfl, rfl⟩
      · exact ⟨Trivia.nil.blank rfl, ' ', rfl, rfl⟩
    · intro x hx
      cases hx
      exact .inl rfl
  have hcount : ("// \"\n".toList ++ Token.spread commentedTokens).count '\n' <
      UInt32.size - 1 := by decide
  rcases tokenize_spread _ _ _ hpairs hlead hsep hcount with ⟨herrors, hcontents, _⟩
  exact ⟨hpairs, hlead, hsep, hcount, herrors, hcontents⟩

end LoxScan
