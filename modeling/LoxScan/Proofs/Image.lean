import LoxScan.Proofs.Spelling

/-!
# LoxScan - The token lists of sources

Which lists of tokens are the tokens of some source?  Each token has to be written
as its kind asks for, one token for the end has to close the list, and the lines
have to leave room for the newlines inside tokens.  Nothing else is asked for: a
list of that form is written down with newlines before each token and a space after
it, and scanning the text gives the list back without an error.

Main definitions:

- `Token.WellFormed` and `Token.LinesFrom`, the conditions;
- `Token.written`, the text of a token list;
- `Token.piece`, the piece that a token is written as.

Main results:

- Theorem `tokenize_written`: scanning reads the text of a token list back.
- Theorem `exists_source_iff`: the token lists of sources are the ones that meet
  the conditions, and each of them has a source without errors.
-/

namespace LoxScan

namespace Token

/-! ## The form of a token list -/

/-- Whether a token has the text and the value that its kind asks for.  No token
before the end stands for the end. -/
def WellFormed (t : Token) : Prop :=
  match t.kind with
  | .symbol s => t.lexeme = String.ofList s.chars ∧ t.literal = none
  | .string => ∃ s : String, '"' ∉ s.toList ∧ t.lexeme = "\"" ++ s ++ "\"" ∧
      t.literal = some (.string s)
  | .number => IsNumeral t.lexeme.toList ∧
      ∃ value, Numeral.read? t.lexeme.toList = some value ∧ t.literal = some (.number value)
  | .eof => False

/-- How many newlines a token has. -/
def newlines (t : Token) : Nat :=
  t.lexeme.toList.count '\n'

/-- Whether the first token begins on a line or later, and each token on the line
where the token before it ends or later. -/
def LinesFrom (line : Nat) : List Token → Prop
  | [] => True
  | t :: ts => line ≤ t.line.toNat ∧ LinesFrom (t.line.toNat + t.newlines) ts

/-- A token list as a text: newlines before each token until its line is reached,
and a space after it. -/
def written (line : Nat) : List Token → List Char
  | [] => []
  | t :: ts =>
    List.replicate (t.line.toNat - line) '\n' ++ t.lexeme.toList ++
      ' ' :: written (t.line.toNat + t.newlines) ts

/-- Tokens that begin on a later line begin on an earlier line or after it. -/
theorem LinesFrom.mono {line line' : Nat} {ts : List Token} (h : LinesFrom line' ts)
    (hle : line ≤ line') : LinesFrom line ts := by
  cases ts with
  | nil => trivial
  | cons t ts => exact ⟨hle.trans h.1, h.2⟩

/-- The end comes on the line of the first token or later. -/
theorem LinesFrom.le_last {line : Nat} {ts : List Token} {last : UInt32}
    (h : LinesFrom line (ts ++ [eof last])) : line ≤ last.toNat := by
  induction ts generalizing line with
  | nil => exact h.1
  | cons t ts ih =>
    have htail := ih h.2
    have hline := h.1
    omega

end Token

/-! ## The tokens of a source -/

namespace Scan.Step

/-- The token of a step is well formed. -/
theorem wellFormed_of_token? {s : Step} {t : Token} (hs : s.piece.WellFormed)
    (h : s.token? = some t) : t.WellFormed := by
  rcases s with ⟨offset, line, p⟩
  cases p with
  | symbol s =>
    obtain rfl := Option.some.inj h
    exact ⟨rfl, rfl⟩
  | string body =>
    obtain rfl := Option.some.inj h
    refine ⟨String.ofList body, ?_, ?_, rfl⟩
    · rw [String.toList_ofList]
      exact hs
    · apply String.toList_inj.mp
      simp [Piece.chars]
  | number n =>
    rw [token?_number hs] at h
    obtain rfl := Option.some.inj h
    refine ⟨?_, n.value, ?_, rfl⟩
    · exact isNumeral_iff.mpr ⟨n, hs, by simp⟩
    · simpa using Numeral.read?_chars hs
  | blank c => cases h
  | comment body => cases h
  | unexpected c => cases h
  | unterminated body => cases h

end Scan.Step

/-- The tokens before the one for the end are well formed. -/
theorem wellFormed_of_mem_proper {source : String} {t : Token} (h : t ∈ (tokenize source).proper) :
    t.WellFormed := by
  rw [proper_tokenize] at h
  rcases List.mem_filterMap.mp h with ⟨s, hs, htoken⟩
  exact Scan.Step.wellFormed_of_token? (Scan.wellFormed_of_mem_steps hs) htoken

/-- The tokens that steps hand on begin on the line of the first step or later, and
leave room for the newlines in tokens. -/
theorem linesFrom_stepsFrom {offset : Nat} {line : UInt32} {ps : List Piece}
    (hps : ∀ p ∈ ps, p.WellFormed)
    (hcount : line.toNat + (ps.flatMap Piece.chars).count '\n' < UInt32.size) :
    Token.LinesFrom line.toNat ((Scan.stepsFrom offset line ps).filterMap Scan.Step.token? ++
      [Token.eof (Line.advance line (ps.flatMap Piece.chars))]) := by
  induction ps generalizing offset line with
  | nil => simp [Scan.stepsFrom, Token.LinesFrom, Token.eof, Line.advance]
  | cons p ps ih =>
    rw [List.flatMap_cons, List.count_append] at hcount
    have hline : (Line.advance line p.chars).toNat = line.toNat + p.chars.count '\n' :=
      Line.toNat_advance (by omega)
    have htail := @ih (offset + p.chars.length) (Line.advance line p.chars)
      (fun q hq => hps q (by simp [hq])) (by omega)
    rw [← Line.advance_append, ← List.flatMap_cons] at htail
    rw [Scan.stepsFrom]
    -- A piece that is no token only moves the line on, and the bound may be lowered.
    cases htoken : Scan.Step.token? ⟨offset, line, p⟩ with
    | none =>
      rw [List.filterMap_cons_none htoken]
      exact htail.mono (by omega)
    | some t =>
      rcases Scan.Step.spec_of_token? (hps p (by simp)) htoken with ⟨_, hlexeme, htline⟩
      rw [List.filterMap_cons_some htoken, List.cons_append]
      refine ⟨by rw [htline], ?_⟩
      have hnewlines : t.newlines = p.chars.count '\n' := by simp [Token.newlines, hlexeme]
      rwa [htline, hnewlines, ← hline]

/-- The tokens of a source leave room for the newlines in tokens. -/
theorem linesFrom_steps {source : String} (hcount : source.toList.count '\n' < UInt32.size - 1) :
    Token.LinesFrom 1 ((Scan.steps source).filterMap Scan.Step.token? ++
      [Token.eof (Line.advance 1 source.toList)]) := by
  have hps : ∀ p ∈ Piece.ofText source.toList, p.WellFormed :=
    Piece.wellFormed_of_mem_fit (Piece.fit_ofText source.toList)
  have hlines := @linesFrom_stepsFrom 0 1 _ hps (by
    rw [Piece.flatMap_chars_ofText, UInt32.toNat_one]
    omega)
  rwa [Piece.flatMap_chars_ofText] at hlines

/-! ## A source for a token list -/

namespace Token

/-- The piece that a well-formed token is written as. -/
def piece (t : Token) : Piece :=
  match t.kind with
  | .symbol s => .symbol s
  | .string => .string t.lexeme.toList.tail.dropLast
  | _ => .number (Numeral.take t.lexeme.toList).1

/-- A piece whose token has the content of another token is the piece of the latter. -/
theorem piece_eq_of_content? {t : Token} {p : Piece} (hp : p.WellFormed)
    (h : p.content? = some t.content) : t.piece = p := by
  have hlexeme := (Piece.spec_of_content? h).2
  have hkind : p.content?.map Prod.fst = some t.kind := by
    rw [h]
    rfl
  cases p with
  | symbol s =>
    have hkind : .symbol s = t.kind := Option.some.inj hkind
    simp [piece, ← hkind]
  | string body =>
    have hkind : .string = t.kind := Option.some.inj hkind
    simp [piece, ← hkind, hlexeme, Piece.chars]
  | number n =>
    have hkind : .number = t.kind := Option.some.inj hkind
    simp [piece, ← hkind, hlexeme, Piece.chars, Numeral.take_chars hp]
  | _ => cases h

/-- The piece of a well-formed token has the text of the token, and a step that takes it
hands the token on, on the line of the step. -/
theorem WellFormed.spec_piece {t : Token} (h : t.WellFormed) :
    t.piece.WellFormed ∧ t.piece.IsToken ∧ t.piece.chars = t.lexeme.toList ∧
      ∀ offset line, Scan.Step.token? ⟨offset, line, t.piece⟩ = some { t with line := line } := by
  rcases t with ⟨kind, lexeme, literal, line⟩
  cases kind with
  | symbol s =>
    obtain ⟨rfl, rfl⟩ : lexeme = String.ofList s.chars ∧ literal = none := h
    exact ⟨trivial, trivial, by simp [piece, Piece.chars], fun _ _ => rfl⟩
  | string =>
    rcases h with ⟨s, hs, rfl, rfl⟩
    have hchars : (Piece.string s.toList).chars = ("\"" ++ s ++ "\"").toList := by
      simp [Piece.chars]
    have hpiece : piece ⟨.string, "\"" ++ s ++ "\"", some (.string s), line⟩ =
        .string s.toList := by
      simp [piece]
    rw [hpiece]
    refine ⟨hs, trivial, hchars, fun _ _ => ?_⟩
    simp [Scan.Step.token?, Scan.Step.event?, Piece.event?, Event.token?, hchars,
      String.append_assoc]
  | number =>
    rcases h with ⟨hnumeral, value, hvalue, rfl⟩
    rcases isNumeral_iff.mp hnumeral with ⟨n, hn, hchars⟩
    obtain rfl : n.value = value := by
      rw [← hchars, Numeral.read?_chars hn] at hvalue
      exact Option.some.inj hvalue
    have hpiece : piece ⟨.number, lexeme, some (.number n.value), line⟩ = .number n := by
      simp [piece, ← hchars, Numeral.take_chars hn]
    rw [hpiece]
    refine ⟨hn, trivial, hchars, fun offset line => ?_⟩
    rw [Scan.Step.token?_number hn, hchars, String.ofList_toList]
  | eof => exact h.elim

/-- The piece of a well-formed token has the content of the token. -/
theorem WellFormed.content?_piece {t : Token} (h : t.WellFormed) :
    t.piece.content? = some t.content := by
  rcases h.spec_piece with ⟨hp, _, _, hstep⟩
  have hcontent := Scan.Step.map_content_token? (s := ⟨0, t.line, t.piece⟩) hp
  rw [hstep] at hcontent
  exact hcontent.symm

/-- The text of a well-formed token is the piece of the token and nothing else. -/
theorem WellFormed.ofText_lexeme {t : Token} (h : t.WellFormed) :
    Piece.ofText t.lexeme.toList = [t.piece] := by
  rcases h.spec_piece with ⟨hp, htoken, hchars, _⟩
  exact Piece.ofText_eq_iff.mpr
    ⟨by simpa using hchars, hp, Piece.stopsAt_nil_of_isToken htoken, trivial⟩

/-- Scanning the text of a well-formed token finds the token and no other. -/
theorem WellFormed.map_content_tokenize_lexeme {t : Token} (h : t.WellFormed) :
    (tokenize t.lexeme).proper.map content = [t.content] := by
  rw [contents_tokenize, h.ofText_lexeme, List.filterMap_cons_some h.content?_piece,
    List.filterMap_nil]

end Token

/-- The text of a token list falls apart into pieces that give the tokens back. -/
theorem exists_spells_written {ts : List Token} {line last : UInt32}
    (hts : ∀ t ∈ ts, t.WellFormed)
    (hlines : Token.LinesFrom line.toNat (ts ++ [Token.eof last])) :
    ∃ ps, ps.flatMap Piece.chars = Token.written line.toNat (ts ++ [Token.eof last]) ∧
      Spells ps line last ts := by
  induction ts generalizing line with
  | nil =>
    have hle : line.toNat ≤ last.toNat := hlines.1
    have htrivia : Trivia (List.replicate (last.toNat - line.toNat) '\n' ++ [' ']) :=
      (Trivia.nil.blank rfl).replicate_newline_append _
    have hcount : line.toNat +
        (List.replicate (last.toNat - line.toNat) '\n' ++ [' ']).count '\n' = last.toNat := by
      simp
      omega
    rcases (Spells.nil last).trivia htrivia hcount with ⟨ps, hps, hspells⟩
    exact ⟨ps, by simpa [Token.written, Token.eof] using hps, hspells⟩
  | cons t ts ih =>
    rcases hlines with ⟨hle, htail⟩
    rcases (hts t (by simp)).spec_piece with ⟨hp, htoken, hchars, hstep⟩
    have hnewlines : t.piece.chars.count '\n' = t.newlines := by rw [hchars, Token.newlines]
    -- The end of the list is on a line that exists, so the token does not pass the last number.
    have hend : (Line.advance t.line t.piece.chars).toNat =
        t.line.toNat + t.piece.chars.count '\n' := by
      have hlast := htail.le_last
      have hlt := last.toNat_lt_size
      exact Line.toNat_advance (by omega)
    rw [← hnewlines, ← hend] at htail
    rcases ih (fun u hu => hts u (by simp [hu])) htail with ⟨ps, hps, hspells⟩
    have hspace : Spells (.blank ' ' :: ps) (Line.advance t.line t.piece.chars) last ts :=
      hspells.blank rfl rfl
    have hstop : t.piece.StopsAt (' ' :: ps.flatMap Piece.chars) :=
      Piece.stopsAt_cons_of_isBlank htoken rfl _
    have ht := hspace.token hp htoken hstop (fun offset => hstep offset t.line) hend.symm
    have hnewline : Trivia (List.replicate (t.line.toNat - line.toNat) '\n') := by
      simpa using Trivia.nil.replicate_newline_append (t.line.toNat - line.toNat)
    have hcount : line.toNat +
        (List.replicate (t.line.toNat - line.toNat) '\n').count '\n' = t.line.toNat := by
      rw [List.count_replicate_self]
      omega
    rcases ht.trivia hnewline hcount with ⟨qs, hqs, hspells⟩
    refine ⟨qs, ?_, hspells⟩
    rw [hend, hnewlines] at hps
    simp [hqs, Token.written, hps, hchars]

/-- Scanning reads the text of a token list back, and finds no error in it. -/
theorem tokenize_written {ts : List Token} {last : UInt32} (hts : ∀ t ∈ ts, t.WellFormed)
    (hlines : Token.LinesFrom 1 (ts ++ [Token.eof last])) {source : String}
    (hsource : source.toList = Token.written 1 (ts ++ [Token.eof last])) :
    (tokenize source).tokens = ts ++ [Token.eof last] ∧ (tokenize source).errors = [] ∧
      1 + source.toList.count '\n' = last.toNat := by
  rcases @exists_spells_written _ 1 _ hts hlines with ⟨ps, hps, hspells⟩
  rw [UInt32.toNat_one, ← hsource] at hps
  exact tokenize_of_spells hspells hps

/-- The tokens of a source are well formed and closed by one for the end, and they
leave room for the newlines in tokens. -/
theorem wellFormed_tokens_tokenize {source : String}
    (hcount : source.toList.count '\n' < UInt32.size - 1) :
    (∃ ts last, (tokenize source).tokens = ts ++ [Token.eof last] ∧ ∀ t ∈ ts, t.WellFormed) ∧
      Token.LinesFrom 1 (tokenize source).tokens := by
  have hlines := linesFrom_steps hcount
  rw [← proper_tokenize] at hlines
  rw [tokens_eq_proper_append]
  exact ⟨⟨_, _, rfl, fun _ => wellFormed_of_mem_proper⟩, hlines⟩

/-- A list of well-formed tokens that is closed by one for the end, and leaves room for
the newlines in tokens, has a source without errors. -/
theorem exists_source_of_wellFormed {ts : List Token} {last : UInt32}
    (hts : ∀ t ∈ ts, t.WellFormed) (hlines : Token.LinesFrom 1 (ts ++ [Token.eof last])) :
    ∃ source : String, source.toList.count '\n' < UInt32.size - 1 ∧
      (tokenize source).tokens = ts ++ [Token.eof last] ∧ (tokenize source).errors = [] := by
  rcases tokenize_written hts hlines (String.toList_ofList) with ⟨htokens, herrors, hlast⟩
  have hlt := last.toNat_lt_size
  exact ⟨_, by omega, htokens, herrors⟩

/-- The token lists of sources are the ones whose tokens are well formed, that are
closed by one token for the end, and that leave room for the newlines in tokens; and
each of them has a source without errors. -/
theorem exists_source_iff (L : List Token) :
    ((∃ source : String,
        source.toList.count '\n' < UInt32.size - 1 ∧ (tokenize source).tokens = L) ↔
      (∃ ts last, L = ts ++ [Token.eof last] ∧ ∀ t ∈ ts, t.WellFormed) ∧ Token.LinesFrom 1 L) ∧
    ((∃ source : String,
        source.toList.count '\n' < UInt32.size - 1 ∧ (tokenize source).tokens = L) →
      ∃ source : String, source.toList.count '\n' < UInt32.size - 1 ∧ (tokenize source).tokens = L ∧
        (tokenize source).errors = []) := by
  constructor
  · constructor
    · rintro ⟨source, hcount, rfl⟩
      exact wellFormed_tokens_tokenize hcount
    · rintro ⟨⟨ts, last, rfl, hts⟩, hlines⟩
      rcases exists_source_of_wellFormed hts hlines with ⟨source, hcount, htokens, _⟩
      exact ⟨source, hcount, htokens⟩
  · rintro ⟨source, hcount, rfl⟩
    rcases wellFormed_tokens_tokenize hcount with ⟨⟨ts, last, hform, hts⟩, hlines⟩
    rw [hform] at hlines ⊢
    exact exists_source_of_wellFormed hts hlines

end LoxScan
