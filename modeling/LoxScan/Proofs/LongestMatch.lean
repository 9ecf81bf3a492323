import LoxScan.Proofs.Steps

/-!
# LoxScan - Longest match

The lexical rules say which texts are blanks, comments, symbols, numbers and
strings, and nothing about how they are found.  By longest match they fix how a
text is cut: at each place the longest text that belongs to a rule is cut off, and
where there is none the place is an error.  Scanning cuts every source in that way.

Main definitions:

- `Rule` and `Rule.Accepts`, the lexical rules and their texts;
- `Munch` and `Cuts`, the cuts of a text by longest match.

Main results:

- Theorem `Cuts.unique`: longest match leaves no choice.
- Theorem `tokenize_longestMatch`: the tokens and the errors of a source are those
  of its cuts, and the cuts make up the source.
-/

namespace LoxScan

/-! ## The lexical rules -/

/-- A lexical rule. -/
inductive Rule
  | blank
  | comment
  | symbol (s : Symbol)
  | number
  | string
  deriving DecidableEq, Repr

/-- Whether a text belongs to a rule. -/
def Rule.Accepts : Rule → List Char → Prop
  | blank, w => ∃ c ∈ [' ', '\r', '\t', '\n'], w = [c]
  | comment, w => ∃ body, '\n' ∉ body ∧ w = '/' :: '/' :: body
  | symbol s, w => w = s.chars
  | number, w => IsNumeral w
  | string, w => ∃ body, '"' ∉ body ∧ w = '"' :: (body ++ ['"'])

/-- Whether a text is a longest one of those that begin another text and belong to
some rule, and belongs to the given rule. -/
def Rule.Longest (r : Rule) (w text : List Char) : Prop :=
  w <+: text ∧ r.Accepts w ∧ ∀ r' w', w' <+: text → Rule.Accepts r' w' → w'.length ≤ w.length

/-- Whether no rule accepts any text that begins another one. -/
def NoMatch (text : List Char) : Prop :=
  ∀ r w, w <+: text → w ≠ [] → ¬ Rule.Accepts r w

/-! ## Cutting by longest match -/

/-- What is cut off a text: a text that belongs to a rule, or an error. -/
inductive Munch
  | lexeme (r : Rule) (w : List Char)
  | unexpected (c : Char)
  | unterminated (body : List Char)
  deriving DecidableEq, Repr

namespace Munch

/-- The text that is cut off. -/
def chars : Munch → List Char
  | lexeme _ w => w
  | unexpected c => [c]
  | unterminated body => '"' :: body

/-- The kind and the text of the token that is cut off, if it is one. -/
def token? : Munch → Option (Kind × String)
  | lexeme .blank _ => none
  | lexeme .comment _ => none
  | lexeme (.symbol s) w => some (.symbol s, String.ofList w)
  | lexeme .number w => some (.number, String.ofList w)
  | lexeme .string w => some (.string, String.ofList w)
  | unexpected _ => none
  | unterminated _ => none

/-- The cause of the error that is cut off, if it is one. -/
def cause? : Munch → Option Cause
  | lexeme .. => none
  | unexpected c => some (.unexpectedCharacter c)
  | unterminated _ => some .unterminatedString

end Munch

/-- The cuts of a text by longest match.  Where no rule accepts anything, a quote
takes all the rest, and any other character is cut off alone. -/
inductive Cuts : List Char → List Munch → Prop
  | done : Cuts [] []
  | lexeme {r : Rule} {w rest : List Char} {ms : List Munch} :
      r.Longest w (w ++ rest) → Cuts rest ms → Cuts (w ++ rest) (.lexeme r w :: ms)
  | unterminated {body : List Char} :
      NoMatch ('"' :: body) → Cuts ('"' :: body) [.unterminated body]
  | unexpected {c : Char} {rest : List Char} {ms : List Munch} :
      NoMatch (c :: rest) → c ≠ '"' → Cuts rest ms → Cuts (c :: rest) (.unexpected c :: ms)

/-- The cuts of a text make up the text. -/
theorem Cuts.flatMap_chars {text : List Char} {ms : List Munch} (h : Cuts text ms) :
    ms.flatMap Munch.chars = text := by
  induction h with
  | done => rfl
  | lexeme _ _ ih => simp [Munch.chars, ih]
  | unterminated _ => simp [Munch.chars]
  | unexpected _ _ _ ih => simp [Munch.chars, ih]

/-! ## Rules and pieces -/

namespace Piece

/-- A piece as it is cut off by longest match. -/
def munch : Piece → Munch
  | blank c => .lexeme .blank [c]
  | comment body => .lexeme .comment (comment body).chars
  | symbol s => .lexeme (.symbol s) s.chars
  | string body => .lexeme .string (string body).chars
  | number n => .lexeme .number n.chars
  | unexpected c => .unexpected c
  | unterminated body => .unterminated body

/-- Pieces and what is cut off have the same text. -/
@[simp]
theorem chars_munch (p : Piece) : p.munch.chars = p.chars := by
  cases p <;> rfl

/-- Pieces and what is cut off are errors of the same cause. -/
@[simp]
theorem cause?_munch (p : Piece) : p.munch.cause? = p.cause? := by
  cases p <;> rfl

/-- The texts that belong to a rule are the pieces that are cut off by it. -/
theorem accepts_iff_exists_munch {r : Rule} {w : List Char} :
    r.Accepts w ↔ ∃ p : Piece, p.WellFormed ∧ p.munch = .lexeme r w := by
  constructor
  · intro h
    cases r with
    | blank =>
      rcases h with ⟨c, hc, rfl⟩
      exact ⟨blank c, by simpa [WellFormed, isBlank, or_assoc] using hc, rfl⟩
    | comment =>
      rcases h with ⟨body, hbody, rfl⟩
      exact ⟨comment body, hbody, rfl⟩
    | symbol s =>
      have htext : w = s.chars := h
      subst htext
      exact ⟨symbol s, trivial, rfl⟩
    | number =>
      rcases isNumeral_iff.mp h with ⟨n, hn, rfl⟩
      exact ⟨number n, hn, rfl⟩
    | string =>
      rcases h with ⟨body, hbody, rfl⟩
      exact ⟨string body, hbody, rfl⟩
  · rintro ⟨p, hp, hmunch⟩
    cases p with
    | blank c =>
      cases hmunch
      exact ⟨c, by simpa [WellFormed, isBlank, or_assoc] using hp, rfl⟩
    | comment body =>
      cases hmunch
      exact ⟨body, hp, rfl⟩
    | symbol s =>
      cases hmunch
      rfl
    | string body =>
      cases hmunch
      exact ⟨body, hp, rfl⟩
    | number n =>
      cases hmunch
      exact isNumeral_iff.mpr ⟨n, hp, rfl⟩
    | unexpected c => cases hmunch
    | unterminated body => cases hmunch

/-- A piece that belongs to a rule may stand at the end of a text. -/
theorem stopsAt_nil {p : Piece} {r : Rule} {w : List Char} (h : p.munch = .lexeme r w) :
    p.StopsAt [] := by
  cases p with
  | unterminated body => cases h
  | number n => exact n.stopsAt_nil
  | _ => simp [StopsAt]

/-- A piece that belongs to a rule and begins with a quote is a string. -/
theorem eq_string_of_quote_mem_head?_chars {p : Piece} {r : Rule} {w : List Char}
    (hp : p.WellFormed) (hmunch : p.munch = .lexeme r w) (hc : '"' ∈ p.chars.head?) :
    ∃ body, p = string body := by
  cases p with
  | blank c =>
    have hchar : c = '"' := by simpa [chars] using hc
    subst hchar
    have hblank : isBlank '"' := hp
    exact absurd hblank (by decide)
  | symbol s => cases s <;> cases hc
  | number n =>
    have hdigit : '"'.isDigit := Numeral.isDigit_of_mem_head?_chars hp hc
    exact absurd hdigit (by decide)
  | comment body => cases hc
  | string body => exact ⟨body, rfl⟩
  | unexpected c => cases hmunch
  | unterminated body => cases hmunch

/-- A piece that belongs to a rule is no longer than the first piece of a text that
begins with it. -/
theorem length_chars_le_first {p : Piece} {r : Rule} {w : List Char} {c : Char} {cs : List Char}
    (hp : p.WellFormed) (hmunch : p.munch = .lexeme r w) (h : p.chars <+: c :: cs) :
    p.chars.length ≤ (first c cs).1.chars.length := by
  rcases h with ⟨rest, happend⟩
  by_cases hstop : p.StopsAt rest
  · rw [first_eq_iff.mpr ⟨happend, hp, hstop⟩]
  -- Only comments, numbers and symbols may go on, and only symbols as other pieces.
  cases p with
  | comment body =>
    obtain ⟨rfl, rfl⟩ : '/' = c ∧ '/' :: (body ++ rest) = cs := by simpa [chars] using happend
    have htake : (body ++ rest).takeWhile (· ≠ '\n') = body ++ rest.takeWhile (· ≠ '\n') :=
      List.takeWhile_append_of_pos (decide_ne_of_mem hp)
    rw [first_slash_slash, htake]
    simp only [chars, List.length_cons, List.length_append]
    omega
  | symbol s =>
    have hone : s.chars.length = 1 := by
      simp only [StopsAt, not_forall] at hstop
      rcases hstop with ⟨d, hd, _⟩
      exact Symbol.length_chars_of_mem_extension? hd
    have hpos := List.length_pos_iff.mpr (chars_first_ne_nil c cs)
    rw [chars, hone]
    omega
  | number n =>
    have hc : c.isDigit :=
      Numeral.isDigit_of_mem_head?_chars hp (mem_head?_chars_of_append (p := number n) hp happend)
    rw [first_of_isDigit hc, ← happend]
    exact Numeral.length_chars_le_take hp rest
  | blank b => exact absurd trivial hstop
  | string body => exact absurd trivial hstop
  | unexpected u => cases hmunch
  | unterminated body => cases hmunch

/-! ## The pieces are the cuts -/

/-- The text of a piece that belongs to a rule is what the rule cuts off. -/
theorem chars_of_munch {p : Piece} {r : Rule} {w : List Char} (h : p.munch = .lexeme r w) :
    p.chars = w := by
  rw [← chars_munch, h, Munch.chars]

/-- A piece that belongs to a rule is a longest match where it ends. -/
theorem longest_of_stopsAt {p : Piece} {r : Rule} {w rest : List Char} (hp : p.WellFormed)
    (hstop : p.StopsAt rest) (hmunch : p.munch = .lexeme r w) : r.Longest w (w ++ rest) := by
  obtain rfl := chars_of_munch hmunch
  refine ⟨List.prefix_append .., accepts_iff_exists_munch.mpr ⟨p, hp, hmunch⟩, ?_⟩
  intro r' w' hbegins haccepts
  rcases accepts_iff_exists_munch.mp haccepts with ⟨q, hq, hmunch'⟩
  obtain rfl := chars_of_munch hmunch'
  -- The piece is the first one of the text, and no other match is longer than that.
  have hne : p.chars ++ rest ≠ [] := List.append_ne_nil_of_left_ne_nil (chars_ne_nil hp) rest
  rcases List.exists_cons_of_ne_nil hne with ⟨c, cs, hcs⟩
  rw [hcs] at hbegins
  have hle := length_chars_le_first hq hmunch' hbegins
  rwa [first_eq_iff.mpr ⟨hcs, hp, hstop⟩] at hle

/-- A text that belongs to a rule and begins another one is a piece with the same
first character. -/
theorem exists_munch_of_prefix {r : Rule} {w : List Char} {c : Char} {cs : List Char}
    (hbegins : w <+: c :: cs) (haccepts : r.Accepts w) :
    ∃ p : Piece, p.WellFormed ∧ p.munch = .lexeme r p.chars ∧ p.chars = w ∧
      c ∈ p.chars.head? := by
  rcases accepts_iff_exists_munch.mp haccepts with ⟨p, hp, hmunch⟩
  obtain rfl := chars_of_munch hmunch
  rcases hbegins with ⟨rest, happend⟩
  exact ⟨p, hp, hmunch, rfl, mem_head?_chars_of_append hp happend⟩

/-- No rule accepts anything that begins with an unexpected character. -/
theorem noMatch_unexpected {c : Char} (hc : ¬ isExpected c) (cs : List Char) :
    NoMatch (c :: cs) := by
  intro r w hbegins _ haccepts
  rcases exists_munch_of_prefix hbegins haccepts with ⟨p, hp, hmunch, -, hhead⟩
  refine hc (isExpected_of_mem_head?_chars hp hhead ?_)
  rintro rfl
  cases hmunch

/-- No rule accepts anything that begins with a quote without a second one. -/
theorem noMatch_unterminated {body : List Char} (hbody : '"' ∉ body) :
    NoMatch ('"' :: body) := by
  intro r w hbegins _ haccepts
  rcases exists_munch_of_prefix hbegins haccepts with ⟨p, hp, hmunch, hw, hhead⟩
  rcases eq_string_of_quote_mem_head?_chars hp hmunch hhead with ⟨body', rfl⟩
  subst hw
  have hclosed : body' ++ ['"'] <+: body := by simpa [chars] using hbegins
  exact hbody (hclosed.subset (by simp))

/-- Pieces that fit together are the cuts of the text that they make up. -/
theorem cuts_flatMap_chars {ps : List Piece} (h : Fit ps) :
    Cuts (ps.flatMap chars) (ps.map munch) := by
  induction ps with
  | nil => exact .done
  | cons p ps ih =>
    rcases h with ⟨hp, hstop, hrest⟩
    rw [List.flatMap_cons, List.map_cons]
    cases hmunch : p.munch with
    | lexeme r w =>
      rw [chars_of_munch hmunch]
      exact .lexeme (longest_of_stopsAt hp hstop hmunch) (ih hrest)
    | unexpected c =>
      have hpiece : p = unexpected c := by
        cases p <;> cases hmunch
        rfl
      subst hpiece
      refine .unexpected (noMatch_unexpected hp _) ?_ (ih hrest)
      rintro rfl
      exact hp (by decide)
    | unterminated body =>
      have hpiece : p = unterminated body := by
        cases p <;> cases hmunch
        rfl
      subst hpiece
      -- Nothing follows an unterminated string.
      have hempty : ps.flatMap chars = [] := hstop
      obtain rfl : ps = [] := by
        have := ofText_flatMap_chars hrest
        rw [hempty, ofText_nil] at this
        exact this.symm
      simpa [chars] using Cuts.unterminated (noMatch_unterminated hp)

end Piece

/-! ## Longest match leaves no choice -/

/-- A text belongs to at most one rule. -/
theorem Rule.accepts_unique {r r' : Rule} {w : List Char} (h : r.Accepts w) (h' : r'.Accepts w) :
    r = r' := by
  rcases Piece.accepts_iff_exists_munch.mp h with ⟨p, hp, hmunch⟩
  rcases Piece.accepts_iff_exists_munch.mp h' with ⟨q, hq, hmunch'⟩
  rcases List.exists_cons_of_ne_nil (Piece.chars_ne_nil hp) with ⟨c, cs, hcs⟩
  have hsame : q.chars = p.chars :=
    (Piece.chars_of_munch hmunch').trans (Piece.chars_of_munch hmunch).symm
  rw [← List.append_nil p.chars] at hcs
  have hfirst := Piece.first_eq_iff.mpr ⟨hcs, hp, Piece.stopsAt_nil hmunch⟩
  rw [← hsame] at hcs
  have hfirst' := Piece.first_eq_iff.mpr ⟨hcs, hq, Piece.stopsAt_nil hmunch'⟩
  have hpq : p = q := congrArg Prod.fst (hfirst.symm.trans hfirst')
  subst hpq
  rw [hmunch] at hmunch'
  exact (Munch.lexeme.inj hmunch').1

/-- A text that belongs to a rule is not empty. -/
theorem Rule.ne_nil_of_accepts {r : Rule} {w : List Char} (h : r.Accepts w) : w ≠ [] := by
  rcases Piece.accepts_iff_exists_munch.mp h with ⟨p, hp, hmunch⟩
  rw [← Piece.chars_of_munch hmunch]
  exact Piece.chars_ne_nil hp

/-- Where no rule accepts anything, there is no longest match. -/
theorem not_longest_of_noMatch {r : Rule} {w text : List Char} (h : NoMatch text) :
    ¬ r.Longest w text := by
  rintro ⟨hbegins, haccepts, _⟩
  exact h r w hbegins (Rule.ne_nil_of_accepts haccepts) haccepts

/-- Two longest matches at the same place are the same. -/
theorem Rule.longest_unique {r r' : Rule} {w w' text : List Char} (h : r.Longest w text)
    (h' : r'.Longest w' text) : r = r' ∧ w = w' := by
  rcases h with ⟨hbegins, haccepts, hmax⟩
  rcases h' with ⟨hbegins', haccepts', hmax'⟩
  have hlength : w.length = w'.length :=
    Nat.le_antisymm (hmax' r w hbegins haccepts) (hmax r' w' hbegins' haccepts')
  have hw : w = w' := (List.prefix_of_prefix_length_le hbegins hbegins' hlength.le).eq_of_length
    hlength
  subst hw
  exact ⟨Rule.accepts_unique haccepts haccepts', rfl⟩

/-- Longest match leaves no choice: a text has one sequence of cuts at most. -/
theorem Cuts.unique {text : List Char} {ms ms' : List Munch} (h : Cuts text ms)
    (h' : Cuts text ms') : ms = ms' := by
  -- At each place the second sequence has to go on as the first one does: a text that
  -- has a longest match is no text without a match.
  induction h generalizing ms' with
  | done =>
    generalize htext : ([] : List Char) = text at h'
    cases h' with
    | done => rfl
    | lexeme hlongest' _ =>
      have hne := Rule.ne_nil_of_accepts hlongest'.2.1
      simp [hne] at htext
    | unterminated _ => cases htext
    | unexpected _ _ _ => cases htext
  | @lexeme r w rest ms hlongest _ ih =>
    generalize htext : w ++ rest = text at h' hlongest
    cases h' with
    | done =>
      have hne := Rule.ne_nil_of_accepts hlongest.2.1
      simp [hne] at htext
    | lexeme hlongest' hrest' =>
      rcases Rule.longest_unique hlongest hlongest' with ⟨rfl, rfl⟩
      obtain rfl := List.append_cancel_left htext
      rw [ih hrest']
    | unterminated hnone' => exact (not_longest_of_noMatch hnone' hlongest).elim
    | unexpected hnone' _ _ => exact (not_longest_of_noMatch hnone' hlongest).elim
  | @unterminated body hnone =>
    generalize htext : '"' :: body = text at h' hnone
    cases h' with
    | done => cases htext
    | lexeme hlongest' _ => exact (not_longest_of_noMatch hnone hlongest').elim
    | unterminated _ =>
      cases htext
      rfl
    | unexpected _ hquote' _ =>
      cases htext
      exact (hquote' rfl).elim
  | @unexpected c rest ms hnone hquote _ ih =>
    generalize htext : c :: rest = text at h' hnone
    cases h' with
    | done => cases htext
    | lexeme hlongest' _ => exact (not_longest_of_noMatch hnone hlongest').elim
    | unterminated _ =>
      cases htext
      exact (hquote rfl).elim
    | unexpected _ _ hrest' =>
      cases htext
      rw [ih hrest']

/-! ## Scanning cuts by longest match -/

namespace Scan.Step

/-- The token of a step has the kind and the text that are cut off. -/
theorem map_token?_eq_token?_munch {s : Step} (h : s.piece.WellFormed) :
    s.token?.map (fun t => (t.kind, t.lexeme)) = s.piece.munch.token? := by
  rcases s with ⟨offset, line, p⟩
  cases p with
  | number n =>
    rw [token?_number h]
    rfl
  | _ => rfl

end Scan.Step

/-- Scanning cuts by longest match.  A source has exactly one sequence of cuts; they
make up the source, the tokens are the ones that are cut off, in order, with one for
the end, and the errors are the ones that are cut off, in order. -/
theorem tokenize_longestMatch (source : String) :
    ∃ ms, (∀ ms', Cuts source.toList ms' ↔ ms' = ms) ∧
      ms.flatMap Munch.chars = source.toList ∧
      (tokenize source).tokens.map (fun t => (t.kind, t.lexeme)) =
        ms.filterMap Munch.token? ++ [(.eof, "")] ∧
      (tokenize source).errors.map LexicalError.cause = ms.filterMap Munch.cause? := by
  have hcuts : Cuts source.toList ((Piece.ofText source.toList).map Piece.munch) := by
    have := Piece.cuts_flatMap_chars (Piece.fit_ofText source.toList)
    rwa [Piece.flatMap_chars_ofText] at this
  refine ⟨_, ?_, hcuts.flatMap_chars, ?_, ?_⟩
  · intro ms'
    constructor
    · intro h
      exact h.unique hcuts
    · rintro rfl
      exact hcuts
  · have htokens : ((Scan.steps source).filterMap Scan.Step.token?).map
        (fun t => (t.kind, t.lexeme)) =
        ((Scan.steps source).map (Piece.munch ∘ Scan.Step.piece)).filterMap Munch.token? := by
      rw [List.map_filterMap, List.filterMap_map]
      apply List.filterMap_congr
      intro s hs
      exact Scan.Step.map_token?_eq_token?_munch (Scan.wellFormed_of_mem_steps hs)
    rw [tokens_tokenize, List.map_append, htokens, ← Scan.map_piece_steps, List.map_map]
    rfl
  · rw [causes_tokenize, List.filterMap_map]
    apply List.filterMap_congr
    intro p _
    exact (Piece.cause?_munch p).symm

end LoxScan
