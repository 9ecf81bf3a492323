import LoxScan.Proofs.Steps

/-!
# LoxScan - Reconstruction of a source

A source without errors is made up of the texts of its tokens, and of blanks and
comments between them.  A walk along the source checks this: before each token it skips
blanks and comments, and then it asks for the text of the token.  The walk does not
look for pieces, and still it comes to the end exactly where the scan finds no error:
it does not pass an unexpected character, as no token begins with one, and no token is
left to pass an open string.

Main definitions:

- `skipTrivia`, a text without the blanks and comments at its front;
- `retrace?`, the walk along a text beside tokens.

Main results:

- Theorems `skipTrivia_of_isTrivia` and `skipTrivia_of_not_isTrivia`: of the pieces of a
  text, blanks and comments are skipped, and no others.
- Theorem `retrace?_eq_some_nil_iff`: the walk along pieces comes to the end exactly if
  none of them is an error.
- Theorem `retraces_tokenize_iff`: the same for a source and its tokens.
-/

namespace LoxScan

/-! ## The walk -/

/-- A text without the blanks and comments at its front.  A comment ends before the
newline. -/
def skipTrivia : List Char → List Char
  | [] => []
  | '/' :: '/' :: cs => skipTrivia (cs.dropWhile (· ≠ '\n'))
  | c :: cs => if isBlank c then skipTrivia cs else c :: cs
termination_by cs => cs.length
decreasing_by
  · have hle := (List.dropWhile_sublist (p := (· ≠ '\n')) (l := cs)).length_le
    simp only [List.length_cons]
    omega
  · simp

/-- Walks along a text beside tokens.  Before each token the walk skips blanks and
comments, and then passes the text of the token, which has to be there.  After the last
one it skips blanks and comments again, and gives what is left. -/
def retrace? (text : List Char) : List Token → Option (List Char)
  | [] => some (skipTrivia text)
  | t :: ts => (t.lexeme.toList.isPrefixOf? (skipTrivia text)).bind (retrace? · ts)

/-! ## What is skipped -/

@[simp]
theorem skipTrivia_nil : skipTrivia [] = [] := by
  rw [skipTrivia]

/-- A text is skipped up to a character that is no blank and begins no comment. -/
theorem skipTrivia_eq_self {c : Char} {cs : List Char} (hblank : ¬ isBlank c)
    (hslash : c = '/' → '/' ∉ cs.head?) : skipTrivia (c :: cs) = c :: cs := by
  rw [skipTrivia, if_neg hblank]
  rintro tail rfl rfl
  exact hslash rfl rfl

namespace Piece

/-- An error is no token. -/
theorem content?_eq_none {p : Piece} {cause : Cause} (h : p.cause? = some cause) :
    p.content? = none := by
  cases p with
  | unexpected c => rfl
  | unterminated body => rfl
  | _ => cases h

/-- Whether a piece is a blank or a comment. -/
def IsTrivia : Piece → Prop
  | blank _ | comment _ => True
  | _ => False

/-- Blanks and comments are the pieces that are neither tokens nor errors. -/
theorem isTrivia_iff {p : Piece} : p.IsTrivia ↔ p.content? = none ∧ p.cause? = none := by
  cases p <;> simp [IsTrivia, content?, cause?]

end Piece

variable {p : Piece} {rest : List Char}

/-- Blanks and comments are skipped. -/
theorem skipTrivia_of_isTrivia (htrivia : p.IsTrivia) (hp : p.WellFormed) (hstop : p.StopsAt rest) :
    skipTrivia (p.chars ++ rest) = skipTrivia rest := by
  cases p with
  | blank c =>
    have hblank : isBlank c := hp
    rw [Piece.chars_blank, List.singleton_append, skipTrivia, if_pos hblank]
    rintro tail rfl _
    exact absurd hblank (by decide)
  | comment body =>
    have hend : ∀ d ∈ rest.head?, ¬ decide (d ≠ '\n') := by simpa [Piece.StopsAt] using hstop
    rw [Piece.chars, List.cons_append, List.cons_append, skipTrivia,
      dropWhile_append_of_head (decide_ne_of_mem hp) hend]
  | _ => exact htrivia.elim

/-- Other pieces are left where they are. -/
theorem skipTrivia_of_not_isTrivia (htrivia : ¬ p.IsTrivia) (hp : p.WellFormed)
    (hstop : p.StopsAt rest) : skipTrivia (p.chars ++ rest) = p.chars ++ rest := by
  have hne : p.chars ++ rest ≠ [] := List.append_ne_nil_of_left_ne_nil (Piece.chars_ne_nil hp) _
  rcases List.exists_cons_of_ne_nil hne with ⟨c, cs, hcs⟩
  have hfirst : Piece.first c cs = (p, rest) := Piece.first_eq_iff.mpr ⟨hcs, hp, hstop⟩
  -- If the text began with a blank or a comment, this would be its first piece.
  rw [hcs]
  apply skipTrivia_eq_self
  · intro hblank
    have hother : Piece.first c cs = (.blank c, cs) :=
      Piece.first_eq_iff.mpr ⟨rfl, hblank, trivial⟩
    obtain rfl : p = .blank c := congrArg Prod.fst (hfirst.symm.trans hother)
    exact htrivia trivial
  · rintro rfl hhead
    rcases List.head?_eq_some_iff.mp hhead with ⟨tail, rfl⟩
    rw [Piece.first_slash_slash] at hfirst
    obtain rfl := congrArg Prod.fst hfirst
    exact htrivia trivial

/-! ## The walk along pieces -/

/-- The walk passes blanks and comments. -/
theorem retrace?_of_isTrivia (htrivia : p.IsTrivia) (hp : p.WellFormed) (hstop : p.StopsAt rest)
    (ts : List Token) : retrace? (p.chars ++ rest) ts = retrace? rest ts := by
  cases ts with
  | nil => rw [retrace?, retrace?, skipTrivia_of_isTrivia htrivia hp hstop]
  | cons t ts => rw [retrace?, retrace?, skipTrivia_of_isTrivia htrivia hp hstop]

/-- The walk passes the piece of a token with the token. -/
theorem retrace?_of_content? {t : Token} (hcontent : p.content? = some t.content)
    (hp : p.WellFormed) (hstop : p.StopsAt rest) (ts : List Token) :
    retrace? (p.chars ++ rest) (t :: ts) = retrace? rest ts := by
  have htrivia : ¬ p.IsTrivia := by simp [Piece.isTrivia_iff, hcontent]
  have hlexeme := (Piece.spec_of_content? hcontent).2
  have hprefix : p.chars.isPrefixOf? (p.chars ++ rest) = some rest :=
    List.isPrefixOf?_eq_some_iff_append_eq.mpr rfl
  rw [retrace?, skipTrivia_of_not_isTrivia htrivia hp hstop, hlexeme, hprefix, Option.bind_some]

/-- Where the walk passes a character that is not skipped, a token begins with it. -/
theorem exists_cons_of_retrace? {text : List Char} {c : Char} {ts : List Token}
    (hskip : skipTrivia text = text) (hc : c ∈ text.head?)
    (hts : ∀ t ∈ ts, t.lexeme.toList ≠ []) (h : retrace? text ts = some []) :
    ∃ t ∈ ts, c ∈ t.lexeme.toList.head? := by
  cases ts with
  | nil =>
    rw [retrace?, hskip, Option.some_inj] at h
    rw [h] at hc
    cases hc
  | cons t ts =>
    rw [retrace?, hskip, Option.bind_eq_some_iff] at h
    rcases h with ⟨left, hprefix, _⟩
    obtain rfl := List.isPrefixOf?_eq_some_iff_append_eq.mp hprefix
    rw [List.head?_append_of_ne_nil _ (hts t (by simp))] at hc
    exact ⟨t, by simp, hc⟩

/-- Tokens with the contents of pieces are written as these pieces. -/
theorem exists_piece_of_contents {ps : List Piece} {ts : List Token}
    (h : ps.filterMap Piece.content? = ts.map Token.content) {t : Token} (ht : t ∈ ts) :
    ∃ q ∈ ps, q.IsToken ∧ t.lexeme.toList = q.chars := by
  have hmem : t.content ∈ ps.filterMap Piece.content? := by
    rw [h]
    exact List.mem_map_of_mem ht
  rcases List.mem_filterMap.mp hmem with ⟨q, hq, hcontent⟩
  exact ⟨q, hq, Piece.spec_of_content? hcontent⟩

/-- The walk does not pass an error: no token begins with an unexpected character, and
there is no token after an open string. -/
theorem retrace?_ne_of_cause? {ps : List Piece} {ts : List Token} {cause : Cause}
    (hfit : Piece.Fit (p :: ps)) (hcause : p.cause? = some cause)
    (hts : ps.filterMap Piece.content? = ts.map Token.content) :
    retrace? (p.chars ++ ps.flatMap Piece.chars) ts ≠ some [] := by
  rcases hfit with ⟨hp, hstop, hrest⟩
  have hwell := Piece.wellFormed_of_mem_fit hrest
  have htrivia : ¬ p.IsTrivia := by simp [Piece.isTrivia_iff, hcause]
  intro hwalk
  rcases List.exists_cons_of_ne_nil (Piece.chars_ne_nil hp) with ⟨c, cs, hchars⟩
  have hc : c ∈ (p.chars ++ ps.flatMap Piece.chars).head? := by simp [hchars]
  have hne : ∀ t ∈ ts, t.lexeme.toList ≠ [] := by
    intro t ht
    rcases exists_piece_of_contents hts ht with ⟨q, hq, _, hlexeme⟩
    rw [hlexeme]
    exact Piece.chars_ne_nil (hwell q hq)
  rcases exists_cons_of_retrace? (skipTrivia_of_not_isTrivia htrivia hp hstop) hc hne hwalk with
    ⟨t, ht, hct⟩
  rcases exists_piece_of_contents hts ht with ⟨q, hq, htoken, hlexeme⟩
  cases p with
  | unexpected u =>
    obtain rfl : u = c := by simpa [Piece.chars] using congrArg List.head? hchars
    rw [hlexeme] at hct
    refine hp (Piece.isExpected_of_mem_head?_chars (hwell q hq) hct ?_)
    rintro rfl
    exact htoken
  | unterminated body =>
    have hempty : ps.flatMap Piece.chars = [] := hstop
    exact Piece.chars_ne_nil (hwell q hq) (List.flatMap_eq_nil_iff.mp hempty q hq)
  | _ => cases hcause

/-- The walk along the text of pieces, beside tokens with their contents, comes to the
end exactly if none of the pieces is an error. -/
theorem retrace?_eq_some_nil_iff {ps : List Piece} {ts : List Token} (hfit : Piece.Fit ps)
    (hts : ps.filterMap Piece.content? = ts.map Token.content) :
    retrace? (ps.flatMap Piece.chars) ts = some [] ↔ ps.filterMap Piece.cause? = [] := by
  induction ps generalizing ts with
  | nil =>
    obtain rfl : ts = [] := by simpa using hts
    simp [retrace?]
  | cons p ps ih =>
    rw [List.flatMap_cons]
    have hp := hfit.1
    have hstop := hfit.2.1
    cases hcause : p.cause? with
    | some cause =>
      rw [List.filterMap_cons_none (Piece.content?_eq_none hcause)] at hts
      simp [hcause, retrace?_ne_of_cause? hfit hcause hts]
    | none =>
      rw [List.filterMap_cons_none hcause]
      cases hcontent : p.content? with
      | none =>
        rw [List.filterMap_cons_none hcontent] at hts
        rw [retrace?_of_isTrivia (Piece.isTrivia_iff.mpr ⟨hcontent, hcause⟩) hp hstop]
        exact ih hfit.2.2 hts
      | some content =>
        rw [List.filterMap_cons_some hcontent] at hts
        rcases List.map_eq_cons_iff.mp hts.symm with ⟨t, us, rfl, rfl, htail⟩
        rw [retrace?_of_content? hcontent hp hstop]
        exact ih hfit.2.2 htail.symm

/-! ## The walk along a source -/

/-- The walk along a source beside its tokens comes to the end of the source if and only
if scanning the source reports no error. -/
theorem retraces_tokenize_iff (source : String) :
    retrace? source.toList (tokenize source).proper = some [] ↔ (tokenize source).errors = [] := by
  have hwalk := retrace?_eq_some_nil_iff (Piece.fit_ofText source.toList)
    (contents_tokenize source).symm
  rw [Piece.flatMap_chars_ofText, ← causes_tokenize, List.map_eq_nil_iff] at hwalk
  exact hwalk

/-- Slashes that are a token, stand in a string and begin a comment. -/
example : retrace? "1 / \"//\" // 2".toList (tokenize "1 / \"//\" // 2").proper = some [] := by
  decide +kernel

end LoxScan
