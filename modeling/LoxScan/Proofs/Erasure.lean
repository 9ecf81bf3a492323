import LoxScan.Proofs.Rewriting
import LoxScan.Proofs.Automaton

/-!
# LoxScan - Errors blanked and comments deleted

Unexpected characters and comments hand on no token, and no token depends on them.  If
every unexpected character is overwritten by a space, the tokens and their lines stay the
same, and only the errors about these characters are gone.  If every comment is deleted,
nothing changes at all.

Main definitions:

- `Scan.replaced`, a source in which the characters of some steps are replaced;
- `blanked`, a source with a space in place of each unexpected character;
- `uncommented`, a source without its comments.

Main results:

- Theorem `Scan.toList_replaced`: replacing by offsets is replacing step by step.
- Theorem `tokenize_blanked`: what scanning finds if the unexpected characters are
  blanked.
- Theorem `tokenize_uncommented`: scanning finds the same without comments.
-/

namespace LoxScan

/-! ## Replacing the characters of steps -/

namespace Scan

/-- Whether an offset lies in the text that a step takes. -/
def Step.covers (s : Step) (i : Nat) : Bool :=
  s.offset ≤ i && i < s.offset + s.piece.chars.length

/-- Whether an offset lies in the text of a selected step. -/
def isSelected (selected : Step → Bool) (ss : List Step) (i : Nat) : Bool :=
  ss.any fun s => selected s && s.covers i

/-- A source in which each character is replaced whose offset lies in a selected step. -/
def replaced (selected : Step → Bool) (fill : List Char) (source : String) : String :=
  String.ofList (source.toList.zipIdx.flatMap fun x =>
    if isSelected selected (steps source) x.2 then fill else [x.1])

/-- The text of a step, with each character replaced if the step is selected. -/
def Step.replaced (selected : Step → Bool) (fill : List Char) (s : Step) : List Char :=
  if selected s then s.piece.chars.flatMap fun _ => fill else s.piece.chars

variable {selected : Step → Bool} {fill : List Char}

/-- An offset in the first of some pieces lies in the first step only. -/
theorem isSelected_of_lt {offset i : Nat} {line : UInt32} {p : Piece} {ps : List Piece}
    (hle : offset ≤ i) (hlt : i < offset + p.chars.length) :
    isSelected selected (stepsFrom offset line (p :: ps)) i = selected ⟨offset, line, p⟩ := by
  have htail : isSelected selected
      (stepsFrom (offset + p.chars.length) (Line.advance line p.chars) ps) i = false := by
    rw [isSelected, List.any_eq_false]
    intro s hs
    have hoffset := le_offset_of_mem_stepsFrom hs
    have hcovers : ¬ s.offset ≤ i := by omega
    simp [Step.covers, hcovers]
  rw [isSelected] at htail
  rw [isSelected, stepsFrom, List.any_cons, htail]
  simp [Step.covers, hle, hlt]

/-- An offset after the first of some pieces does not lie in the first step. -/
theorem isSelected_of_le {offset i : Nat} {line : UInt32} {p : Piece} {ps : List Piece}
    (hle : offset + p.chars.length ≤ i) :
    isSelected selected (stepsFrom offset line (p :: ps)) i =
      isSelected selected (stepsFrom (offset + p.chars.length) (Line.advance line p.chars) ps)
        i := by
  have hcovers : ¬ i < offset + p.chars.length := by omega
  rw [isSelected, stepsFrom, List.any_cons, isSelected]
  simp [Step.covers, hcovers]

/-- Replacing characters in the text of pieces by their offsets is replacing the texts of
the steps that take the pieces. -/
theorem flatMap_zipIdx_eq (offset : Nat) (line : UInt32) (ps : List Piece) :
    (((ps.flatMap Piece.chars).zipIdx offset).flatMap fun x =>
        if isSelected selected (stepsFrom offset line ps) x.2 then fill else [x.1]) =
      (stepsFrom offset line ps).flatMap (Step.replaced selected fill) := by
  induction ps generalizing offset line with
  | nil => rfl
  | cons p ps ih =>
    have hfirst : ((p.chars.zipIdx offset).flatMap fun x =>
          if isSelected selected (stepsFrom offset line (p :: ps)) x.2 then fill else [x.1]) =
        Step.replaced selected fill ⟨offset, line, p⟩ := by
      calc
        _ = (p.chars.zipIdx offset).flatMap
              (fun x => if selected ⟨offset, line, p⟩ then fill else [x.1]) := by
            apply List.flatMap_congr
            intro x hx
            rcases List.mem_zipIdx hx with ⟨hle, hlt, _⟩
            rw [isSelected_of_lt hle hlt]
        _ = ((p.chars.zipIdx offset).map Prod.fst).flatMap
              (fun c => if selected ⟨offset, line, p⟩ then fill else [c]) := by
            rw [List.flatMap_map]
        _ = Step.replaced selected fill ⟨offset, line, p⟩ := by
            rw [List.zipIdx_map_fst, Step.replaced]
            split <;> simp
    have hrest : (((ps.flatMap Piece.chars).zipIdx (offset + p.chars.length)).flatMap fun x =>
          if isSelected selected (stepsFrom offset line (p :: ps)) x.2 then fill else [x.1]) =
        (stepsFrom (offset + p.chars.length) (Line.advance line p.chars) ps).flatMap
          (Step.replaced selected fill) := by
      rw [← ih]
      apply List.flatMap_congr
      intro x hx
      rcases List.mem_zipIdx hx with ⟨hle, _, _⟩
      rw [isSelected_of_le hle]
    rw [List.flatMap_cons, List.zipIdx_append, List.flatMap_append, hfirst, hrest]
    rfl

/-- A source in which characters are replaced by their offsets is its steps one after the
other, with the text of each selected one replaced. -/
theorem toList_replaced (source : String) :
    (replaced selected fill source).toList =
      (steps source).flatMap (Step.replaced selected fill) := by
  have htext := @flatMap_zipIdx_eq selected fill 0 1 (Piece.ofText source.toList)
  rw [Piece.flatMap_chars_ofText] at htext
  rw [replaced, String.toList_ofList]
  exact htext

/-- A source in which characters are replaced is made of rewritten pieces, if the text of
each step becomes that of a piece, or nothing. -/
theorem toList_replaced_eq_rewrite {f : Piece → Option Piece} {source : String}
    (h : ∀ s ∈ steps source, s.replaced selected fill = (f s.piece).elim [] Piece.chars) :
    (replaced selected fill source).toList =
      (Piece.rewrite (fun p _ => f p) (Piece.ofText source.toList)).flatMap Piece.chars := by
  have hpieces : ∀ ps, (Piece.rewrite (fun p _ => f p) ps).flatMap Piece.chars =
      ps.flatMap fun p => (f p).elim [] Piece.chars := by
    intro ps
    induction ps with
    | nil => rfl
    | cons p ps ih => rw [Piece.flatMap_chars_rewrite_cons, ih, List.flatMap_cons]
  rw [toList_replaced, List.flatMap_congr h, hpieces, ← map_piece_steps, List.flatMap_map]

end Scan

/-! ## Unexpected characters blanked -/

/-- Whether the cause of an error is a character that begins no token. -/
def Cause.isUnexpected : Cause → Bool
  | unexpectedCharacter _ => true
  | _ => false

/-- Whether a step reports an unexpected character. -/
def Scan.Step.isUnexpected (s : Step) : Bool :=
  s.error?.any (·.cause.isUnexpected)

/-- A source with a space in place of each character that is reported as unexpected. -/
def blanked (source : String) : String :=
  Scan.replaced Scan.Step.isUnexpected [' '] source

/-- What is left of an event without the errors about unexpected characters. -/
def Event.expected? : Event → Option Event
  | token t => some (token t)
  | error e => if e.cause.isUnexpected then none else some (error e)

namespace Piece

/-- A piece, with a space for an unexpected character. -/
def blanked : Piece → Piece
  | unexpected _ => blank ' '
  | p => p

/-- Only an unexpected character changes when it is blanked. -/
theorem blanked_eq_or (p : Piece) :
    p.blanked = p ∨ ∃ c, p = unexpected c ∧ p.blanked = blank ' ' := by
  cases p with
  | unexpected c => exact .inr ⟨c, rfl, rfl⟩
  | _ => exact .inl rfl

/-- An unexpected character is no newline. -/
theorem ne_newline_of_not_isExpected {c : Char} (h : ¬ isExpected c) : c ≠ '\n' := by
  rintro rfl
  exact h (by decide)

/-- What a blanked piece gives rise to: the event of the piece, unless it is about an
unexpected character. -/
theorem event?_blanked {p : Piece} (start stop : UInt32) :
    p.blanked.event? start stop = (p.event? start stop).bind Event.expected? := by
  cases p with
  | number n =>
    simp only [blanked, event?]
    cases Numeral.read? n.chars <;> rfl
  | _ => rfl

/-- Blanking unexpected characters rewrites texts piece by piece. -/
theorem rewrites_blanked : Rewrites (fun p _ => some p.blanked) Event.expected? where
  wellFormed := by
    rintro p _ _ hp ⟨⟩
    rcases p.blanked_eq_or with h | ⟨c, _, h⟩ <;> rw [h]
    · exact hp
    · exact (by decide : isBlank ' ')
  stopsAt := by
    rintro p _ _ hstop ⟨⟩
    rcases p.blanked_eq_or with h | ⟨c, _, h⟩ <;> rw [h]
    · exact hstop
    · trivial
  count_newline := by
    intro p _ hp _
    rcases p.blanked_eq_or with h | ⟨c, rfl, h⟩ <;> rw [Option.elim_some, h]
    have hc := ne_newline_of_not_isExpected hp
    simp [chars, hc]
  event? := by
    intro p _ start stop _
    exact event?_blanked start stop
  agrees := by
    intro ps hfit
    induction ps with
    | nil => exact .nil _
    | cons p ps ih =>
      have hagree := ih hfit.2.2
      rw [flatMap_chars_rewrite_cons, List.flatMap_cons, Option.elim_some]
      rcases p.blanked_eq_or with h | ⟨c, rfl, h⟩ <;> rw [h]
      · exact hagree.append_left p.chars
      · exact .blank _ _ (ne_newline_of_not_isExpected hfit.1) (by decide)

end Piece

/-- A step reports an unexpected character if its piece is one. -/
theorem Scan.Step.isUnexpected_eq {s : Step} (hs : s.piece.WellFormed) :
    s.isUnexpected = s.piece.cause?.any Cause.isUnexpected := by
  rw [← map_cause_error? hs, isUnexpected, Option.any_map]

/-- The text of a source with blanked characters is made of blanked pieces. -/
theorem toList_blanked (source : String) :
    (blanked source).toList =
      (Piece.rewrite (fun p _ => some p.blanked) (Piece.ofText source.toList)).flatMap
        Piece.chars := by
  apply Scan.toList_replaced_eq_rewrite
  intro s hs
  rw [Scan.Step.replaced, Scan.Step.isUnexpected_eq (Scan.wellFormed_of_mem_steps hs),
    Option.elim_some]
  cases s.piece <;> rfl

/-- A source has at most one unterminated string. -/
theorem count_unterminatedString_tokenize_le (source : String) :
    ((tokenize source).errors.map LexicalError.cause).count .unterminatedString ≤ 1 := by
  rw [causes_tokenize, ← Mode.causes_flatMap_chars (Piece.fit_ofText _)]
  exact Mode.count_unterminatedString_causes_le _ _

/-- An error of a source is about an unexpected character or an unterminated string. -/
theorem cause_of_mem_errors {source : String} {e : LexicalError}
    (he : e ∈ (tokenize source).errors) :
    e.cause.isUnexpected ∨ e.cause = .unterminatedString := by
  rw [errors_tokenize] at he
  rcases List.mem_filterMap.mp he with ⟨s, hs, herror⟩
  rcases Scan.Step.spec_of_error? (Scan.wellFormed_of_mem_steps hs) herror with
    ⟨c, _, rfl⟩ | ⟨body, _, rfl⟩
  · exact .inl rfl
  · exact .inr rfl

/-- Blanking unexpected characters keeps the tokens. -/
theorem tokens_blanked (source : String) :
    (tokenize (blanked source)).tokens = (tokenize source).tokens := by
  rw [Piece.rewrites_blanked.tokens_eq (toList_blanked source), tokens_eq_filterMap_heard]
  congr 2
  funext event
  cases event with
  | token t => rfl
  | error e => cases h : e.cause.isUnexpected <;> simp [Event.expected?, Event.token?, h]

/-- Blanking unexpected characters drops the errors about them. -/
theorem errors_blanked (source : String) :
    (tokenize (blanked source)).errors =
      (tokenize source).errors.filter (!·.cause.isUnexpected) := by
  rw [Piece.rewrites_blanked.errors_eq (toList_blanked source), errors_eq_filterMap_heard,
    List.filter_filterMap]
  congr 1
  funext event
  cases event with
  | token t => rfl
  | error e =>
    cases h : e.cause.isUnexpected <;>
      simp [Event.expected?, Event.error?, Option.filter, h]

/-- If a space is put in place of every character that is reported as unexpected, scanning
gives the same tokens on the same lines, and of the errors all but those about unexpected
characters.  So at most one error is left, about an unterminated string. -/
theorem tokenize_blanked (source : String) :
    (tokenize (blanked source)).tokens = (tokenize source).tokens ∧
      (tokenize (blanked source)).errors =
        (tokenize source).errors.filter (!·.cause.isUnexpected) ∧
      (tokenize (blanked source)).errors.length ≤ 1 ∧
      ∀ e ∈ (tokenize (blanked source)).errors, e.cause = .unterminatedString := by
  have hunterminated : ∀ e ∈ (tokenize (blanked source)).errors,
      e.cause = .unterminatedString := by
    intro e he
    have hexpected : e.cause.isUnexpected = false := by
      rw [errors_blanked] at he
      simpa using (List.mem_filter.mp he).2
    rcases cause_of_mem_errors he with hcause | hcause
    · rw [hexpected] at hcause
      cases hcause
    · exact hcause
  refine ⟨tokens_blanked source, errors_blanked source, ?_, hunterminated⟩
  have hcauses : ∀ cause ∈ (tokenize (blanked source)).errors.map LexicalError.cause,
      .unterminatedString = cause := by
    intro cause hmem
    rcases List.mem_map.mp hmem with ⟨e, he, rfl⟩
    exact (hunterminated e he).symm
  have hcount := count_unterminatedString_tokenize_le (blanked source)
  rwa [List.count_eq_length.mpr hcauses, List.length_map] at hcount

/-! ## Comments deleted -/

namespace Piece

/-- Whether a piece is a comment. -/
def isComment : Piece → Bool
  | comment _ => true
  | _ => false

/-- A piece that is kept when comments are deleted. -/
def uncommented? (p : Piece) : Option Piece :=
  if p.isComment then none else some p

/-- Only comments are not kept. -/
theorem uncommented?_eq_or (p : Piece) :
    p.uncommented? = some p ∨ ∃ body, p = comment body ∧ p.uncommented? = none := by
  cases p with
  | comment body => exact .inr ⟨body, rfl, rfl⟩
  | _ => exact .inl rfl

/-- A piece that is kept stays as it is, and is no comment. -/
theorem eq_of_uncommented? {p q : Piece} (h : p.uncommented? = some q) :
    p = q ∧ q.isComment = false := by
  rw [uncommented?] at h
  split at h
  · cases h
  · rename_i hcomment
    obtain rfl := Option.some.inj h
    exact ⟨rfl, by simpa using hcomment⟩

/-- The text after a comment is empty or begins with a newline, so without the comment the
texts agree up to that. -/
theorem agreesUntilBlank_comment {body ys : List Char} (xs : List Char)
    (h : (comment body).StopsAt ys) : AgreesUntilBlank ((comment body).chars ++ xs) ys := by
  cases ys with
  | nil => exact .nil _
  | cons c ys =>
    obtain rfl : c = '\n' := h c rfl
    exact .blank _ _ (by decide) (by decide)

/-- Deleting comments rewrites texts piece by piece. -/
theorem rewrites_uncommented : Rewrites (fun p _ => p.uncommented?) some where
  wellFormed := by
    intro p q _ hp hq
    rwa [← (eq_of_uncommented? hq).1]
  stopsAt := by
    intro p q _ hstop hq
    rwa [← (eq_of_uncommented? hq).1]
  count_newline := by
    intro p _ hp _
    rcases p.uncommented?_eq_or with h | ⟨body, rfl, h⟩ <;> rw [h]
    · rfl
    · simpa [chars, eq_comm] using List.count_eq_zero.mpr hp
  event? := by
    intro p _ start stop _
    rcases p.uncommented?_eq_or with h | ⟨body, rfl, h⟩ <;> rw [h]
    · simp
    · rfl
  agrees := by
    intro ps hfit
    induction ps with
    | nil => exact .nil _
    | cons p ps ih =>
      have hagree := ih hfit.2.2
      rw [flatMap_chars_rewrite_cons, List.flatMap_cons]
      rcases p.uncommented?_eq_or with h | ⟨body, rfl, h⟩ <;> rw [h]
      · exact hagree.append_left p.chars
      · exact agreesUntilBlank_comment _ (hfit.2.1.of_agreesUntilBlank hagree)

/-- Among the pieces that are kept there is no comment. -/
theorem isComment_of_mem_rewrite {ps : List Piece} {q : Piece}
    (h : q ∈ rewrite (fun p _ => p.uncommented?) ps) : q.isComment = false := by
  induction ps with
  | nil => cases h
  | cons p ps ih =>
    rcases List.mem_append.mp h with hfirst | hrest
    · exact (eq_of_uncommented? (Option.mem_toList.mp hfirst)).2
    · exact ih hrest

end Piece

/-- A source without its comments: every character is deleted that lies in a step which
takes a comment, from the two slashes up to the newline or the end. -/
def uncommented (source : String) : String :=
  Scan.replaced (·.piece.isComment) [] source

/-- The text of a source without comments is made of the other pieces. -/
theorem toList_uncommented (source : String) :
    (uncommented source).toList =
      (Piece.rewrite (fun p _ => p.uncommented?) (Piece.ofText source.toList)).flatMap
        Piece.chars := by
  apply Scan.toList_replaced_eq_rewrite
  intro s _
  rw [Scan.Step.replaced, Piece.uncommented?]
  split <;> simp

/-- No step takes a comment once they are deleted. -/
theorem isComment_of_mem_steps_uncommented {source : String} {s : Scan.Step}
    (hs : s ∈ Scan.steps (uncommented source)) : s.piece.isComment = false := by
  have hpiece : s.piece ∈ (Scan.steps (uncommented source)).map Scan.Step.piece :=
    List.mem_map_of_mem hs
  rw [Scan.map_piece_steps, Piece.rewrites_uncommented.ofText_eq (toList_uncommented source)]
    at hpiece
  exact Piece.isComment_of_mem_rewrite hpiece

/-- A source in which no step takes a comment has none to delete. -/
theorem uncommented_eq_self {source : String}
    (h : ∀ s ∈ Scan.steps source, s.piece.isComment = false) : uncommented source = source := by
  apply String.toList_injective
  have htexts : ∀ s ∈ Scan.steps source,
      s.replaced (·.piece.isComment) [] = s.piece.chars := by
    intro s hs
    simp [Scan.Step.replaced, h s hs]
  rw [uncommented, Scan.toList_replaced, List.flatMap_congr htexts, ← List.flatMap_map,
    Scan.map_piece_steps, Piece.flatMap_chars_ofText]

/-- Without its comments a source is scanned to the same tokens and errors, all on the same
lines; and it has no more comments, so that deleting them again changes nothing. -/
theorem tokenize_uncommented (source : String) :
    (tokenize (uncommented source)).tokens = (tokenize source).tokens ∧
      (tokenize (uncommented source)).errors = (tokenize source).errors ∧
      (∀ s ∈ Scan.steps (uncommented source), s.piece.isComment = false) ∧
      uncommented (uncommented source) = uncommented source := by
  refine ⟨?_, ?_, fun s hs => isComment_of_mem_steps_uncommented hs,
    uncommented_eq_self fun s hs => isComment_of_mem_steps_uncommented hs⟩
  · rw [Piece.rewrites_uncommented.tokens_eq (toList_uncommented source),
      tokens_eq_filterMap_heard]
    rfl
  · rw [Piece.rewrites_uncommented.errors_eq (toList_uncommented source),
      errors_eq_filterMap_heard]
    rfl

end LoxScan
