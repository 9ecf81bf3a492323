import LoxScan.Proofs.Steps
import LoxScan.Proofs.LineLookup

/-!
# LoxScan - Line stamps

A scan counts the newlines as it passes them, and stamps tokens and errors with the
count.  The stamps lead back to the source: the line of a token or of an unexpected
character shows its first character at its column, and the lines of the end and of
an unterminated string exist.

Main definitions:

- `Line.IsLast`, for the number of the last line of a source.

Main results:

- Theorem `Scan.shows_of_mem_steps`: the line of a step shows the first character of its
  piece.
- Theorem `stamps_lead_back`: the stamps of all tokens and errors of a source.
-/

namespace LoxScan

/-- Whether a line number is that of the last line of a source, which then exists. -/
structure Line.IsLast (source : String) (line : UInt32) : Prop where
  toNat_eq : line.toNat = 1 + source.toList.count '\n'
  isSome_sourceLine? : (sourceLine? source line).isSome

/-- The line that is reached at the end of a source is its last one. -/
theorem Line.isLast_advance {source : String}
    (hcount : source.toList.count '\n' < UInt32.size - 1) :
    IsLast source (advance 1 source.toList) := by
  have hline : (advance 1 source.toList).toNat = 1 + source.toList.count '\n' :=
    toNat_advance_one hcount
  refine ⟨hline, ?_⟩
  have hfound := nth?_of_toNat_eq [] hline
  rw [List.append_nil] at hfound
  simp [sourceLine?, hfound]

namespace Piece

/-- The first character of a token is no blank. -/
theorem IsToken.not_isBlank {p : Piece} {c : Char} (h : p.IsToken) (hp : p.WellFormed)
    (hc : c ∈ p.chars.head?) : ¬ isBlank c := by
  cases p with
  | symbol s => cases s <;> cases hc <;> decide
  | string body => cases hc; decide
  | number n =>
    intro hblank
    exact not_isDigit_of_isBlank hblank (Numeral.isDigit_of_mem_head?_chars hp hc)
  | blank b => exact h.elim
  | comment body => exact h.elim
  | unexpected u => exact h.elim
  | unterminated body => exact h.elim

end Piece

namespace Scan

/-- The line of a step shows the first character of the piece, unless it is a blank. -/
theorem shows_of_mem_steps {source : String} {s : Step} {c : Char}
    (hcount : source.toList.count '\n' < UInt32.size - 1) (hs : s ∈ steps source)
    (hc : c ∈ s.piece.chars.head?) (hblank : ¬ isBlank c) :
    Line.Shows source s.line s.offset c := by
  rcases exists_passed_of_mem_steps hs with ⟨passed, rest, hsource, hoffset, hline, _⟩
  rcases List.head?_eq_some_iff.mp hc with ⟨chars, hchars⟩
  rw [hchars, List.cons_append] at hsource
  rw [hoffset]
  apply Line.shows_of_append hsource
  · rintro rfl
    exact hblank (by decide)
  · rintro rfl
    exact hblank (by decide)
  · have hle : passed.count '\n' ≤ source.toList.count '\n' := by simp [hsource]
    rw [hline, Line.toNat_advance_one (by omega)]

/-- An unterminated string reaches to the end of the source. -/
theorem stop_eq_of_unterminated {source : String} {s : Step} {body : List Char}
    (hs : s ∈ steps source) (hpiece : s.piece = .unterminated body) :
    s.stop = Line.advance 1 source.toList := by
  rcases exists_passed_of_mem_steps hs with ⟨passed, rest, hsource, _, hline, _, hstop⟩
  rw [hpiece] at hstop
  have hempty : rest = [] := hstop
  subst hempty
  rw [Step.stop, hline, ← Line.advance_append, hsource, List.append_nil]

/-- A token is stamped with a line that shows its first character. -/
theorem shows_of_token? {source : String} {s : Step} {t : Token}
    (hcount : source.toList.count '\n' < UInt32.size - 1) (hs : s ∈ steps source)
    (ht : s.token? = some t) :
    ∃ c ∈ t.lexeme.toList.head?, Line.Shows source t.line s.offset c := by
  have hwell := wellFormed_of_mem_steps hs
  rcases Step.spec_of_token? hwell ht with ⟨htoken, hlexeme, hline⟩
  rcases List.exists_cons_of_ne_nil (Piece.chars_ne_nil hwell) with ⟨c, cs, hchars⟩
  have hc : c ∈ s.piece.chars.head? := by simp [hchars]
  refine ⟨c, by simpa [hlexeme] using hc, ?_⟩
  rw [hline]
  exact shows_of_mem_steps hcount hs hc (htoken.not_isBlank hwell hc)

/-- An unexpected character is stamped with a line that shows it, and an unterminated
string with the last line. -/
theorem shows_or_isLast_of_error? {source : String} {s : Step} {e : LexicalError}
    (hcount : source.toList.count '\n' < UInt32.size - 1) (hs : s ∈ steps source)
    (he : s.error? = some e) :
    (∃ c, e.cause = .unexpectedCharacter c ∧ Line.Shows source e.line s.offset c) ∨
      (e.cause = .unterminatedString ∧ Line.IsLast source e.line) := by
  have hwell := wellFormed_of_mem_steps hs
  rcases Step.spec_of_error? hwell he with ⟨c, hpiece, rfl⟩ | ⟨body, hpiece, rfl⟩
  · left
    have hc : c ∈ s.piece.chars.head? := by simp [hpiece, Piece.chars]
    have hunexpected : ¬ isExpected c := by rwa [hpiece] at hwell
    have hblank : ¬ isBlank c := fun hblank => hunexpected (isExpected_of_isBlank hblank)
    exact ⟨c, rfl, shows_of_mem_steps hcount hs hc hblank⟩
  · right
    refine ⟨rfl, ?_⟩
    rw [stop_eq_of_unterminated hs hpiece]
    exact Line.isLast_advance hcount

end Scan

/-- The stamps of a scan lead back to its source.  Tokens and errors come from the
steps, in order, and a token for the end comes last.  A token, also one of several
lines, has the line where its step begins, and so has an unexpected character; that
line is the one the newlines before the offset count, and it shows the first
character of the token, or the unexpected one, at its column.  An unterminated
string and the end have the last line of the source. -/
theorem stamps_lead_back (source : String) (hcount : source.toList.count '\n' < UInt32.size - 1) :
    (∃ last, Line.IsLast source last ∧ (tokenize source).tokens =
      (Scan.steps source).filterMap Scan.Step.token? ++ [Token.eof last]) ∧
    (tokenize source).errors = (Scan.steps source).filterMap Scan.Step.error? ∧
    ∀ s ∈ Scan.steps source,
      (∀ t, s.token? = some t →
        ∃ c ∈ t.lexeme.toList.head?, Line.Shows source t.line s.offset c) ∧
      ∀ e, s.error? = some e →
        (∃ c, e.cause = .unexpectedCharacter c ∧ Line.Shows source e.line s.offset c) ∨
        (e.cause = .unterminatedString ∧ Line.IsLast source e.line) := by
  refine ⟨⟨_, Line.isLast_advance hcount, tokens_tokenize source⟩, errors_tokenize source, ?_⟩
  intro s hs
  constructor
  · intro t ht
    exact Scan.shows_of_token? hcount hs ht
  · intro e he
    exact Scan.shows_or_isLast_of_error? hcount hs he

/-- A string of two lines, and an unexpected character on a line after it, where all
lines end in a carriage return and a newline. -/
theorem stamps_lead_back_over_lines :
    "+\r\n\"a\r\nb\"\r\n@\r\n".toList.count '\n' < UInt32.size - 1 ∧
      Line.Shows "+\r\n\"a\r\nb\"\r\n@\r\n" 2 3 '"' ∧
      Line.Shows "+\r\n\"a\r\nb\"\r\n@\r\n" 4 11 '@' := by
  have hcount : "+\r\n\"a\r\nb\"\r\n@\r\n".toList.count '\n' < UInt32.size - 1 := by decide
  rcases stamps_lead_back _ hcount with ⟨_, _, hsteps⟩
  have hstring := hsteps ⟨3, 2, .string ['a', '\r', '\n', 'b']⟩ (by decide +kernel)
  have hunexpected := hsteps ⟨11, 4, .unexpected '@'⟩ (by decide +kernel)
  refine ⟨hcount, ?_, ?_⟩
  · rcases hstring.1 _ rfl with ⟨c, hc, hshows⟩
    have hchar : '"' = c := Option.some.inj hc
    subst hchar
    exact hshows
  · rcases hunexpected.2 _ rfl with ⟨c, hcause, hshows⟩ | ⟨hcause, _⟩
    · have hchar : '@' = c := Cause.unexpectedCharacter.inj hcause
      subst hchar
      exact hshows
    · cases hcause

end LoxScan
