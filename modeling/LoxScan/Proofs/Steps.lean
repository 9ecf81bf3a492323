import Mathlib.Tactic.Common
import LoxScan.Scan
import LoxScan.Proofs.Boundary

/-!
# LoxScan - The steps of a scan

A scan takes one piece of its source at each step.  A step is the piece with the
offset and the line where it begins.  All that a scan hands on is read off its
steps, in their order.

Main definitions:

- `Scan.Step` and `Scan.steps`, the steps of the scan of a source;
- `Scan.Step.token?` and `Scan.Step.error?`, what a step hands on;
- `Tokenized.proper`, the tokens without the one for the end;
- `Token.content` and `Piece.content?`, a token apart from its line.

Main results:

- Theorems `tokens_tokenize` and `errors_tokenize`: the tokens and the errors of a
  source, by the steps of its scan.
- Theorems `contents_tokenize` and `causes_tokenize`: what they are apart from their
  lines, by the pieces of the source.
- Theorem `Scan.exists_passed_of_mem_steps`: a step takes the first piece of what
  the steps before it have left.
-/

namespace LoxScan

/-! ## Events by kind -/

namespace Event

/-- The token of an event. -/
def token? : Event → Option Token
  | token t => some t
  | error _ => none

/-- The error of an event. -/
def error? : Event → Option LexicalError
  | token _ => none
  | error e => some e

end Event

/-- Kind, text and value of a token, which do not depend on where it stands. -/
def Token.content (t : Token) : Kind × String × Option Literal :=
  (t.kind, t.lexeme, t.literal)

/-- Tokens agree apart from their lines exactly if kind, text and value agree. -/
theorem Token.content_eq_iff {t u : Token} : t.content = u.content ↔
    t.kind = u.kind ∧ t.lexeme = u.lexeme ∧ t.literal = u.literal := by
  simp [content]

namespace Piece

/-- The cause of the error that a piece is, if it is one. -/
def cause? : Piece → Option Cause
  | unexpected c => some (.unexpectedCharacter c)
  | unterminated _ => some .unterminatedString
  | _ => none

/-- The content of the token that a piece is, if it is one. -/
def content? : Piece → Option (Kind × String × Option Literal)
  | symbol s => some (.symbol s, String.ofList s.chars, none)
  | string body =>
    some (.string, String.ofList (string body).chars, some (.string (String.ofList body)))
  | number n => some (.number, String.ofList n.chars, some (.number n.value))
  | _ => none

/-- A piece with the content of a token is a token with the text of it. -/
theorem spec_of_content? {p : Piece} {t : Token} (h : p.content? = some t.content) :
    p.IsToken ∧ t.lexeme.toList = p.chars := by
  cases p with
  | symbol s =>
    obtain ⟨_, hlexeme, _⟩ : _ ∧ String.ofList s.chars = t.lexeme ∧ _ := by
      simpa [content?, Token.content] using h
    exact ⟨trivial, by simp [← hlexeme, chars]⟩
  | string body =>
    obtain ⟨_, hlexeme, _⟩ : _ ∧ String.ofList (string body).chars = t.lexeme ∧ _ := by
      simpa [content?, Token.content] using h
    exact ⟨trivial, by simp [← hlexeme]⟩
  | number n =>
    obtain ⟨_, hlexeme, _⟩ : _ ∧ String.ofList n.chars = t.lexeme ∧ _ := by
      simpa [content?, Token.content] using h
    exact ⟨trivial, by simp [← hlexeme, chars]⟩
  | _ => cases h

/-- A token is no error. -/
theorem IsToken.cause?_eq_none {p : Piece} (h : p.IsToken) : p.cause? = none := by
  cases p with
  | symbol s => rfl
  | string body => rfl
  | number n => rfl
  | blank c => exact h.elim
  | comment body => exact h.elim
  | unexpected c => exact h.elim
  | unterminated body => exact h.elim

/-- A numeral always gives a token, as a number can be read from it. -/
theorem event?_number {n : Numeral} (h : n.WellFormed) (start stop : UInt32) :
    (number n).event? start stop =
      some (.token ⟨.number, String.ofList n.chars, some (.number n.value), start⟩) := by
  simp [event?, Numeral.read?_chars h]

end Piece

namespace Scan

/-! ## Steps -/

/-- A step of a scan: a piece, and the offset and the line where it begins.  Offsets
count characters. -/
structure Step where
  offset : Nat
  line : UInt32
  piece : Piece
  deriving DecidableEq

namespace Step

/-- The line that is reached with a step. -/
def stop (s : Step) : UInt32 :=
  Line.advance s.line s.piece.chars

/-- What a step gives rise to. -/
def event? (s : Step) : Option Event :=
  s.piece.event? s.line s.stop

/-- The token that a step hands on. -/
def token? (s : Step) : Option Token :=
  s.event?.bind Event.token?

/-- The error that a step hands on. -/
def error? (s : Step) : Option LexicalError :=
  s.event?.bind Event.error?

/-- A numeral hands on a token with the number it denotes. -/
theorem token?_number {n : Numeral} (h : n.WellFormed) (offset : Nat) (line : UInt32) :
    token? ⟨offset, line, .number n⟩ =
      some ⟨.number, String.ofList n.chars, some (.number n.value), line⟩ := by
  simp [token?, event?, Piece.event?_number h, Event.token?]

/-- A numeral hands on no error. -/
theorem error?_number {n : Numeral} (h : n.WellFormed) (offset : Nat) (line : UInt32) :
    error? ⟨offset, line, .number n⟩ = none := by
  simp [error?, event?, Piece.event?_number h, Event.error?]

end Step

/-- The steps that take pieces, the first of which begins at an offset on a line. -/
def stepsFrom (offset : Nat) (line : UInt32) : List Piece → List Step
  | [] => []
  | p :: ps =>
    ⟨offset, line, p⟩ ::
      stepsFrom (offset + p.chars.length) (Line.advance line p.chars) ps

/-- The steps of the scan of a source. -/
def steps (source : String) : List Step :=
  stepsFrom 0 1 (Piece.ofText source.toList)

/-- The steps take the pieces one by one. -/
@[simp]
theorem map_piece_stepsFrom (offset : Nat) (line : UInt32) (ps : List Piece) :
    (stepsFrom offset line ps).map Step.piece = ps := by
  induction ps generalizing offset line with
  | nil => rfl
  | cons p ps ih => simp [stepsFrom, ih]

/-- A step takes its piece where those before it have ended. -/
theorem exists_append_of_mem_stepsFrom {offset : Nat} {line : UInt32} {ps : List Piece} {s : Step}
    (h : s ∈ stepsFrom offset line ps) :
    ∃ taken left, ps = taken ++ s.piece :: left ∧
      s.offset = offset + (taken.flatMap Piece.chars).length ∧
      s.line = Line.advance line (taken.flatMap Piece.chars) := by
  induction ps generalizing offset line with
  | nil => simp [stepsFrom] at h
  | cons p ps ih =>
    rcases List.mem_cons.mp h with rfl | htail
    · exact ⟨[], ps, by simp [Line.advance]⟩
    · rcases ih htail with ⟨taken, left, hps, hoffset, hline⟩
      refine ⟨p :: taken, left, by simp [hps], ?_, ?_⟩
      · simp [hoffset, Nat.add_assoc]
      · rw [hline, List.flatMap_cons, Line.advance_append]

/-- Steps begin at the offset from which the pieces are counted, or later. -/
theorem le_offset_of_mem_stepsFrom {offset : Nat} {line : UInt32} {ps : List Piece} {s : Step}
    (h : s ∈ stepsFrom offset line ps) : offset ≤ s.offset := by
  rcases exists_append_of_mem_stepsFrom h with ⟨_, _, _, hoffset, _⟩
  omega

/-- A step takes the first piece of what the steps before it have left. -/
theorem exists_passed_of_mem_steps {source : String} {s : Step} (h : s ∈ steps source) :
    ∃ passed rest, source.toList = passed ++ (s.piece.chars ++ rest) ∧
      s.offset = passed.length ∧ s.line = Line.advance 1 passed ∧
      s.piece.WellFormed ∧ s.piece.StopsAt rest := by
  rcases exists_append_of_mem_stepsFrom h with ⟨taken, left, hps, hoffset, hline⟩
  have hfit := Piece.fit_ofText source.toList
  rw [hps] at hfit
  rcases (Piece.fit_append_iff.mp hfit).2 with ⟨hwell, hstop, _⟩
  refine ⟨taken.flatMap Piece.chars, left.flatMap Piece.chars, ?_, by simpa using hoffset, hline,
    hwell, hstop⟩
  have hsource := Piece.flatMap_chars_ofText source.toList
  rw [hps] at hsource
  simpa using hsource.symm

/-! ## What a scan hands on -/

/-- The steps of a scan take the pieces of the source. -/
theorem map_piece_steps (source : String) :
    (steps source).map Step.piece = Piece.ofText source.toList :=
  map_piece_stepsFrom 0 1 _

/-- The pieces that steps take are well formed. -/
theorem wellFormed_of_mem_steps {source : String} {s : Step} (h : s ∈ steps source) :
    s.piece.WellFormed := by
  rcases exists_passed_of_mem_steps h with ⟨_, _, _, _, _, hwell, _⟩
  exact hwell

/-- A step that hands on a token takes one, and the token has the text of the piece and
the line of the step. -/
theorem Step.spec_of_token? {s : Step} {t : Token} (hs : s.piece.WellFormed)
    (h : s.token? = some t) :
    s.piece.IsToken ∧ t.lexeme = String.ofList s.piece.chars ∧ t.line = s.line := by
  rcases s with ⟨offset, line, p⟩
  cases p with
  | symbol s =>
    obtain rfl := Option.some.inj h
    exact ⟨trivial, rfl, rfl⟩
  | string body =>
    obtain rfl := Option.some.inj h
    exact ⟨trivial, rfl, rfl⟩
  | number n =>
    rw [token?_number hs] at h
    obtain rfl := Option.some.inj h
    exact ⟨trivial, rfl, rfl⟩
  | blank c => cases h
  | comment body => cases h
  | unexpected c => cases h
  | unterminated body => cases h

/-- A step that hands on an error takes an unexpected character, or the rest of the
source. -/
theorem Step.spec_of_error? {s : Step} {e : LexicalError} (hs : s.piece.WellFormed)
    (h : s.error? = some e) :
    (∃ c, s.piece = .unexpected c ∧ e = ⟨.unexpectedCharacter c, s.line⟩) ∨
      ∃ body, s.piece = .unterminated body ∧ e = ⟨.unterminatedString, s.stop⟩ := by
  rcases s with ⟨offset, line, p⟩
  cases p with
  | unexpected c => exact .inl ⟨c, rfl, (Option.some.inj h).symm⟩
  | unterminated body => exact .inr ⟨body, rfl, (Option.some.inj h).symm⟩
  | number n =>
    rw [error?_number hs] at h
    cases h
  | blank c => cases h
  | comment body => cases h
  | symbol s => cases h
  | string body => cases h

/-- The error of a step has the cause of its piece. -/
theorem Step.map_cause_error? {s : Step} (h : s.piece.WellFormed) :
    s.error?.map LexicalError.cause = s.piece.cause? := by
  rcases s with ⟨offset, line, p⟩
  cases p with
  | number n =>
    rw [error?_number h]
    rfl
  | _ => rfl

/-- The token of a step has the content of its piece. -/
theorem Step.map_content_token? {s : Step} (h : s.piece.WellFormed) :
    s.token?.map Token.content = s.piece.content? := by
  rcases s with ⟨offset, line, p⟩
  cases p with
  | number n =>
    rw [token?_number h]
    rfl
  | _ => rfl

/-- The token of a step does not stand for the end. -/
theorem Step.not_isEof_of_token? {s : Step} {t : Token} (hs : s.piece.WellFormed)
    (h : s.token? = some t) : ¬ t.isEof := by
  have hcontent : s.piece.content? = some t.content := by
    rw [← map_content_token? hs, h, Option.map_some]
  have hkind : t.kind ≠ .eof := by
    rcases s with ⟨offset, line, p⟩
    cases p <;> simp [Piece.content?, Token.content] at hcontent <;> simp [← hcontent.1]
  simpa [Token.isEof] using hkind

/-- The steps that take pieces and then others. -/
theorem stepsFrom_append (offset : Nat) (line : UInt32) (ps qs : List Piece) :
    stepsFrom offset line (ps ++ qs) =
      stepsFrom offset line ps ++ stepsFrom (offset + (ps.flatMap Piece.chars).length)
        (Line.advance line (ps.flatMap Piece.chars)) qs := by
  induction ps generalizing offset line with
  | nil => simp [stepsFrom, Line.advance]
  | cons p ps ih => simp [stepsFrom, ih, Line.advance_append, Nat.add_assoc]

/-- The events of pieces, by the steps that take them. -/
theorem events_eq_filterMap (offset : Nat) (line : UInt32) (ps : List Piece) :
    events line ps = (stepsFrom offset line ps).filterMap Step.event? := by
  induction ps generalizing offset line with
  | nil => rfl
  | cons p ps ih =>
    rw [events, stepsFrom, List.filterMap_cons, ← ih]
    simp only [Step.event?, Step.stop]
    cases p.event? line (Line.advance line p.chars) <;> rfl

variable {σ : Type}

/-- Collecting keeps the tokens, and reports the errors in order. -/
theorem foldl_collect (report : σ → LexicalError → σ) (tokens : Array Token) (state : σ)
    (es : List Event) :
    es.foldl (collect report) (tokens, state) =
      (tokens ++ (es.filterMap Event.token?).toArray,
        (es.filterMap Event.error?).foldl report state) := by
  induction es generalizing tokens state with
  | nil => simp
  | cons e es ih =>
    cases e with
    | token t => simp [collect, ih, List.filterMap_cons, Event.token?, Event.error?]
    | error e => simp [collect, ih, List.filterMap_cons, Event.token?, Event.error?]

/-- What a reporter is sent, and the tokens beside it, by the steps of the scan. -/
theorem reporting_eq (report : σ → LexicalError → σ) (state : σ) (source : String) :
    reporting report state source =
      ((steps source).filterMap Step.token? ++ [Token.eof (Line.advance 1 source.toList)],
        ((steps source).filterMap Step.error?).foldl report state) := by
  have htokens : ((steps source).filterMap Step.event?).filterMap Event.token? =
      (steps source).filterMap Step.token? :=
    List.filterMap_filterMap
  have herrors : ((steps source).filterMap Step.event?).filterMap Event.error? =
      (steps source).filterMap Step.error? :=
    List.filterMap_filterMap
  have hevents : events 1 (Piece.ofText source.toList) = (steps source).filterMap Step.event? :=
    events_eq_filterMap 0 1 _
  simp [reporting, run_eq_foldl, foldl_collect, hevents, htokens, herrors]

end Scan

/-- The tokens of a source are those of the steps, and one for the end. -/
theorem tokens_tokenize (source : String) :
    (tokenize source).tokens = (Scan.steps source).filterMap Scan.Step.token? ++
      [Token.eof (Line.advance 1 source.toList)] := by
  simp [tokenize, Scan.reporting_eq]

/-- The errors of a source are those of the steps. -/
theorem errors_tokenize (source : String) :
    (tokenize source).errors = (Scan.steps source).filterMap Scan.Step.error? := by
  simp [tokenize, Scan.reporting_eq]

/-- The tokens before the one for the end. -/
def Tokenized.proper (r : Tokenized) : List Token :=
  r.tokens.filter (!·.isEof)

/-- The tokens before the one for the end are those of the steps. -/
theorem proper_tokenize (source : String) :
    (tokenize source).proper = (Scan.steps source).filterMap Scan.Step.token? := by
  rw [Tokenized.proper, tokens_tokenize, List.filter_append, List.filter_eq_self.mpr]
  · exact List.append_nil _
  · intro t ht
    rcases List.mem_filterMap.mp ht with ⟨s, hs, htoken⟩
    simpa using Scan.Step.not_isEof_of_token? (Scan.wellFormed_of_mem_steps hs) htoken

/-- One token for the end follows the other tokens of a source. -/
theorem tokens_eq_proper_append (source : String) :
    (tokenize source).tokens =
      (tokenize source).proper ++ [Token.eof (Line.advance 1 source.toList)] := by
  rw [proper_tokenize, tokens_tokenize]

/-- The contents of the tokens of a source are those of its pieces. -/
theorem contents_tokenize (source : String) :
    (tokenize source).proper.map Token.content =
      (Piece.ofText source.toList).filterMap Piece.content? := by
  rw [proper_tokenize, ← Scan.map_piece_steps, List.map_filterMap, List.filterMap_map]
  apply List.filterMap_congr
  intro s hs
  exact Scan.Step.map_content_token? (Scan.wellFormed_of_mem_steps hs)

/-- The causes of the errors of a source are those of its pieces. -/
theorem causes_tokenize (source : String) :
    (tokenize source).errors.map LexicalError.cause =
      (Piece.ofText source.toList).filterMap Piece.cause? := by
  rw [errors_tokenize, ← Scan.map_piece_steps, List.map_filterMap, List.filterMap_map]
  apply List.filterMap_congr
  intro s hs
  exact Scan.Step.map_cause_error? (Scan.wellFormed_of_mem_steps hs)

end LoxScan
