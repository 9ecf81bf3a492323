import LoxScan.LexicalError
import LoxScan.Piece
import LoxScan.Text.Line

/-!
# LoxScan - Scanning

A scan passes over the pieces of a source, keeps count of the lines, and hands
on what it finds: tokens and errors, as events in the order of the source.
Errors never end a scan.

Main definitions:

- `Event` and `Piece.event?`, what a piece gives rise to;
- `Scan.run`, which feeds the events of a text to a listener;
- `Scan.reporting`, the tokens of a source, with its errors sent to a reporter;
- `tokenize`, the tokens and the errors of a source.

Main results:

- `Scan.run_eq_foldl`: a listener hears the events of the text in order, and
  nothing else.
-/

namespace LoxScan

/-- What a scan finds. -/
inductive Event
  | token (t : Token)
  | error (e : LexicalError)

/-- What a piece gives rise to that begins on the line `start` and ends on the
line `stop`.  Tokens carry the line where they begin.  An unterminated string is
an error on the last line of the source. -/
def Piece.event? (start stop : UInt32) : Piece → Option Event
  | blank _ => none
  | comment _ => none
  | symbol s => some (.token ⟨.symbol s, String.ofList s.chars, none, start⟩)
  | string body =>
    some (.token ⟨.string, String.ofList (string body).chars, some (.string (String.ofList body)),
      start⟩)
  | number n =>
    match Numeral.read? n.chars with
    | some value =>
      some (.token ⟨.number, String.ofList n.chars, some (.number value), start⟩)
    | none => some (.error ⟨.malformedNumber (String.ofList n.chars), start⟩)
  | unexpected c => some (.error ⟨.unexpectedCharacter c, start⟩)
  | unterminated _ => some (.error ⟨.unterminatedString, stop⟩)

namespace Scan

variable {σ : Type}

/-! ## Listening to a scan -/

/-- Feeds the events of a text that begins on `line` to a listener.  The result
is the line on which the text ends, and the last state of the listener. -/
def run (hear : σ → Event → σ) (line : UInt32) (state : σ) : List Char → UInt32 × σ
  | [] => (line, state)
  | c :: cs =>
    let piece := (Piece.first c cs).1
    let stop := Line.advance line piece.chars
    run hear stop ((piece.event? line stop).elim state (hear state)) (Piece.first c cs).2
termination_by cs => cs.length
decreasing_by exact Piece.length_first_lt c cs

/-- The events of pieces, the first of which begins on `line`. -/
def events (line : UInt32) : List Piece → List Event
  | [] => []
  | p :: ps =>
    let stop := Line.advance line p.chars
    (p.event? line stop).toList ++ events stop ps

/-- A listener hears the events of the text in order, and nothing else. -/
theorem run_eq_foldl (hear : σ → Event → σ) (line : UInt32) (state : σ) (cs : List Char) :
    run hear line state cs =
      (Line.advance line cs, (events line (Piece.ofText cs)).foldl hear state) := by
  fun_induction run hear line state cs with
  | case1 line state => simp [Line.advance, events]
  | case2 line state c cs piece stop ih =>
    rw [ih, Piece.ofText_cons, events, List.foldl_append]
    have hline : Line.advance stop (Piece.first c cs).2 = Line.advance line (c :: cs) := by
      rw [← Piece.chars_append_first c cs, Line.advance_append]
    rw [hline]
    cases piece.event? line stop <;> rfl

/-! ## Tokens and errors -/

/-- Collects tokens, and sends errors to a reporter. -/
def collect (report : σ → LexicalError → σ) :
    Array Token × σ → Event → Array Token × σ
  | (tokens, state), .token t => (tokens.push t, state)
  | (tokens, state), .error e => (tokens, report state e)

/-- The tokens of a source, the last of which stands for its end, and the state
of a reporter that was sent the errors in order while the scan went on. -/
def reporting (report : σ → LexicalError → σ) (state : σ) (source : String) :
    List Token × σ :=
  let (line, tokens, state) := run (collect report) 1 (#[], state) source.toList
  ((tokens.push (Token.eof line)).toList, state)

end Scan

/-- The tokens and the errors of a source. -/
structure Tokenized where
  tokens : List Token
  errors : List LexicalError

/-- The tokens of a source, and the errors that were found on the way. -/
def tokenize (source : String) : Tokenized :=
  let (tokens, errors) := Scan.reporting Array.push #[] source
  ⟨tokens, errors.toList⟩

end LoxScan
