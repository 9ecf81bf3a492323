import LoxScan.Token
import LoxScan.Number.Numeral
import LoxScan.Text.Split

/-!
# LoxScan - Pieces of a source

A source falls apart into pieces: blanks, comments, tokens, and the stretches of
text that are no token.  The piece at the front of a text is found by looking at
its first character and at no more than two characters after its end.

Main definitions:

- `Piece` and its characters, `Piece.chars`;
- `Piece.first`, the piece at the front of a text;
- `Piece.ofText`, all pieces of a text in order.

Main results:

- `Piece.chars_append_first`: a piece and the rest make up the text.
- `Piece.flatMap_chars_ofText`: the pieces of a text make up the text.
-/

namespace LoxScan

/-- Blanks between tokens: space, carriage return, tab and newline. -/
def isBlank (c : Char) : Bool :=
  c = ' ' || c = '\r' || c = '\t' || c = '\n'

/-- The blanks, one by one. -/
theorem isBlank_iff {c : Char} : isBlank c ↔ c = ' ' ∨ c = '\r' ∨ c = '\t' ∨ c = '\n' := by
  simp [isBlank, or_assoc]

/-- A stretch of source text. -/
inductive Piece
  | blank (c : Char)
  /-- Two slashes, and the text up to the end of the line. -/
  | comment (body : List Char)
  | symbol (s : Symbol)
  /-- A string between quotes. -/
  | string (body : List Char)
  | number (n : Numeral)
  /-- A character that begins no other piece. -/
  | unexpected (c : Char)
  /-- A quote without a second one, and all the text after it. -/
  | unterminated (body : List Char)
  deriving DecidableEq, Repr

namespace Piece

/-- The source text of a piece. -/
def chars : Piece → List Char
  | blank c => [c]
  | comment body => '/' :: '/' :: body
  | symbol s => s.chars
  | string body => '"' :: (body ++ ['"'])
  | number n => n.chars
  | unexpected c => [c]
  | unterminated body => '"' :: body

@[simp]
theorem chars_blank (c : Char) : (blank c).chars = [c] :=
  rfl

/-- The piece at the front of the text `c :: cs`, and the text after it. -/
def first (c : Char) (cs : List Char) : Piece × List Char :=
  match Symbol.single? c with
  | some s => (symbol s, cs)
  | none =>
  match Symbol.equalPair? c with
  | some (alone, withEqual) =>
    match cs with
    | '=' :: rest => (symbol withEqual, rest)
    | _ => (symbol alone, cs)
  | none =>
  if c = '/' then
    match cs with
    | '/' :: rest => (comment (rest.takeWhile (· ≠ '\n')), rest.dropWhile (· ≠ '\n'))
    | _ => (symbol .slash, cs)
  else if isBlank c then
    (blank c, cs)
  else if c = '"' then
    if '"' ∈ cs then
      (string (before '"' cs), after '"' cs)
    else
      (unterminated cs, [])
  else if c.isDigit then
    let (n, rest) := Numeral.take (c :: cs)
    (number n, rest)
  else
    (unexpected c, cs)

/-- A piece and the text after it make up the text it was taken from. -/
theorem chars_append_first (c : Char) (cs : List Char) :
    (first c cs).1.chars ++ (first c cs).2 = c :: cs := by
  unfold first
  split
  · rename_i s hs
    simp [chars, Symbol.chars_of_single? hs]
  split
  · rename_i alone withEqual hpair
    obtain ⟨halone, hwith⟩ := Symbol.chars_of_equalPair? hpair
    split <;> simp [chars, halone, hwith]
  split
  · rename_i hslash
    subst hslash
    split <;> simp [chars, Symbol.chars, List.takeWhile_append_dropWhile]
  split
  · simp [chars]
  split
  · rename_i hquote
    subst hquote
    split
    · rename_i hmem
      simpa [chars] using before_append_cons_after hmem
    · simp [chars]
  split
  · exact Numeral.chars_append_take (c :: cs)
  · simp [chars]

/-- A piece at the front of a text has at least one character. -/
theorem chars_first_ne_nil (c : Char) (cs : List Char) : (first c cs).1.chars ≠ [] := by
  intro h
  unfold first at h
  split at h
  · rename_i s hs
    simp [chars, Symbol.chars_of_single? hs] at h
  split at h
  · rename_i alone withEqual hpair
    obtain ⟨halone, hwith⟩ := Symbol.chars_of_equalPair? hpair
    split at h <;> simp [chars, halone, hwith] at h
  split at h
  · split at h <;> simp [chars, Symbol.chars] at h
  split at h
  · simp [chars] at h
  split at h
  · split at h <;> simp [chars] at h
  split at h
  · rename_i hdigit
    simp [chars, Numeral.chars, Numeral.take, hdigit] at h
  · simp [chars] at h

/-- What follows a piece is shorter than the text it was taken from. -/
theorem length_first_lt (c : Char) (cs : List Char) :
    (first c cs).2.length < (c :: cs).length := by
  have happend := congrArg List.length (chars_append_first c cs)
  have hpos := List.length_pos_iff.mpr (chars_first_ne_nil c cs)
  simp only [List.length_append] at happend
  omega

/-! ## All pieces of a text -/

/-- The pieces of a text in order. -/
def ofText : List Char → List Piece
  | [] => []
  | c :: cs => (first c cs).1 :: ofText (first c cs).2
termination_by cs => cs.length
decreasing_by exact length_first_lt c cs

@[simp]
theorem ofText_nil : ofText [] = [] := by
  rw [ofText]

theorem ofText_cons (c : Char) (cs : List Char) :
    ofText (c :: cs) = (first c cs).1 :: ofText (first c cs).2 := by
  rw [ofText]

/-- The pieces of a text make up the text. -/
theorem flatMap_chars_ofText (cs : List Char) : (ofText cs).flatMap chars = cs := by
  fun_induction ofText cs with
  | case1 => rfl
  | case2 c cs ih => simp [ih, chars_append_first]

end Piece
end LoxScan
