import LoxScan.Text.Escape

/-!
# LoxScan - Lexical errors

A lexical error is a cause and the line on which it was found.  The module fixes
every word that is shown of an error.

Main definitions:

- `LexicalError` and its `Cause`;
- `Cause.name`, `Cause.message` and `Cause.tip`, the texts of a cause;
- `LexicalError.text`, the error on one line.
-/

namespace LoxScan

/-- Why a text is not a sequence of tokens. -/
inductive Cause
  /-- A character that begins no token. -/
  | unexpectedCharacter (character : Char)
  /-- A string without a closing quote. -/
  | unterminatedString
  /-- A numeral that no number could be read from.  A scan would give this cause
  only for a numeral that spells no number, and there is none. -/
  | malformedNumber (token : String)
  deriving DecidableEq, Repr

namespace Cause

/-- The name of a cause. -/
def name : Cause → String
  | unexpectedCharacter _ => "UnexpectedCharacter"
  | unterminatedString => "UnterminatedString"
  | malformedNumber _ => "NumberParseError"

/-- What went wrong, on one line. -/
def message : Cause → String
  | unexpectedCharacter _ => "Unexpected character."
  | unterminatedString => "Unterminated string."
  | malformedNumber token => "error parsing number: " ++ String.ofList (Escape.quote token.toList)

/-- What may help.  The text of a numeral stands in it unchanged. -/
def tip : Cause → String
  | unexpectedCharacter c => "`" ++ String.ofList (Escape.ascii c) ++ "` does not start any token"
  | unterminatedString => "Add a closing `\"` to end the string"
  | malformedNumber token => "Invalid number: `" ++ token ++ "`"

end Cause

/-- An error in a source. -/
structure LexicalError where
  cause : Cause
  line : UInt32
  deriving DecidableEq, Repr

/-- An error on one line. -/
def LexicalError.text (e : LexicalError) : String :=
  "[line " ++ e.line.toNat.repr ++ "] Error: " ++ e.cause.message

end LoxScan
