import LoxScan.LexicalError
import LoxScan.Text.WhiteSpace
import LoxScan.Text.Line

/-!
# LoxScan - Diagnostics

A diagnostic shows an error together with the line of the source on which it was
found, with a gutter for the number of the line:

    Error: UnexpectedCharacter (`@` does not start any token)
    -> script.lox
      |
    2 | var a = @;

Main definitions:

- `sourceLine?`, a line of a source;
- `LexicalError.diagnostic`, the text that shows an error.
-/

namespace LoxScan

/-- The text of a line of a source, without its line ending. -/
def sourceLine? (source : String) (line : UInt32) : Option String :=
  (Line.nth? source.toList line).map String.ofList

namespace LexicalError

/-- The line of the source that an error names, without white space at its end.
A line that the source does not have is shown empty. -/
def shownLine (e : LexicalError) (source : String) : String :=
  String.ofList (trimEnd ((Line.nth? source.toList e.line).getD []))

/-- The gutter before a line without a number: its bar stands below and above the
bar after the line number. -/
def gutter (e : LexicalError) : String :=
  String.ofList (List.replicate (e.line.toNat.repr.length + 1) ' ' ++ ['|'])

/-- An error with the line of the source of a file on which it was found. -/
def diagnostic (e : LexicalError) (source file : String) : String :=
  "Error: " ++ e.cause.name ++ " (" ++ e.cause.tip ++ ")\n" ++
  "-> " ++ file ++ "\n" ++
  e.gutter ++ "\n" ++
  e.line.toNat.repr ++ " | " ++ e.shownLine source

end LexicalError

end LoxScan
