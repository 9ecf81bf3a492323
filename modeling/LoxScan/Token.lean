import LoxScan.Kind
import LoxScan.Number.Binary64

/-!
# LoxScan - Tokens

A token is a piece of source text with its kind, the value that it denotes, if
any, and the line on which it begins.

Main definitions:

- `Literal` and `Token`, which are compared with numbers taken by value;
- `Token.text`, the form in which tokens are listed.
-/

namespace LoxScan

/-- The value of a token. -/
inductive Literal
  | number (value : Binary64)
  | string (value : String)
  deriving BEq

namespace Literal

/-- Numbers from `0.0001` up to, and without, `10 ^ 16` are written positionally. -/
def numberLayout : Layout := ⟨-4, 15⟩

/-- The written form of a value; a string is written without quotes. -/
def text : Literal → String
  | number value => String.ofList (value.text numberLayout)
  | string value => value

end Literal

/-- A token of a source.  Lines count from one, and their numbers have 32 bits. -/
structure Token where
  kind : Kind
  /-- The source text of the token. -/
  lexeme : String
  /-- What the token denotes; only strings and numbers denote a value. -/
  literal : Option Literal
  /-- The line of the first character. -/
  line : UInt32
  deriving BEq

namespace Token

/-- The token that ends every token list. -/
def eof (line : UInt32) : Token :=
  ⟨.eof, "", none, line⟩

/-- Whether a token stands for the end of the source. -/
def isEof (t : Token) : Bool :=
  t.kind == .eof

/-- A token in listings: name, source text and value, with `null` for no value. -/
def text (t : Token) : String :=
  t.kind.name ++ " " ++ t.lexeme ++ " " ++ (t.literal.elim "null" Literal.text)

end Token

end LoxScan
