import LoxScan.Text.Printable

/-!
# LoxScan - Escaped characters

Two ways of showing characters that may not be printable.  Both write a character
by its code point where it has no form of its own.

Main definitions:

- `Escape.ascii`, which keeps ASCII only, for a single character;
- `Escape.quote`, which puts a text between quotes and keeps what is printable.
-/

namespace LoxScan
namespace Escape

/-- A character by its code point, in hexadecimal digits without leading zeros. -/
def codePoint (c : Char) : List Char :=
  ['\\', 'u', '{'] ++ Nat.toDigits 16 c.toNat ++ ['}']

/-- A character shown in printable ASCII. -/
def ascii (c : Char) : List Char :=
  match c with
  | '\t' => ['\\', 't']
  | '\r' => ['\\', 'r']
  | '\n' => ['\\', 'n']
  | '\'' => ['\\', '\'']
  | '"' => ['\\', '"']
  | '\\' => ['\\', '\\']
  | c => if 0x20 ≤ c.toNat ∧ c.toNat ≤ 0x7E then [c] else codePoint c

/-- A character shown inside a quoted text. -/
def quoted (c : Char) : List Char :=
  match c with
  | '\x00' => ['\\', '0']
  | '\t' => ['\\', 't']
  | '\r' => ['\\', 'r']
  | '\n' => ['\\', 'n']
  | '"' => ['\\', '"']
  | '\\' => ['\\', '\\']
  | c => if isPrintable c then [c] else codePoint c

/-- A text between quotes, on one line. -/
def quote (cs : List Char) : List Char :=
  '"' :: cs.flatMap quoted ++ ['"']

end Escape
end LoxScan
