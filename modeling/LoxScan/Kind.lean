/-!
# LoxScan - Kinds of tokens

Most tokens are symbols: they are always written the same way.  The module lists
them, and says which symbols a character begins.

Main definitions:

- `Symbol` with its characters and its name;
- `Symbol.single?` and `Symbol.equalPair?`, the symbols that begin with a
  character;
- `Kind`, the kinds of tokens.
-/

namespace LoxScan

/-- A token that is always written the same way. -/
inductive Symbol
  | leftParen | rightParen | leftBrace | rightBrace
  | comma | dot | minus | plus | semicolon | slash | star
  | bang | bangEqual | equal | equalEqual
  | greater | greaterEqual | less | lessEqual
  deriving DecidableEq, Repr

namespace Symbol

/-- How a symbol is written. -/
def chars : Symbol → List Char
  | leftParen => ['(']
  | rightParen => [')']
  | leftBrace => ['{']
  | rightBrace => ['}']
  | comma => [',']
  | dot => ['.']
  | minus => ['-']
  | plus => ['+']
  | semicolon => [';']
  | slash => ['/']
  | star => ['*']
  | bang => ['!']
  | bangEqual => ['!', '=']
  | equal => ['=']
  | equalEqual => ['=', '=']
  | greater => ['>']
  | greaterEqual => ['>', '=']
  | less => ['<']
  | lessEqual => ['<', '=']

/-- The name of a symbol in token listings. -/
def name : Symbol → String
  | leftParen => "LEFT_PAREN"
  | rightParen => "RIGHT_PAREN"
  | leftBrace => "LEFT_BRACE"
  | rightBrace => "RIGHT_BRACE"
  | comma => "COMMA"
  | dot => "DOT"
  | minus => "MINUS"
  | plus => "PLUS"
  | semicolon => "SEMICOLON"
  | slash => "SLASH"
  | star => "STAR"
  | bang => "BANG"
  | bangEqual => "BANG_EQUAL"
  | equal => "EQUAL"
  | equalEqual => "EQUAL_EQUAL"
  | greater => "GREATER"
  | greaterEqual => "GREATER_EQUAL"
  | less => "LESS"
  | lessEqual => "LESS_EQUAL"

/-- The symbol that a character is, whatever follows it. -/
def single? : Char → Option Symbol
  | '(' => some leftParen
  | ')' => some rightParen
  | '{' => some leftBrace
  | '}' => some rightBrace
  | ',' => some comma
  | '.' => some dot
  | '-' => some minus
  | '+' => some plus
  | ';' => some semicolon
  | '*' => some star
  | _ => none

/-- The symbols that begin with a character to which `=` may be added: the one
for the character alone, and the one with `=`. -/
def equalPair? : Char → Option (Symbol × Symbol)
  | '!' => some (bang, bangEqual)
  | '=' => some (equal, equalEqual)
  | '<' => some (less, lessEqual)
  | '>' => some (greater, greaterEqual)
  | _ => none

/-- A single symbol is written as its character. -/
theorem chars_of_single? {c : Char} {s : Symbol} (h : single? c = some s) :
    s.chars = [c] := by
  unfold single? at h
  split at h <;> simp_all [chars] <;> subst h <;> rfl

/-- The symbols of a pair are written as the character, and as it and `=`. -/
theorem chars_of_equalPair? {c : Char} {alone withEqual : Symbol}
    (h : equalPair? c = some (alone, withEqual)) :
    alone.chars = [c] ∧ withEqual.chars = [c, '='] := by
  unfold equalPair? at h
  split at h <;> simp_all [chars] <;> obtain ⟨rfl, rfl⟩ := h <;> exact ⟨rfl, rfl⟩

end Symbol

/-- The kinds of tokens. -/
inductive Kind
  | symbol (s : Symbol)
  | string
  | number
  /-- The end of the text. -/
  | eof
  deriving DecidableEq, Repr

/-- The name of a kind in token listings. -/
def Kind.name : Kind → String
  | symbol s => s.name
  | string => "STRING"
  | number => "NUMBER"
  | eof => "EOF"

end LoxScan
