import LoxScan.Scan

/-!
# LoxScan - Scanning by byte offsets

A source is a sequence of bytes, in which a character takes one to four.  The scanner of
this module keeps a cursor of two byte offsets and two line numbers.  It looks at the
source only through slices of the bytes, and a slice that is out of order or cuts through
a character makes it fail.  It takes note of all that it does, so that every cursor and
every slice that it has ever had can be looked at afterwards.

Main definitions:

- `ByteScan.IsBoundary`, the offsets between characters;
- `ByteScan.Cursor`, `ByteScan.Note` and `ByteScan.State`;
- `ByteScan.Action`, what may fail and goes from state to state;
- `ByteScan.scanToken` and `ByteScan.scanTokens`, the scan of a token and of the source;
- `ByteScan.run`, the scan from its first state.
-/

namespace LoxScan
namespace ByteScan

/-! ## States -/

/-- Whether an offset lies between characters: it is the end of the bytes, or the first
byte of a character stands there. -/
def IsBoundary (bytes : ByteArray) (i : Nat) : Prop :=
  i = bytes.size ∨ ∃ h : i < bytes.size, bytes[i].IsUTF8FirstByte

instance (bytes : ByteArray) (i : Nat) : Decidable (IsBoundary bytes i) :=
  inferInstanceAs (Decidable (_ ∨ _))

/-- The second byte of a character is no boundary. -/
example : IsBoundary "é".toUTF8 2 ∧ ¬ IsBoundary "é".toUTF8 1 := by decide +kernel

/-- The characters that bytes stand for. -/
def characters (bytes : ByteArray) : List Char :=
  (bytes.utf8Decode?.getD #[]).toList

/-- What a scan is begun with. -/
structure Setting where
  source : String
  /-- Whether the scan fails when the line number overflows; otherwise the number starts
  again from zero. -/
  checked : Bool

namespace Setting

/-- The bytes of the source. -/
def bytes (env : Setting) : ByteArray :=
  env.source.toUTF8

/-- How often a loop may run at most: as often as the source has characters. -/
def limit (env : Setting) : Nat :=
  env.source.toList.length

end Setting

/-- Why a scan fails. -/
inductive Failure
  /-- A slice is out of order, out of range or cuts through a character. -/
  | badSlice
  | lineOverflow
  /-- A loop would run more often than it may. -/
  | unfinished
  deriving DecidableEq, Repr

/-- Where the current token began, and how far the scan has come. -/
structure Cursor where
  start : Nat
  current : Nat
  line : UInt32
  startLine : UInt32

/-- What a scan takes note of. -/
inductive Note
  /-- The cursor was placed. -/
  | cursor (k : Cursor)
  /-- A slice between two offsets was cut, or was about to be. -/
  | slice (i j : Nat)
  /-- The line number was about to overflow. -/
  | overflow
  /-- A round of the scan went from an offset to another one. -/
  | round (i j : Nat)

/-- A state of a scan, with all its notes, the latest one first. -/
structure State where
  cursor : Cursor
  tokens : Array Token
  errors : Array LexicalError
  notes : List Note

/-- What goes from state to state, and comes to a result or fails. -/
abbrev Action (α : Type) := ExceptT Failure (StateM State) α

/-- How an action ends in a state, and the state that it leaves behind. -/
def exec {α : Type} (m : Action α) (s : State) : Except Failure α × State :=
  m.run.run s

/-! ## Looking at the source and moving on -/

/-- Takes a note. -/
def note (n : Note) : Action Unit :=
  modify fun s => { s with notes := n :: s.notes }

/-- Where the cursor is. -/
def here : Action Cursor :=
  return (← get).cursor

/-- Puts the cursor somewhere.  Nothing else moves it. -/
def place (k : Cursor) : Action Unit := do
  modify fun s => { s with cursor := k }
  note (.cursor k)

variable (env : Setting)

/-- The characters of the slice between two offsets.  Nothing else looks at the bytes. -/
def slice (i j : Nat) : Action (List Char) := do
  note (.slice i j)
  if i ≤ j ∧ IsBoundary env.bytes i ∧ IsBoundary env.bytes j then
    return characters (env.bytes.extract i j)
  else
    throw .badSlice

/-- The next character, if there is one. -/
def peek : Action (Option Char) := do
  let k ← here
  return (← slice env k.current env.bytes.size).head?

/-- The character after the next one, if there is one. -/
def peekNext : Action (Option Char) := do
  let k ← here
  return (← slice env k.current env.bytes.size)[1]?

/-- Whether the scan has come to the end of the source. -/
def atEnd : Action Bool := do
  let k ← here
  return env.bytes.size ≤ k.current

/-- Moves on by the bytes of a character. -/
def pass (c : Char) : Action Unit := do
  let k ← here
  place { k with current := k.current + c.utf8Size }

/-- Takes the next character, if there is one. -/
def advance : Action (Option Char) := do
  match ← peek env with
  | some c =>
    pass c
    return some c
  | none => return none

/-- Takes the next character if it is the expected one, and says whether it was. -/
def accept (expected : Char) : Action Bool := do
  if (← peek env) = some expected then
    pass expected
    return true
  else
    return false

/-- Goes on to the next line. -/
def newline : Action Unit := do
  let k ← here
  if k.line.toNat + 1 = UInt32.size then
    note .overflow
    if env.checked then throw .lineOverflow
  place { k with line := k.line + 1 }

/-- Repeats an action as long as another one comes to a value for it, a number of times at
most. -/
def loop {β : Type} (next : Action (Option β)) (body : β → Action Unit) : Nat → Action Unit
  | 0 => do
    match ← next with
    | some _ => throw .unfinished
    | none => return ()
  | n + 1 => do
    match ← next with
    | some b =>
      body b
      loop next body n
    | none => return ()

/-- Passes characters of a class. -/
def skipWhile (p : Char → Bool) : Action Unit :=
  loop (return (← peek env).filter p) (fun _ => do let _ ← advance env) env.limit

/-! ## Tokens -/

/-- The text between the start and the current offset. -/
def lexeme : Action String := do
  let k ← here
  return String.ofList (← slice env k.start k.current)

/-- Hands on a token that ends at the cursor. -/
def push (kind : Kind) (literal : Option Literal) : Action Unit := do
  let k ← here
  let text ← lexeme env
  modify fun s => { s with tokens := s.tokens.push ⟨kind, text, literal, k.startLine⟩ }

/-- Passes a character of a string, the next one, and goes on to the next line with a
newline. -/
def passQuoted (c : Char) : Action Unit := do
  if c = '\n' then newline env
  let _ ← advance env

/-- Scans a string after its first quote. -/
def string : Action (Option LexicalError) := do
  loop (return (← peek env).filter (· ≠ '"')) (passQuoted env) env.limit
  if ← atEnd env then
    return some ⟨.unterminatedString, (← here).line⟩
  else
    let _ ← advance env
    let k ← here
    let value ← slice env (k.start + 1) (k.current - 1)
    push env .string (some (.string (String.ofList value)))
    return none

/-- Passes a point and the digits after it, if a digit follows the point. -/
def skipFraction : Action Unit := do
  if (← peek env) = some '.' then
    if (← peekNext env).any Char.isDigit then
      let _ ← advance env
      skipWhile env Char.isDigit

/-- Scans a number after its first digit. -/
def number : Action (Option LexicalError) := do
  skipWhile env Char.isDigit
  skipFraction env
  let text ← lexeme env
  match Numeral.read? text.toList with
  | some value =>
    push env .number (some (.number value))
    return none
  | none => return some ⟨.malformedNumber text, (← here).startLine⟩

/-- Scans what begins with a character that was just taken, and comes to an error if it is
one. -/
def scanAfter (c : Char) : Action (Option LexicalError) :=
  match Symbol.single? c with
  | some s => do
    push env (.symbol s) none
    return none
  | none =>
  match Symbol.equalPair? c with
  | some (alone, withEqual) => do
    push env (.symbol (if ← accept env '=' then withEqual else alone)) none
    return none
  | none =>
  if c = '/' then do
    if ← accept env '/' then
      skipWhile env (· ≠ '\n')
    else
      push env (.symbol .slash) none
    return none
  else if c = ' ' ∨ c = '\r' ∨ c = '\t' then
    return none
  else if c = '\n' then do
    newline env
    return none
  else if c = '"' then
    string env
  else if c.isDigit then
    number env
  else do
    return some ⟨.unexpectedCharacter c, (← here).line⟩

/-- Scans one piece of the source, and comes to an error if it is one. -/
def scanToken : Action (Option LexicalError) := do
  match ← advance env with
  | some c => scanAfter env c
  | none => return none

/-! ## The whole source -/

/-- Reports an error, if there is one. -/
def report : Option LexicalError → Action Unit
  | some e => modify fun s => { s with errors := s.errors.push e }
  | none => return ()

/-- Begins a piece where the cursor is. -/
def begin : Action Unit := do
  let k ← here
  place { k with start := k.current, startLine := k.line }

/-- A round of the scan: it begins where the last one has ended. -/
def round : Action Unit := do
  let k ← here
  begin
  let e ← scanToken env
  report e
  note (.round k.current (← here).current)

/-- Scans the source to its end, and hands on a token for the end. -/
def scanTokens : Action Unit := do
  loop (return if ← atEnd env then none else some ()) (fun _ => round env) env.limit
  let k ← here
  modify fun s => { s with tokens := s.tokens.push (Token.eof k.line) }

/-- The cursor before a scan. -/
def Cursor.initial : Cursor :=
  ⟨0, 0, 1, 1⟩

/-- The state before a scan. -/
def State.initial : State :=
  ⟨.initial, #[], #[], [.cursor .initial]⟩

/-- How a scan ends, and the state that it leaves behind. -/
def run : Except Failure Unit × State :=
  exec (scanTokens env) .initial

end ByteScan
end LoxScan
