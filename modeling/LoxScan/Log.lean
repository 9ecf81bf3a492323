import LoxScan.Scan

/-!
# LoxScan - The log of a scan

A scan is logged as it goes: an entry for each token and for each error, and a
summary at the end.

Main definitions:

- `Log.Entry` and `Log.Level`;
- `Log.ofSource`, the log of the scan of a source.
-/

namespace LoxScan
namespace Log

/-- How much detail an entry gives. -/
inductive Level
  | trace
  | debug
  deriving DecidableEq, Repr

/-- The name of a level. -/
def Level.name : Level → String
  | trace => "TRACE"
  | debug => "DEBUG"

/-- An entry of a log. -/
inductive Entry
  | event (e : Event)
  /-- How many tokens, with the one for the end, and how many errors were found,
  and the last line. -/
  | finished (tokens errors : Nat) (lines : UInt32)

namespace Entry

/-- Tokens are logged in more detail than errors and the summary. -/
def level : Entry → Level
  | event (.token _) => .trace
  | event (.error _) => .debug
  | finished .. => .debug

/-- The text of an entry. -/
def message : Entry → String
  | event (.token t) => t.text
  | event (.error e) => e.cause.name
  | finished .. => "scan finished"

/-- The named values of an entry beside its text. -/
def fields : Entry → List (String × String)
  | event (.token t) => [("line", t.line.toNat.repr)]
  | event (.error e) => [("line", e.line.toNat.repr)]
  | finished tokens errors lines =>
    [("tokens", tokens.repr), ("errors", errors.repr), ("lines", lines.toNat.repr)]

end Entry

/-- What a listener has logged: the entries so far, and how many of them are
tokens and errors. -/
structure Progress where
  entries : Array Entry
  tokens : Nat
  errors : Nat

/-- Logs an event. -/
def Progress.hear (p : Progress) (e : Event) : Progress :=
  match e with
  | .token _ => { p with entries := p.entries.push (.event e), tokens := p.tokens + 1 }
  | .error _ => { p with entries := p.entries.push (.event e), errors := p.errors + 1 }

/-- The log of the scan of a source. -/
def ofSource (source : String) : List Entry :=
  let (line, p) := Scan.run Progress.hear 1 ⟨#[], 0, 0⟩ source.toList
  (p.entries.push (.finished (p.tokens + 1) p.errors line)).toList

end Log
end LoxScan
