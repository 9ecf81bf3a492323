import LoxScan.Scan

/-!
# LoxScan - Sessions

In a session several sources are scanned one after the other, and all errors are
gathered in one list.  Errors from elsewhere may be reported in between.

Main definitions:

- `Session.Step`, a scan or a report;
- `Session.run`, the tokens of each step and the errors so far.
-/

namespace LoxScan
namespace Session

/-- A step of a session. -/
inductive Step
  | scan (source : String)
  | report (e : LexicalError)

/-- What is known after a step. -/
structure Snapshot where
  /-- The tokens of the source, if the step was a scan. -/
  tokens : Option (List Token)
  /-- All errors of the session so far. -/
  errors : List LexicalError

/-- Takes a step with the errors gathered so far; gives the tokens, if any, and
the errors that are gathered then. -/
def step (errors : Array LexicalError) : Step → Option (List Token) × Array LexicalError
  | .scan source =>
    let (tokens, errors) := Scan.reporting Array.push errors source
    (some tokens, errors)
  | .report e => (none, errors.push e)

/-- The snapshots after each of the steps of a session that has gathered some
errors before. -/
def runFrom (errors : Array LexicalError) : List Step → List Snapshot
  | [] => []
  | s :: steps =>
    let (tokens, errors) := step errors s
    ⟨tokens, errors.toList⟩ :: runFrom errors steps

/-- The snapshots after each of the steps of a session. -/
def run (steps : List Step) : List Snapshot :=
  runFrom #[] steps

end Session
end LoxScan
