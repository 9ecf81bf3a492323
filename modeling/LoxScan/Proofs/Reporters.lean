import LoxScan.Proofs.Steps
import LoxScan.Session

/-!
# LoxScan - Reporters

A scan sends its errors to a reporter while it goes on.  What the reporter makes of them
has no effect on the scan: it is sent the errors of the source, one by one and in order,
and the tokens are those of the source.  Scans that share a list of errors therefore add
to it what each of them would find alone.

Main definitions:

- `Session.Step.tokens?` and `Session.Step.errors`, what a step of a session finds alone.

Main results:

- Theorem `Scan.reporting_eq_foldl`: what any reporter is sent, and the tokens beside it.
- Theorem `Session.step_eq`: a step adds what it finds alone to the errors before it.
- Theorem `Session.getElem?_runFrom`: what is known after each step of a session.
- Theorem `Session.scans_apart`: the steps of a session, and any reporter of a scan.
-/

namespace LoxScan

/-- A reporter is sent the errors of the source in order, and the tokens beside it are
those of the source. -/
theorem Scan.reporting_eq_foldl {σ : Type} (report : σ → LexicalError → σ) (state : σ)
    (source : String) :
    reporting report state source =
      ((tokenize source).tokens, (tokenize source).errors.foldl report state) := by
  rw [reporting_eq, tokens_tokenize, errors_tokenize]

namespace Session

/-! ## Steps -/

namespace Step

/-- The tokens that a step finds, if it is a scan, when nothing has been scanned before. -/
def tokens? : Step → Option (List Token)
  | scan source => some (tokenize source).tokens
  | report _ => none

/-- The errors that a step finds when nothing has been reported before. -/
def errors : Step → List LexicalError
  | scan source => (tokenize source).errors
  | report e => [e]

end Step

/-- A step finds what it finds alone, and its errors come after those gathered before. -/
theorem step_eq (errors : Array LexicalError) (s : Step) :
    step errors s = (s.tokens?, errors ++ s.errors.toArray) := by
  cases s with
  | scan source => simp [step, Scan.reporting_eq_foldl, Step.tokens?, Step.errors]
  | report e => simp [step, Step.tokens?, Step.errors]

/-! ## Sessions -/

/-- After each step of a session that has gathered some errors before, the errors of the
steps so far have been added to them in order. -/
theorem getElem?_runFrom (errors : Array LexicalError) (steps : List Step) (i : Nat) :
    (runFrom errors steps)[i]? = steps[i]?.map fun s =>
      ⟨s.tokens?, errors.toList ++ (steps.take (i + 1)).flatMap Step.errors⟩ := by
  induction steps generalizing errors i with
  | nil => rfl
  | cons s steps ih =>
    rw [runFrom, step_eq]
    cases i with
    | zero => simp
    | succ i => simp [ih]

/-- Whatever a reporter does, it is sent exactly the errors of the source in order, and the
scan finds exactly the tokens of the source.  After each step of a session the list of errors
is made of those that each scan so far finds alone and of those that were reported, in the
order of the steps, and each scan has the tokens that it finds alone. -/
theorem scans_apart :
    (∀ {σ : Type} (report : σ → LexicalError → σ) (state : σ) (source : String),
      Scan.reporting report state source =
        ((tokenize source).tokens, (tokenize source).errors.foldl report state)) ∧
      ∀ (steps : List Step) (i : Nat),
        (run steps)[i]? = steps[i]?.map fun s =>
          ⟨s.tokens?, (steps.take (i + 1)).flatMap Step.errors⟩ := by
  constructor
  · intro σ report state source
    exact Scan.reporting_eq_foldl report state source
  · intro steps i
    rw [run, getElem?_runFrom]
    rfl

/-- An open string of the first source does not reach into the second one, and the lines of
the second one are counted from one. -/
example : ((run [.scan "1\n\"x", .report ⟨.malformedNumber "1x", 7⟩, .scan "@"])[2]?.map
    fun s => (s.tokens.map (List.map Token.line), s.errors)) =
      some (some [1], [⟨.unterminatedString, 2⟩, ⟨.malformedNumber "1x", 7⟩,
        ⟨.unexpectedCharacter '@', 1⟩]) := by
  decide +kernel

end Session
end LoxScan
