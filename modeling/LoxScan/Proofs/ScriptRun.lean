import LoxScan.Command.Run
import LoxScan.Proofs.Steps

/-!
# LoxScan - Running the command on a file

While the command scans a file, it writes each error when it is found, and only notes that
there was one; the tokens are listed at the end.  Exit code and output are nevertheless
those that the tokens and the errors of the text call for.

Main definitions:

- `LexicalError.shown`, all that is written of an error.

Main results:

- Theorem `Command.scanText_eq`: the output of the scan of a text, by its tokens and
  errors.
- Theorem `Command.parse_script`: every name but the empty one can be given.
- Theorem `Command.run_script`: exit code and output of a run on a file.
-/

namespace LoxScan

/-- All that is written of an error: the error on one line, the diagnostic, and an empty
line. -/
def LexicalError.shown (source file : String) (e : LexicalError) : String :=
  e.text ++ "\n" ++ e.diagnostic source file ++ "\n\n"

namespace Command

/-! ## The output of a scan -/

/-- A listing that is begun goes on with the tokens, each followed by a newline. -/
theorem foldl_listing (written : String) (tokens : List Token) :
    tokens.foldl (fun written t => written ++ t.text ++ "\n") written =
      written ++ String.join (tokens.map fun t => t.text ++ "\n") := by
  induction tokens generalizing written with
  | nil => simp
  | cons t tokens ih =>
    rw [List.foldl_cons, ih, List.map_cons, String.join_cons]
    simp only [String.append_assoc]

/-- A listing is made of the tokens, each followed by a newline. -/
theorem listing_eq_join (tokens : List Token) :
    listing tokens = String.join (tokens.map fun t => t.text ++ "\n") := by
  rw [listing, foldl_listing, String.empty_append]

/-- A reporter has written all errors in order, and has failed if there was one. -/
theorem foldl_report (source file : String) (w : ErrorWriter) (errors : List LexicalError) :
    errors.foldl (ErrorWriter.report source file) w =
      ⟨w.written ++ String.join (errors.map (LexicalError.shown source file)),
        w.failed || !errors.isEmpty⟩ := by
  induction errors generalizing w with
  | nil => simp
  | cons e errors ih =>
    rw [List.foldl_cons, ih, List.map_cons, String.join_cons]
    simp [ErrorWriter.report, LexicalError.shown, String.append_assoc]

/-- The scan of a text lists its tokens, writes its errors, and tells whether there are
none. -/
theorem scanText_eq (source file : String) (quiet : Bool) :
    scanText source file quiet =
      (⟨if quiet then "" else listing (tokenize source).tokens,
        String.join ((tokenize source).errors.map (LexicalError.shown source file))⟩,
        (tokenize source).errors.isEmpty) := by
  rw [scanText, Scan.reporting_eq, ← tokens_tokenize, ← errors_tokenize, foldl_report]
  simp

/-! ## Runs on a file -/

/-- Bytes that encode a text are decoded to it. -/
theorem decode_toUTF8 (text : String) : decode text.toUTF8 = .ok text := by
  have htext : String.fromUTF8? text.toUTF8 = some text := dif_pos text.isValidUTF8
  rw [decode, htext]

/-- The outcome of a run on a file that holds a text. -/
theorem runScript_toUTF8 (path source : String) (quiet : Bool) :
    runScript path (.ok source.toUTF8) quiet =
      ⟨if (tokenize source).errors.isEmpty then .success else .badSource,
        (scanText source path quiet).1⟩ := by
  have hdecode : (Except.ok source.toUTF8 >>= decode) = .ok source := decode_toUTF8 source
  rw [runScript, hdecode]
  simp [scanText_eq]

/-- The exit code of a scan that has found some errors. -/
theorem code_of_isEmpty (errors : List LexicalError) :
    ((if errors.isEmpty then Status.success else .badSource).code = 0 ↔ errors = []) ∧
      ((if errors.isEmpty then Status.success else .badSource).code = 65 ↔ errors ≠ []) := by
  cases errors with
  | nil => simp [Status.code]
  | cons e errors => simp [Status.code]

/-- Every name but the empty one can be given as that of a file, with the flag or without
it, even if it looks like an option. -/
theorem parse_script {path : String} (h : path ≠ "") (quiet : Bool) :
    Options.parse ((if quiet then ["--quiet"] else []) ++ ["--", path]) =
      .ok ⟨some path, quiet⟩ := by
  have hscript : ∀ o : Options, o.script = none →
      o.takeAll ["--", path] = .ok { o with script := some path } := by
    intro o ho
    simp [Options.takeAll, Options.positional, ho]
  have hquiet : Options.take {} "--quiet" = .ok { quiet := true } := by decide +kernel
  have hnames : ({} : Options).takeAll ((if quiet then ["--quiet"] else []) ++ ["--", path]) =
      .ok ⟨some path, quiet⟩ := by
    cases quiet with
    | false => exact hscript {} rfl
    | true =>
      rw [if_pos rfl, List.singleton_append, Options.takeAll, if_neg (by decide), hquiet]
      exact hscript { quiet := true } rfl
  simp [Options.parse, hnames, h]

/-- A run on a file that holds a text.  It ends with the code 0 exactly if the text has no
errors, and else with 65.  All tokens of the text are listed in order, whether it has
errors or not, unless the run is to be quiet; and each error is written in order, on one
line and with its diagnostic, and nothing else is.  Whether the run is to be quiet has no
effect on the code and on what is written of errors. -/
theorem run_script {arguments : List String} {path source : String} {quiet : Bool}
    {read : String → Except ReadFailure ByteArray} (input : ByteArray)
    (harguments : Options.parse arguments = .ok ⟨some path, quiet⟩)
    (hread : read path = .ok source.toUTF8) :
    ((run arguments read input).status.code = 0 ↔ (tokenize source).errors = []) ∧
      ((run arguments read input).status.code = 65 ↔ (tokenize source).errors ≠ []) ∧
      (run arguments read input).output.stdout =
        (if quiet then "" else
          String.join ((tokenize source).tokens.map fun t => t.text ++ "\n")) ∧
      (run arguments read input).output.stderr =
        String.join ((tokenize source).errors.map fun e =>
          e.text ++ "\n" ++ e.diagnostic source path ++ "\n\n") ∧
      ∀ (arguments' : List String) (quiet' : Bool),
        Options.parse arguments' = .ok ⟨some path, quiet'⟩ →
          (run arguments' read input).status.code = (run arguments read input).status.code ∧
          (run arguments' read input).output.stderr =
            (run arguments read input).output.stderr := by
  have hrun : ∀ {arguments : List String} {quiet : Bool},
      Options.parse arguments = .ok ⟨some path, quiet⟩ →
        run arguments read input =
          ⟨if (tokenize source).errors.isEmpty then .success else .badSource,
            (scanText source path quiet).1⟩ := by
    intro arguments quiet harguments
    rw [run, harguments, ← runScript_toUTF8, ← hread]
  refine ⟨?_, ?_, ?_, ?_, ?_⟩
  · rw [hrun harguments, (code_of_isEmpty _).1]
  · rw [hrun harguments, (code_of_isEmpty _).2]
  · rw [hrun harguments, scanText_eq, listing_eq_join]
  · rw [hrun harguments, scanText_eq]
    rfl
  · intro arguments' quiet' harguments'
    rw [hrun harguments, hrun harguments', scanText_eq, scanText_eq]
    exact ⟨rfl, rfl⟩

/-- A file with a name like that of an option, and a text with an unexpected character and
an open string. -/
theorem run_script_two_errors :
    Options.parse ["--", "-q"] = .ok ⟨some "-q", false⟩ ∧
      (run ["--", "-q"] (fun _ => .ok "1 @\n\"x".toUTF8) .empty).status.code = 65 ∧
      (run ["--", "-q"] (fun _ => .ok "1 @\n\"x".toUTF8) .empty).output.stdout =
        "NUMBER 1 1.0\nEOF  null\n" ∧
      (run ["--", "-q"] (fun _ => .ok "1 @\n\"x".toUTF8) .empty).output.stderr =
        "[line 1] Error: Unexpected character.\n" ++
        "Error: UnexpectedCharacter (`@` does not start any token)\n-> -q\n  |\n1 | 1 @\n\n" ++
        "[line 2] Error: Unterminated string.\n" ++
        "Error: UnterminatedString (Add a closing `\"` to end the string)\n" ++
        "-> -q\n  |\n2 | \"x\n\n" := by
  have hparse : Options.parse ["--", "-q"] = .ok ⟨some "-q", false⟩ :=
    parse_script (by decide) false
  rcases @run_script _ _ _ _ (fun _ => .ok "1 @\n\"x".toUTF8) .empty hparse rfl with
    ⟨_, hcode, hstdout, hstderr, _⟩
  refine ⟨hparse, hcode.mpr (by decide +kernel), ?_, ?_⟩
  · rw [hstdout]
    decide +kernel
  · rw [hstderr]
    decide +kernel

end Command
end LoxScan
