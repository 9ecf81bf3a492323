import LoxScan.Command.Arguments
import LoxScan.Command.Reading
import LoxScan.Diagnostic
import LoxScan.Scan
import LoxScan.Text.Backspace

/-!
# LoxScan - Running the command

The command scans a file, or the lines of the standard input one by one, and
lists tokens on the standard output and errors on the standard error stream.

Main definitions:

- `Outcome`, what a run leaves behind;
- `scanText`, the scan of one text with its output;
- `runScript` and `runPrompt`, the two ways to run;
- `run`, the command.
-/

namespace LoxScan
namespace Command

/-! ## Outcomes -/

/-- What is written on the two streams. -/
structure Output where
  stdout : String
  stderr : String
  deriving DecidableEq, Repr

namespace Output

/-- Nothing. -/
def empty : Output := ⟨"", ""⟩

/-- Output that is followed by more. -/
def append (a b : Output) : Output :=
  ⟨a.stdout ++ b.stdout, a.stderr ++ b.stderr⟩

instance : Append Output := ⟨append⟩

end Output

/-- How a run ends. -/
inductive Status
  | success
  /-- The arguments are wrong. -/
  | usage
  /-- The source has lexical errors. -/
  | badSource
  /-- No text could be read. -/
  | unreadable
  deriving DecidableEq, Repr

/-- The exit code of a run. -/
def Status.code : Status → UInt8
  | success => 0
  | usage => 2
  | badSource => 65
  | unreadable => 74

/-- What a run leaves behind. -/
structure Outcome where
  status : Status
  output : Output
  deriving DecidableEq, Repr

/-! ## Scanning one text -/

/-- A reporter that writes each error out when it is found. -/
structure ErrorWriter where
  written : String
  /-- Whether an error was found. -/
  failed : Bool

/-- Writes an error on one line, then the diagnostic, and then an empty line. -/
def ErrorWriter.report (source file : String) (w : ErrorWriter) (e : LexicalError) : ErrorWriter :=
  ⟨w.written ++ e.text ++ "\n" ++ e.diagnostic source file ++ "\n\n", true⟩

/-- The listing of tokens, one after the other, each followed by a newline. -/
def listing (tokens : List Token) : String :=
  tokens.foldl (fun written t => written ++ t.text ++ "\n") ""

/-- Scans the text of a file.  Gives what is written, and whether the text has no
lexical errors. -/
def scanText (source file : String) (quiet : Bool) : Output × Bool :=
  let (tokens, w) := Scan.reporting (ErrorWriter.report source file) ⟨"", false⟩ source
  (⟨if quiet then "" else listing tokens, w.written⟩, !w.failed)

/-! ## Scanning a file -/

/-- Scans a file with the given contents. -/
def runScript (path : String) (content : Except ReadFailure ByteArray) (quiet : Bool) : Outcome :=
  match content >>= decode with
  | .ok source =>
    let (output, clean) := scanText source path quiet
    ⟨if clean then .success else .badSource, output⟩
  | .error failure =>
    ⟨.unreadable, ⟨"", "Error: failed to read " ++ path ++ ": " ++ failure.reason ++ "\n"⟩⟩

/-! ## Scanning lines -/

/-- The name that is shown for the standard input. -/
def promptName : String := "<prompt>"

/-- What is written when a line could not be read. -/
def promptFailure (failure : ReadFailure) : String :=
  "Error: failed to read from the prompt: " ++ failure.reason ++ ": " ++ failure.reason ++ "\n"

/-- The text of a line that is typed. -/
def typedLine (line : List UInt8) : Except ReadFailure String :=
  (decode ⟨line.toArray⟩).map fun text => String.ofList (Backspace.applied text.toList)

/-- Scans lines one by one after some output.  Lexical errors do not end the run;
a line that is not text does. -/
def runLines (quiet : Bool) (written : Output) : List (List UInt8) → Outcome
  | [] => ⟨.success, written⟩
  | line :: lines =>
    match typedLine line with
    | .ok source => runLines quiet (written ++ (scanText source promptName quiet).1) lines
    | .error failure => ⟨.unreadable, written ++ ⟨"", promptFailure failure⟩⟩

/-- Scans the lines of the standard input. -/
def runPrompt (input : ByteArray) (quiet : Bool) : Outcome :=
  runLines quiet .empty (Line.delivered 10 13 input.data.toList)

/-! ## The command -/

/-- The text that explains the command. -/
def helpText : String :=
  "Lexical scanner for the ylox scripting language\n" ++
  "\n" ++
  "Usage: ylox [OPTIONS] [SCRIPT]\n" ++
  "\n" ++
  "Arguments:\n" ++
  "  [SCRIPT]  Script to scan; starts an interactive prompt when omitted\n" ++
  "\n" ++
  "Options:\n" ++
  "  -q, --quiet    Only report errors, do not print tokens\n" ++
  "  -h, --help     Print help\n" ++
  "  -V, --version  Print version\n"

/-- The text that tells the version of the command. -/
def versionText : String := "ylox 0.1.0\n"

/-- What is left behind when the arguments end a run. -/
def Stop.outcome : Stop → Outcome
  | help => ⟨.success, ⟨helpText, ""⟩⟩
  | version => ⟨.success, ⟨versionText, ""⟩⟩
  | usage e => ⟨.usage, ⟨"", e.report⟩⟩

/-- Runs the command with arguments, a way to read files, and the bytes of the
standard input. -/
def run (arguments : List String) (read : String → Except ReadFailure ByteArray)
    (input : ByteArray) : Outcome :=
  match Options.parse arguments with
  | .ok ⟨some path, quiet⟩ => runScript path (read path) quiet
  | .ok ⟨none, quiet⟩ => runPrompt input quiet
  | .error stop => stop.outcome

end Command
end LoxScan
