import LoxScan.Command.Run

/-!
# LoxScan - The command

The outermost layer: it reads the file or the standard input, runs the command
and writes what it leaves behind.
-/

namespace LoxScan
namespace Command

/-- A failure by its number, which may come negated, and its description. -/
def systemFailure (number : UInt32) (description : String) : ReadFailure :=
  match (if number < 0x80000000 then number else 0 - number).toNat with
  | 2 => .notFound
  | 20 => .notDirectory
  | 21 => .isDirectory
  | 36 => .nameTooLong
  | number => .system description.capitalize number

/-- Why a file could not be read. -/
def failureOfError : IO.Error → ReadFailure
  | .noFileOrDirectory _ number description => systemFailure number description
  | .inappropriateType _ number description => systemFailure number description
  | .permissionDenied _ number description => systemFailure number description
  | .invalidArgument _ number description => systemFailure number description
  | .resourceExhausted _ number description => systemFailure number description
  | .noSuchThing _ number description => systemFailure number description
  | .hardwareFault number description => systemFailure number description
  | .otherError number description => systemFailure number description
  | e => .system e.toString 5

/-- The contents of a file. -/
def readContent (path : String) : IO (Except ReadFailure ByteArray) := do
  try
    return .ok (← IO.FS.readBinFile path)
  catch e =>
    return .error (failureOfError e)

end Command
end LoxScan

open LoxScan.Command

/-- Runs the command on the file that is given, or else on the standard input; only
the one that is asked for is read. -/
def main (arguments : List String) : IO UInt32 := do
  let (content, input) ← match Options.parse arguments with
    | .ok ⟨some path, _⟩ => do pure (← readContent path, ByteArray.empty)
    | .ok ⟨none, _⟩ => do pure (.error .notFound, ← (← IO.getStdin).readBinToEnd)
    | .error _ => pure (.error .notFound, ByteArray.empty)
  let outcome := run arguments (fun _ => content) input
  (← IO.getStdout).putStr outcome.output.stdout
  (← IO.getStderr).putStr outcome.output.stderr
  return outcome.status.code.toUInt32
