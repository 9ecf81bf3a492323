import LoxScan.Command.Options
import LoxScan.Text.ControlSequence

/-!
# LoxScan - Usage errors

What can be wrong with the arguments of the command, and how it is told.  A report
names the error, gives a tip if there is one, and shows how the command is used;
that is narrowed to what has been given, where the error is about an option.

Main definitions:

- `UsageError`, the errors;
- `UsageError.report`, the text that answers wrong arguments.
-/

namespace LoxScan
namespace Command

/-- What is wrong with the arguments. -/
inductive UsageError
  /-- The name of an option that does not exist, after the options that have been
  read. -/
  | unknownOption (name : String) (given : Options)
  /-- A letter that is no option. -/
  | unknownLetter (letter : Char)
  /-- A second file. -/
  | extraArgument (argument : String)
  /-- The quiet flag for the second time. -/
  | repeatedQuiet
  /-- A value for a flag, after the options that have been read. -/
  | needlessValue (flag : Flag) (value : String) (given : Options)
  /-- A file without a name. -/
  | emptyScript
  deriving DecidableEq, Repr

namespace UsageError

/-! ## The error -/

/-- An argument, or a part of one, as it is shown in a report. -/
def shown (argument : String) : String :=
  "'" ++ ControlSequence.removed argument ++ "'"

/-- An option from its name. -/
def option (name : String) : String :=
  "--" ++ name

/-- An option from its letter. -/
def letterOption (letter : Char) : String :=
  String.ofList ['-', letter]

/-- What is said of an argument that has no meaning. -/
def unexpected (argument : String) : String :=
  "unexpected argument " ++ shown argument ++ " found"

/-- What is wrong. -/
def message : UsageError → String
  | unknownOption name _ => unexpected (option name)
  | unknownLetter letter => unexpected (letterOption letter)
  | extraArgument argument => unexpected argument
  | repeatedQuiet => "the argument " ++ shown Flag.quiet.long ++ " cannot be used multiple times"
  | needlessValue flag value _ =>
    "unexpected value " ++ shown value ++ " for " ++ shown flag.long ++
      " found; no more were expected"
  | emptyScript => "a value is required for '[SCRIPT]' but none was supplied"

/-! ## Tips -/

/-- The tip that tells how to pass an argument as the name of a file. -/
def passAsValue (argument : String) : String :=
  "to pass " ++ shown argument ++ " as a value, use " ++ shown ("-- " ++ argument)

/-- What may help.  A similar flag is named rather than the way to pass an argument
as the name of a file. -/
def tip? : UsageError → Option String
  | unknownOption name _ =>
    match Flag.similar? name with
    | some flag => some ("a similar argument exists: " ++ shown flag.long)
    | none => some (passAsValue (option name))
  | unknownLetter letter => some (passAsValue (letterOption letter))
  | _ => none

/-! ## Usage -/

/-- A way to use the command. -/
def synopsis (parts : List String) : String :=
  " ".intercalate ("Usage: ylox" :: parts)

/-- The usage with any options. -/
def anyUsage : String :=
  synopsis ["[OPTIONS]", "[SCRIPT]"]

/-- The usage with the options that have been given and a flag that was meant. -/
def givenUsage (given : Options) (meant : Option Flag) : String :=
  let flags := given.flags ++ meant.toList.filter (· ∉ given.flags)
  if flags = [] ∧ given.script = none then
    anyUsage
  else
    synopsis (flags.map Flag.long ++ [if given.script.isSome then "<SCRIPT>" else "[SCRIPT]"])

/-- The usage with a flag that was given a value.  Where a flag has been set before,
file and flags are shown as one group, and its members are not shown again. -/
def flagUsage (given : Options) (flag : Flag) : String :=
  if given.flags = [] then
    synopsis [flag.long, "[SCRIPT]"]
  else
    synopsis ((if flag = .quiet then [] else [flag.long]) ++ ["<SCRIPT|--quiet>"])

/-- How the command is used. -/
def usage? : UsageError → Option String
  | unknownOption name given => some (givenUsage given (Flag.similar? name))
  | needlessValue flag _ given => some (flagUsage given flag)
  | emptyScript => none
  | _ => some anyUsage

/-! ## Reports -/

/-- The parts of a report, with an empty line between them. -/
def report (e : UsageError) : String :=
  let tip := e.tip?.map ("  tip: " ++ ·)
  let parts := ["error: " ++ e.message] ++ tip.toList ++ e.usage?.toList ++
    ["For more information, try '--help'."]
  "\n\n".intercalate parts ++ "\n"

end UsageError

end Command
end LoxScan
