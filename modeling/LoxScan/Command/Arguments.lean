import LoxScan.Command.UsageError
import LoxScan.Text.Split

/-!
# LoxScan - Command line arguments

The arguments of the command are read from left to right.  The first one that
ends the reading decides: a request for help, a request for the version, or an
error.

Main definitions:

- `Stop`, why the reading ends early;
- `Options.parse`, the options that the arguments ask for.
-/

namespace LoxScan
namespace Command

/-- Why the reading of arguments ends early. -/
inductive Stop
  | help
  | version
  | usage (e : UsageError)
  deriving DecidableEq, Repr

namespace Options

/-- Sets a flag.  It is here that a file without a name is noticed which was given
before the flag. -/
def set (o : Options) (flag : Flag) : Except Stop Options :=
  if o.script = some "" then
    .error (.usage .emptyScript)
  else
    match flag with
    | .help => .error .help
    | .version => .error .version
    | .quiet =>
      if o.quiet then .error (.usage .repeatedQuiet) else .ok { o with quiet := true }

/-- Takes an argument that is no option. -/
def positional (o : Options) (argument : String) : Except Stop Options :=
  match o.script with
  | none => .ok { o with script := some argument }
  | some _ => .error (.usage (.extraArgument argument))

/-- Takes an option in full after its hyphens: its name, and a value if there is an
equals sign. -/
def long (o : Options) (argument : List Char) : Except Stop Options :=
  let name := String.ofList (before '=' argument)
  match Flag.all.find? (·.name = name) with
  | none => .error (.usage (.unknownOption name o))
  | some flag =>
    if '=' ∈ argument then
      .error (.usage (.needlessValue flag (String.ofList (after '=' argument)) o))
    else
      o.set flag

/-- Takes a letter of an argument of joined letters. -/
def short (o : Options) (letter : Char) : Except Stop Options :=
  match Flag.all.find? (·.short = letter) with
  | none => .error (.usage (.unknownLetter letter))
  | some flag => o.set flag

/-- Takes an argument.  A hyphen alone is the name of a file. -/
def take (o : Options) (argument : String) : Except Stop Options :=
  match argument.toList with
  | '-' :: '-' :: option => o.long option
  | '-' :: letter :: letters => (letter :: letters).foldlM short o
  | _ => o.positional argument

/-- Takes arguments one after the other.  After `--` none of them is an option. -/
def takeAll (o : Options) : List String → Except Stop Options
  | [] => .ok o
  | argument :: rest =>
    if argument = "--" then
      rest.foldlM positional o
    else
      match o.take argument with
      | .ok o => o.takeAll rest
      | .error stop => .error stop

/-- Reads all arguments. -/
def parse (arguments : List String) : Except Stop Options :=
  match takeAll {} arguments with
  | .ok o => if o.script = some "" then .error (.usage .emptyScript) else .ok o
  | .error stop => .error stop

end Options

end Command
end LoxScan
