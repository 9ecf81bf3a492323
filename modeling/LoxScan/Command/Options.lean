import LoxScan.Text.Similarity

/-!
# LoxScan - Flags and options

What the command can be asked for.

Main definitions:

- `Flag`, the flags with their names, and `Flag.similar?`, the flag that a
  mistyped name may stand for;
- `Options`, what the arguments ask for.
-/

namespace LoxScan
namespace Command

/-- The flags of the command.  None of them takes a value. -/
inductive Flag
  | quiet
  | help
  | version
  deriving DecidableEq, Repr

namespace Flag

/-- All flags. -/
def all : List Flag := [quiet, help, version]

/-- The name of a flag. -/
def name : Flag → String
  | quiet => "quiet"
  | help => "help"
  | version => "version"

/-- A flag in full. -/
def long (flag : Flag) : String :=
  "--" ++ flag.name

/-- The letter of a flag. -/
def short : Flag → Char
  | quiet => 'q'
  | help => 'h'
  | version => 'V'

/-- The similarity from which on a name may be a mistyped one. -/
def leastSimilarity : Float := 0.7

/-- Keeps the better one of a flag with its similarity and another flag; the other
one, if both are equally good. -/
def better (name : List Char) (best : Option (Flag × Float)) (flag : Flag) :
    Option (Flag × Float) :=
  let score := Similarity.score name flag.name.toList
  if leastSimilarity < score ∧ best.all (·.2 ≤ score) then some (flag, score) else best

/-- The flag that a mistyped name may stand for, which is the most similar one. -/
def similar? (name : String) : Option Flag :=
  (all.foldl (better name.toList) none).map (·.1)

end Flag

/-- What the arguments ask for. -/
structure Options where
  /-- The file to scan; the standard input is scanned line by line if none is
  given. -/
  script : Option String := none
  /-- Whether tokens are left out of the output. -/
  quiet : Bool := false
  deriving DecidableEq, Repr

/-- The flags that are set. -/
def Options.flags (o : Options) : List Flag :=
  if o.quiet then [.quiet] else []

end Command
end LoxScan
