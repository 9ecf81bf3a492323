/-!
# LoxScan - Reading input

Input is bytes, and is taken for text in UTF-8.  The module names the ways in which
that fails.

Main definitions:

- `ReadFailure` and its text, `ReadFailure.reason`;
- `decode`, the text that bytes encode.
-/

namespace LoxScan
namespace Command

/-- Why no text could be read. -/
inductive ReadFailure
  /-- The operating system refused, with its own words and its own number. -/
  | system (description : String) (number : Nat)
  /-- The bytes are not UTF-8. -/
  | notText
  deriving DecidableEq, Repr

namespace ReadFailure

/-- There is nothing at the path. -/
def notFound : ReadFailure := system "No such file or directory" 2

/-- The path goes on after a file. -/
def notDirectory : ReadFailure := system "Not a directory" 20

/-- The path leads to a directory. -/
def isDirectory : ReadFailure := system "Is a directory" 21

/-- The path, or a name in it, is too long. -/
def nameTooLong : ReadFailure := system "File name too long" 36

/-- The text of a failure. -/
def reason : ReadFailure → String
  | system description number => description ++ " (os error " ++ number.repr ++ ")"
  | notText => "stream did not contain valid UTF-8"

end ReadFailure

/-- The text that bytes encode in UTF-8. -/
def decode (bytes : ByteArray) : Except ReadFailure String :=
  match String.fromUTF8? bytes with
  | some text => .ok text
  | none => .error .notText

end Command
end LoxScan
