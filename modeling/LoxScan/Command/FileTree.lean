import LoxScan.Command.Reading

/-!
# LoxScan - File trees

The files below a working directory, held in memory, and how a path is followed in
them.  What lies outside the directory is taken to be empty.

Main definitions:

- `FileTree`, the files with their contents, and the directories;
- `FileTree.read`, the contents of the file at a path, or why there is none.
-/

namespace LoxScan
namespace Command

/-- The names that lead to a place below the working directory. -/
abbrev Place := List String

/-- The place that a name leads to.  Two dots lead back. -/
def Place.step (place : Place) (name : String) : Place :=
  if name = "" ∨ name = "." then place
  else if name = ".." then place.dropLast
  else place ++ [name]

/-- The files and directories below a directory, with the contents of the files. -/
structure FileTree where
  files : List (Place × ByteArray)
  directories : List Place

namespace FileTree

/-! ## Building a tree -/

/-- The names in a path. -/
def names (path : String) : List String :=
  path.splitOn "/"

/-- The directories that a path leads through from a place. -/
def directoriesOn (place : Place) : List String → List Place
  | [] => []
  | name :: rest => place :: directoriesOn (place.step name) rest

/-- A tree from the paths of files. -/
def ofPaths (files : List (String × ByteArray)) : FileTree where
  files := files.map fun (path, content) => ((names path).foldl Place.step [], content)
  directories := files.flatMap fun (path, _) => directoriesOn [] (names path)

/-- The contents of the file at a place. -/
def file? (t : FileTree) (place : Place) : Option ByteArray :=
  (t.files.find? (·.1 = place)).map (·.2)

/-- Whether there is a directory at a place. -/
def isDirectory (t : FileTree) (place : Place) : Bool :=
  place.isEmpty || place ∈ t.directories

/-! ## Following a path -/

/-- The number of bytes that a name may have. -/
def maxNameBytes : Nat := 255

/-- The number of bytes that a path may have. -/
def maxPathBytes : Nat := 4095

/-- Follows the rest of a path that has left the tree. -/
def followOutside : List String → ReadFailure
  | [] => .isDirectory
  | name :: rest =>
    if name = "" ∨ name = "." ∨ name = ".." then followOutside rest
    else if maxNameBytes < name.utf8ByteSize then .nameTooLong
    else .notFound

/-- Follows a path from a place in the tree. -/
def follow (t : FileTree) (place : Place) : List String → Except ReadFailure ByteArray
  | [] =>
    match t.file? place with
    | some content => .ok content
    | none => .error (if t.isDirectory place then .isDirectory else .notFound)
  | name :: rest =>
    if t.isDirectory place then
      if name = ".." ∧ place = [] then .error (followOutside rest)
      else if maxNameBytes < name.utf8ByteSize then .error .nameTooLong
      else t.follow (place.step name) rest
    else
      .error (if (t.file? place).isSome then .notDirectory else .notFound)

/-- The contents of the file at a path.  A path that begins with a slash leads out
of the tree. -/
def read (t : FileTree) (path : String) : Except ReadFailure ByteArray :=
  if maxPathBytes < path.utf8ByteSize then
    .error .nameTooLong
  else
    match names path with
    | "" :: rest => .error (if rest.isEmpty then .notFound else followOutside rest)
    | path => t.follow [] path

end FileTree

end Command
end LoxScan
