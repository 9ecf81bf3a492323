import Mathlib.Data.List.Nodup
import LoxScan.Command.FileTree
import LoxScan.Command.Run

/-!
# LoxScan - Files are read back

A path is followed from directory to directory.  It is read exactly if it never leads out of
the tree, passes only directories, keeps the limits on lengths, and ends at a file.  A tree that
is built from paths has all the directories that these pass, so each of them leads to its own
file, and the command scans what the file holds.

Main definitions:

- `Command.Place.ofPath`, the place that a path leads to;
- `Command.FileTree.IsInside`, for paths that may be followed in a tree.

Main results:

- Theorem `Command.FileTree.read_eq_ok_iff`: the paths that are read, and what is read.
- Theorem `Command.FileTree.read_ofPaths`: a file of a tree is read back by its path.
- Theorem `Command.run_ofPaths`: a file of a tree is scanned.
-/

namespace LoxScan
namespace Command

/-- The place that a path leads to. -/
def Place.ofPath (path : String) : Place :=
  (FileTree.names path).foldl step []

namespace FileTree

variable {t : FileTree} {place : Place} {way : List String} {path : String}
  {content : ByteArray} {files : List (String × ByteArray)}

/-! ## Following a path -/

/-- Whether names lead on from a place without leading out of the tree on the way. -/
def Stays : Place → List String → Prop
  | _, [] => True
  | place, name :: rest => ¬ (name = ".." ∧ place = []) ∧ Stays (place.step name) rest

/-- Names are followed to a file if they stay in the tree, pass directories only, and are not
too long. -/
theorem follow_eq_ok_iff :
    t.follow place way = .ok content ↔
      (Stays place way ∧ ∀ name ∈ way, name.utf8ByteSize ≤ maxNameBytes) ∧
        (∀ directory ∈ directoriesOn place way, t.isDirectory directory) ∧
        t.file? (way.foldl Place.step place) = some content := by
  induction way generalizing place with
  | nil =>
    rw [follow]
    split
    · rename_i hfile
      simp [Stays, directoriesOn, hfile]
    · rename_i hfile
      simp [hfile]
  | cons name rest ih =>
    rw [follow]
    split
    · rename_i hdirectory
      split
      · rename_i hout
        simp [Stays, hout]
      · rename_i hstays
        split
        · rename_i hlong
          simp [Nat.not_le.mpr hlong]
        · rename_i hshort
          simp [ih, Stays, directoriesOn, hdirectory, hstays, Nat.not_lt.mp hshort]
    · rename_i hdirectory
      simp [directoriesOn, hdirectory]

/-! ## Reading a path -/

/-- Whether a path may be followed in a tree: it does not begin with a slash, it does not lead
out of the tree on the way, and neither the path nor a name in it is too long. -/
structure IsInside (path : String) : Prop where
  size_le : path.utf8ByteSize ≤ maxPathBytes
  relative : "" ∉ (names path).head?
  stays : Stays [] (names path)
  name_size_le : ∀ name ∈ names path, name.utf8ByteSize ≤ maxNameBytes

/-- A path is read if it may be followed, passes directories only and leads to a file; what is
read is the content of the file. -/
theorem read_eq_ok_iff :
    t.read path = .ok content ↔
      IsInside path ∧ (∀ directory ∈ directoriesOn [] (names path), t.isDirectory directory) ∧
        t.file? (.ofPath path) = some content := by
  rw [read]
  split
  · rename_i hlong
    constructor
    · rintro ⟨⟩
    · rintro ⟨hinside, -⟩
      exact absurd hinside.size_le (Nat.not_le.mpr hlong)
  · rename_i hshort
    split
    · rename_i rest hnames
      constructor
      · rintro ⟨⟩
      · rintro ⟨hinside, -⟩
        exact absurd (by rw [hnames]; rfl) hinside.relative
    · rename_i hnames
      have hrelative : "" ∉ (names path).head? := by
        intro hhead
        rcases List.head?_eq_some_iff.mp hhead with ⟨rest, heq⟩
        exact hnames rest heq
      rw [follow_eq_ok_iff]
      constructor
      · rintro ⟨⟨hstays, hsizes⟩, hfile⟩
        exact ⟨⟨Nat.not_lt.mp hshort, hrelative, hstays, hsizes⟩, hfile⟩
      · rintro ⟨hinside, hfile⟩
        exact ⟨⟨hinside.stays, hinside.name_size_le⟩, hfile⟩

/-! ## Trees from paths -/

/-- The path of a file passes directories of the tree. -/
theorem isDirectory_ofPaths (hmem : (path, content) ∈ files) :
    ∀ directory ∈ directoriesOn [] (names path), (ofPaths files).isDirectory directory := by
  intro directory hdirectory
  have hall : directory ∈ (ofPaths files).directories :=
    List.mem_flatMap.mpr ⟨(path, content), hmem, hdirectory⟩
  simp [isDirectory, hall]

/-- If no two paths lead to the same place, the contents at the places are those that were given
with the paths. -/
theorem file?_ofPaths_eq_some_iff (hdistinct : (files.map fun f => Place.ofPath f.1).Nodup) :
    (ofPaths files).file? place = some content ↔
      ∃ path, (path, content) ∈ files ∧ Place.ofPath path = place := by
  have hfind : (ofPaths files).file? place =
      (files.find? (Place.ofPath ·.1 = place)).map (·.2) := by
    rw [file?, ofPaths, List.find?_map, Option.map_map]
    rfl
  rw [hfind, Option.map_eq_some_iff]
  constructor
  · rintro ⟨⟨path, _⟩, hfound, rfl⟩
    exact ⟨path, List.mem_of_find?_eq_some hfound, by simpa using List.find?_some hfound⟩
  · rintro ⟨path, hmem, hplace⟩
    -- Some file is found, and no other one has the same place.
    have hsome : (files.find? (Place.ofPath ·.1 = place)).isSome :=
      List.find?_isSome.mpr ⟨_, hmem, by simpa using hplace⟩
    rcases Option.isSome_iff_exists.mp hsome with ⟨f, hfound⟩
    have hf : Place.ofPath f.1 = place := by simpa using List.find?_some hfound
    obtain rfl : f = (path, content) :=
      List.inj_on_of_nodup_map hdistinct (List.mem_of_find?_eq_some hfound) hmem
        (hf.trans hplace.symm)
    exact ⟨_, hfound, rfl⟩

/-- A file of a tree is read back by its path, if no other path leads to the same place. -/
theorem read_ofPaths (hdistinct : (files.map fun f => Place.ofPath f.1).Nodup)
    (hmem : (path, content) ∈ files) (hinside : IsInside path) :
    (ofPaths files).read path = .ok content :=
  read_eq_ok_iff.mpr ⟨hinside, isDirectory_ofPaths hmem,
    (file?_ofPaths_eq_some_iff hdistinct).mpr ⟨path, hmem, rfl⟩⟩

/-- Different paths may lead to the same place, as a dot leads nowhere else. -/
example : Place.ofPath "./a" = Place.ofPath "a" := by cbv

end FileTree

/-- A file of a tree is scanned, whatever else is in the tree and on the standard input. -/
theorem run_ofPaths {arguments : List String} {path : String} {quiet : Bool} {content : ByteArray}
    {files : List (String × ByteArray)} (hparse : Options.parse arguments = .ok ⟨some path, quiet⟩)
    (hdistinct : (files.map fun f => Place.ofPath f.1).Nodup)
    (hmem : (path, content) ∈ files) (hinside : FileTree.IsInside path) (input : ByteArray) :
    run arguments (FileTree.ofPaths files).read input = runScript path (.ok content) quiet := by
  rw [run, hparse]
  dsimp only
  rw [FileTree.read_ofPaths hdistinct hmem hinside]

end Command
end LoxScan
