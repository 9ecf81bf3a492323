import LoxScan.Text.Cluster

/-!
# LoxScan - Backspaces

A line that is typed may hold backspaces.  Each takes back the visible character
that was typed last, as long as there is one.

Main definitions:

- `Draft`, a line that is being typed, and `Draft.type`, which types a visible
  character;
- `Backspace.applied`, the text that is left of a line in the end.

Main results:

- `Backspace.applied_of_not_mem`: a line without backspaces is left as it is.
-/

namespace LoxScan

/-- The number of bytes that a text takes in UTF-8. -/
def byteLength : List Char → Nat
  | [] => 0
  | c :: cs => c.utf8Size + byteLength cs

/-- A text without its first characters, which take up a number of bytes. -/
def dropBytes (n : Nat) : List Char → List Char
  | [] => []
  | c :: cs => if n = 0 then c :: cs else dropBytes (n - c.utf8Size) cs

/-- A line that is being typed. -/
structure Draft where
  /-- The text that has been typed, backwards. -/
  text : List Char := []
  /-- The sizes of the visible characters, the last one first.  The size of a
  character is the number of its bytes, kept in a single byte. -/
  sizes : List UInt8 := []

namespace Draft

/-- Adds a visible character. -/
def add (d : Draft) (cluster : List Char) : Draft :=
  ⟨cluster.reverse ++ d.text, UInt8.ofNat (byteLength cluster) :: d.sizes⟩

/-- Takes back the last visible character, if there is one. -/
def takeBack (d : Draft) : Draft :=
  match d.sizes with
  | [] => d
  | size :: sizes => ⟨dropBytes size.toNat d.text, sizes⟩

/-- Types a visible character, which may be a backspace. -/
def type (d : Draft) (cluster : List Char) : Draft :=
  if cluster = ['\x08'] then d.takeBack else d.add cluster

/-- The text of a draft. -/
def line (d : Draft) : List Char :=
  d.text.reverse

/-- What is typed without backspaces follows the text. -/
theorem line_foldl_type (d : Draft) (typed : List (List Char)) (h : ['\x08'] ∉ typed) :
    (typed.foldl type d).line = d.line ++ typed.flatten := by
  induction typed generalizing d with
  | nil => simp
  | cons cluster typed ih =>
    simp only [List.mem_cons, not_or] at h
    rw [List.foldl_cons, ih _ h.2, type, if_neg (Ne.symm h.1)]
    simp [line, add]

end Draft

namespace Backspace

/-- The text that is left of a line when each backspace has taken back the visible
character before it. -/
def applied (cs : List Char) : List Char :=
  ((clusters cs).foldl Draft.type {}).line

/-- A line without backspaces is left as it is. -/
theorem applied_of_not_mem {cs : List Char} (h : '\x08' ∉ cs) : applied cs = cs := by
  have htyped : ['\x08'] ∉ clusters cs := fun hmem =>
    h (by rw [← flatten_clusters cs]; exact List.mem_flatten.mpr ⟨_, hmem, by simp⟩)
  rw [applied, Draft.line_foldl_type _ _ htyped, flatten_clusters]
  rfl

end Backspace

end LoxScan
