import LoxScan.Text.Split

/-!
# LoxScan - Lines of a text

Lines end at newlines only.  They are numbered from one, with numbers of 32 bits.

Main definitions:

- `Line.advance`, the number of the line on which a text ends;
- `Line.nth?`, the text of a line by its number;
- `Line.delivered`, the lines that a reader delivers one by one.

Main results:

- `Line.toNat_advance`: lines are counted exactly while their numbers fit.
-/

namespace LoxScan
namespace Line

/-- The number of the line that is reached when a text that begins on `line` has
been passed. -/
def advance (line : UInt32) (cs : List Char) : UInt32 :=
  line + UInt32.ofNat (cs.count '\n')

/-- Passing a text and then another one is passing both. -/
theorem advance_append (line : UInt32) (xs ys : List Char) :
    advance line (xs ++ ys) = advance (advance line xs) ys := by
  simp [advance, UInt32.add_assoc]

/-- Lines are counted exactly as long as their numbers fit in 32 bits. -/
theorem toNat_advance {line : UInt32} {cs : List Char}
    (h : line.toNat + cs.count '\n' < UInt32.size) :
    (advance line cs).toNat = line.toNat + cs.count '\n' := by
  have hcount : (UInt32.ofNat (cs.count '\n')).toNat = cs.count '\n' :=
    UInt32.toNat_ofNat_of_lt' (by omega)
  rw [advance, UInt32.toNat_add, hcount, Nat.mod_eq_of_lt h]

/-- The line that is reached with the front of a source, whose lines are counted from
one. -/
theorem toNat_advance_one {cs : List Char} (h : cs.count '\n' < UInt32.size - 1) :
    (advance 1 cs).toNat = 1 + cs.count '\n' := by
  have hone : (1 : UInt32).toNat = 1 := UInt32.toNat_one
  rw [toNat_advance (by omega), hone]

/-- The line that a text ends on, by the number of its newlines. -/
theorem advance_eq {line last : UInt32} {cs : List Char}
    (h : line.toNat + cs.count '\n' = last.toNat) : advance line cs = last := by
  have hlt := last.toNat_lt_size
  apply UInt32.toNat_inj.mp
  rw [toNat_advance (by omega), h]

/-- The text after the first `n` newlines, if there are as many. -/
def skip? : Nat → List Char → Option (List Char)
  | 0, cs => some cs
  | _ + 1, [] => none
  | n + 1, c :: cs => if c = '\n' then skip? n cs else skip? (n + 1) cs

/-- The text of a line without its line ending: the newline, and one carriage
return before it or at the end of the text. -/
def nth? (source : List Char) (line : UInt32) : Option (List Char) :=
  if line = 0 then none
  else (skip? (line.toNat - 1) source).map fun rest => dropEnd '\r' (before '\n' rest)

/-- The lines of an input as a reader delivers them one by one.  Each is cut off
after a newline, which is taken away, and then one carriage return before it.  An
input that does not end in a newline has a last line, which is left as it is. -/
def delivered {α : Type} [DecidableEq α] (newline carriageReturn : α) (xs : List α) :
    List (List α) :=
  if newline ∈ xs then
    dropEnd carriageReturn (before newline xs) ::
      delivered newline carriageReturn (after newline xs)
  else if xs = [] then
    []
  else
    [xs]
termination_by xs.length
decreasing_by exact length_after_lt (by assumption)

end Line
end LoxScan
