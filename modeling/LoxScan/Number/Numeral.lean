import LoxScan.Number.Binary64

/-!
# LoxScan - Numerals

A numeral is one or more digits, and possibly a point with one or more digits
after it.  Signs, exponents and numerals that begin or end in a point do not
exist.

Main definitions:

- `Numeral.take`, the longest numeral at the front of a text;
- `Numeral.value`, the number that a numeral denotes;
- `Numeral.read?`, the number that a text spells.

Main results:

- `Numeral.chars_append_take`: the numeral and the rest make up the text.
- `Numeral.wellFormed_take`: what is taken at a digit is a numeral.
-/

namespace LoxScan

/-- A numeral: its digits before the point, and those after it.  No digits after
the point means that there is no point. -/
structure Numeral where
  whole : List Char
  fraction : List Char
  deriving DecidableEq, Repr

namespace Numeral

/-- A fraction with its point; no digits have no point. -/
def pointed : List Char → List Char
  | [] => []
  | digits => '.' :: digits

/-- The characters of a numeral. -/
def chars (n : Numeral) : List Char :=
  n.whole ++ pointed n.fraction

/-- Digits only, and at least one before the point. -/
def WellFormed (n : Numeral) : Prop :=
  n.whole ≠ [] ∧ (∀ c ∈ n.whole, c.isDigit) ∧ ∀ c ∈ n.fraction, c.isDigit

/-- The digits of the fraction at the front of a text, and the text after it.  A
point begins a fraction only when a digit follows it. -/
def takeFraction : List Char → List Char × List Char
  | c :: d :: rest =>
    if c = '.' ∧ d.isDigit then
      (d :: rest.takeWhile Char.isDigit, rest.dropWhile Char.isDigit)
    else
      ([], c :: d :: rest)
  | cs => ([], cs)

/-- The longest numeral at the front of a text that begins with a digit, and the
text after it. -/
def take (cs : List Char) : Numeral × List Char :=
  let tail := takeFraction (cs.dropWhile Char.isDigit)
  (⟨cs.takeWhile Char.isDigit, tail.1⟩, tail.2)

/-- The decimal that a numeral spells. -/
def decimal (n : Numeral) : Decimal :=
  ⟨Nat.ofDigitChars 10 (n.whole ++ n.fraction) 0, -n.fraction.length⟩

/-- The number that a numeral denotes. -/
def value (n : Numeral) : Binary64 :=
  Binary64.ofDecimal n.decimal

/-- The number that a text spells, if the text is a numeral and nothing else. -/
def read? (cs : List Char) : Option Binary64 :=
  let (n, rest) := take cs
  if n.whole ≠ [] ∧ rest = [] then some n.value else none

/-- A fraction and the text after it make up the text it was taken from. -/
theorem pointed_append_takeFraction (cs : List Char) :
    pointed (takeFraction cs).1 ++ (takeFraction cs).2 = cs := by
  unfold takeFraction
  split
  · split
    · rename_i h
      simp [pointed, h.1, List.takeWhile_append_dropWhile]
    · rfl
  · rfl

/-- A numeral and the text after it make up the text it was taken from. -/
theorem chars_append_take (cs : List Char) : (take cs).1.chars ++ (take cs).2 = cs := by
  simp only [take, chars, List.append_assoc, pointed_append_takeFraction,
    List.takeWhile_append_dropWhile]

/-- What is taken as a fraction is digits. -/
theorem isDigit_of_mem_takeFraction {cs : List Char} {c : Char}
    (h : c ∈ (takeFraction cs).1) : c.isDigit := by
  unfold takeFraction at h
  split at h
  · split at h
    · rename_i d rest hpoint
      rcases List.mem_cons.mp h with rfl | htail
      · exact hpoint.2
      · exact (List.all_eq_true.mp (List.all_takeWhile (p := Char.isDigit) (l := rest)) c htail)
    · simp at h
  · simp at h

/-- What is taken at a digit is a numeral. -/
theorem wellFormed_take {c : Char} (h : c.isDigit) (cs : List Char) :
    (take (c :: cs)).1.WellFormed := by
  refine ⟨?_, ?_, ?_⟩
  · simp [take, h]
  · intro d hd
    exact List.all_eq_true.mp (List.all_takeWhile (p := Char.isDigit) (l := c :: cs)) d hd
  · intro d hd
    exact isDigit_of_mem_takeFraction hd

end Numeral

end LoxScan
