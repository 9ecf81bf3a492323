/-!
# LoxScan - Ranges of characters

Large classes of characters are kept as tables of code point ranges.

Main definitions:

- `inRanges`, whether a character lies in one of the ranges of a table.
-/

namespace LoxScan

/-- Whether a character lies in one of the ranges, whose ends belong to them. -/
def inRanges (ranges : List (Nat × Nat)) (c : Char) : Bool :=
  ranges.any fun (low, high) => low ≤ c.toNat && c.toNat ≤ high

end LoxScan
