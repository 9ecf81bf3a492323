/-!
# LoxScan - White space

The characters with the property `White_Space` of Unicode, and texts without such
characters at their end.

Main definitions:

- `isWhiteSpace`, the 25 characters of the class;
- `trimEnd`, a text without the white space at its end.
-/

namespace LoxScan

/-- Whether a character is white space: the tab to the carriage return, the
space, and the separators and the few controls that lie beyond ASCII. -/
def isWhiteSpace (c : Char) : Bool :=
  let n := c.toNat
  (0x09 ≤ n && n ≤ 0x0D) || n == 0x20 || n == 0x85 || n == 0xA0 || n == 0x1680 ||
    (0x2000 ≤ n && n ≤ 0x200A) || n == 0x2028 || n == 0x2029 || n == 0x202F ||
    n == 0x205F || n == 0x3000

/-- A text without the white space at its end. -/
def trimEnd (cs : List Char) : List Char :=
  (cs.reverse.dropWhile isWhiteSpace).reverse

/-- A trimmed text is the front of the text. -/
theorem trimEnd_front (cs : List Char) : trimEnd cs <+: cs := by
  have h := List.reverse_prefix.mpr (List.dropWhile_suffix (l := cs.reverse) isWhiteSpace)
  simpa [trimEnd] using h

end LoxScan
