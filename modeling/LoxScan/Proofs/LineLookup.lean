import Mathlib.Tactic.Common
import LoxScan.Diagnostic

/-!
# LoxScan - Looking up the line of an offset

An offset of a text lies on the line that is counted by the newlines before it.
Looking up the line of that number gives the text from the last newline before the
offset to the next one after it, so what stands at the offset stands in the line at
its column.

Main definitions:

- `Line.tailOf`, the part of a text after its last newline;
- `Line.start`, the offset where the line of an offset begins;
- `Line.Shows`, for a line number that leads to the character at an offset.

Main results:

- Theorem `Line.nth?_of_toNat_eq`: the line that is reached with a text is found.
- Theorem `Line.shows_of_append`: a character other than those of line endings is
  found by the line and the column of its offset.
-/

namespace LoxScan
namespace Line

/-! ## The part after the last newline -/

/-- The part of a text after its last newline. -/
def tailOf (cs : List Char) : List Char :=
  (before '\n' cs.reverse).reverse

/-- The offset where the line begins on which an offset of a text lies. -/
def start (cs : List Char) (offset : Nat) : Nat :=
  offset - (tailOf (cs.take offset)).length

/-- A text without newlines is all on one line. -/
theorem tailOf_of_not_mem {cs : List Char} (h : '\n' ∉ cs) : tailOf cs = cs := by
  rw [tailOf, before_of_not_mem (by simpa using h), List.reverse_reverse]

/-- A character before a newline is not on the last line. -/
theorem tailOf_cons_of_mem {cs : List Char} (h : '\n' ∈ cs) (c : Char) :
    tailOf (c :: cs) = tailOf cs := by
  have hmem : '\n' ∈ cs.reverse := by simpa using h
  have hcs := before_append_cons_after hmem
  rw [tailOf, tailOf, List.reverse_cons, ← hcs, List.append_assoc, List.cons_append,
    before_append_cons (not_mem_before _ _), before_append_cons (not_mem_before _ _)]

/-- A newline is not on the last line. -/
theorem tailOf_newline_cons (cs : List Char) : tailOf ('\n' :: cs) = tailOf cs := by
  by_cases h : '\n' ∈ cs
  · exact tailOf_cons_of_mem h '\n'
  · rw [tailOf_of_not_mem h, tailOf, List.reverse_cons, before_append_cons (by simpa using h),
      List.reverse_reverse]

/-- Skipping the newlines of a text leaves what follows the last of them. -/
theorem skip?_count_append (xs ys : List Char) :
    skip? (xs.count '\n') (xs ++ ys) = some (tailOf xs ++ ys) := by
  induction xs with
  | nil => simp [skip?, tailOf, before]
  | cons c xs ih =>
    by_cases hc : c = '\n'
    · subst hc
      simp [skip?, ih, tailOf_newline_cons]
    · by_cases hxs : '\n' ∈ xs
      -- The last newline is further on, so the character is skipped with its line.
      · rcases Nat.exists_eq_add_one.mpr (List.count_pos_iff.mpr hxs) with ⟨n, hn⟩
        rw [hn] at ih
        rw [tailOf_cons_of_mem hxs, List.count_cons_of_ne hc, hn, List.cons_append, skip?,
          if_neg hc, ih]
      · have hall : '\n' ∉ c :: xs := by simp [hxs, Ne.symm hc]
        rw [List.count_eq_zero.mpr hall, tailOf_of_not_mem hall, skip?]

/-! ## The line of an offset -/

/-- The line that is reached with a text is found: it begins after the last newline
of the text, and ends before the next one. -/
theorem nth?_of_toNat_eq {line : UInt32} {passed : List Char} (rest : List Char)
    (h : line.toNat = 1 + passed.count '\n') :
    nth? (passed ++ rest) line = some (dropEnd '\r' (before '\n' (tailOf passed ++ rest))) := by
  have hline : line ≠ 0 := by
    rintro rfl
    rw [UInt32.toNat_zero] at h
    omega
  have hskip : line.toNat - 1 = passed.count '\n' := by omega
  rw [nth?, if_neg hline, hskip, skip?_count_append]
  rfl

/-- Whether a line number is that of an offset of a source, and leads to the character
that stands there: it stands in the line of that number, as far from its start. -/
structure Shows (source : String) (line : UInt32) (offset : Nat) (c : Char) : Prop where
  toNat_eq : line.toNat = 1 + (source.toList.take offset).count '\n'
  getElem?_source : source.toList[offset]? = some c
  exists_text : ∃ text, sourceLine? source line = some text ∧
    text.toList[offset - start source.toList offset]? = some c

/-- The part of a text after its last newline has none. -/
theorem not_mem_tailOf (cs : List Char) : '\n' ∉ tailOf cs := by
  rw [tailOf, List.mem_reverse]
  exact not_mem_before '\n' cs.reverse

/-- The part of a text after its last newline is no longer than the text. -/
theorem length_tailOf_le (cs : List Char) : (tailOf cs).length ≤ cs.length := by
  have h := (List.takeWhile_sublist (p := (· ≠ '\n')) (l := cs.reverse)).length_le
  simpa [tailOf, before] using h

/-- A character other than those of line endings is shown by the line of its offset. -/
theorem shows_of_append {source : String} {line : UInt32} {passed rest : List Char} {c : Char}
    (hsource : source.toList = passed ++ c :: rest) (hnewline : c ≠ '\n') (hreturn : c ≠ '\r')
    (hline : line.toNat = 1 + passed.count '\n') : Shows source line passed.length c := by
  have htake : source.toList.take passed.length = passed := by simp [hsource]
  refine ⟨by rw [htake, hline], by simp [hsource], ?_⟩
  have hcolumn : passed.length - start source.toList passed.length = (tailOf passed).length := by
    have hle := length_tailOf_le passed
    rw [start, htake]
    omega
  have hbefore : before '\n' (tailOf passed ++ c :: rest) =
      tailOf passed ++ c :: before '\n' rest := by
    rw [before_append (not_mem_tailOf passed)]
    simp [before, hnewline]
  refine ⟨_, by rw [sourceLine?, hsource, nth?_of_toNat_eq _ hline, Option.map_some], ?_⟩
  rw [hcolumn, String.toList_ofList, hbefore]
  exact getElem?_dropEnd (by simp) hreturn

end Line
end LoxScan
