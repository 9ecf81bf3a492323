import LoxScan.Proofs.Steps

/-!
# LoxScan - What more text cannot change

To find where a piece ends, a scan looks at no more than two characters after it: a point
and the character that follows it.  So a step that ends two characters or more before the
end of a source does not change, whatever text is put after the source.  Open strings and
comments that go on to the end of the source need no exception, as no character follows
them.

Main definitions:

- `Scan.Step.finish`, the offset where a step ends;
- `Scan.settled`, the steps that end two characters or more before the end of a source.

Main results:

- Theorem `Piece.StopsAt.append_of_two_le`: two characters fix where a piece ends.
- Theorem `Scan.settled_prefix_steps`: the settled steps come first in the scan of every
  longer source.
- Theorem `tokenize_settled`: the same for single steps, and for tokens and errors.
-/

namespace LoxScan

/-! ## Pieces that end well before the end -/

namespace Piece

/-- A piece that ends before two characters or more ends there also if the text goes on
after them. -/
theorem StopsAt.append_of_two_le {p : Piece} {xs : List Char} (h : p.StopsAt xs)
    (hlength : 2 ≤ xs.length) (ys : List Char) : p.StopsAt (xs ++ ys) := by
  rw [← stopsAt_take_two_iff] at h ⊢
  rwa [List.take_append_of_le_length hlength]

/-- Pieces that fit before two characters or more fit there also if the text goes on after
them. -/
theorem FitBefore.append_of_two_le {ps : List Piece} {xs : List Char} (h : FitBefore ps xs)
    (hlength : 2 ≤ xs.length) (ys : List Char) : FitBefore ps (xs ++ ys) := by
  induction ps with
  | nil => trivial
  | cons p ps ih =>
    rcases h with ⟨hp, hstop, hrest⟩
    have hlong : 2 ≤ (ps.flatMap chars ++ xs).length := by
      rw [List.length_append]
      omega
    refine ⟨hp, ?_, ih hrest⟩
    rw [← List.append_assoc]
    exact hstop.append_of_two_le hlong ys

end Piece

namespace Scan

/-! ## Settled steps -/

/-- The offset where a step ends. -/
def Step.finish (s : Step) : Nat :=
  s.offset + s.piece.chars.length

/-- The steps of a scan that end two characters or more before the end of the source. -/
def settled (source : String) : List Step :=
  (steps source).filter fun s => s.finish + 2 ≤ source.toList.length

/-- The steps that end two characters or more before the end of some pieces take the
pieces at the front, and if there are any, two characters or more are left. -/
theorem exists_append_of_filter_stepsFrom (offset : Nat) (line : UInt32) (ps : List Piece) :
    ∃ taken left, ps = taken ++ left ∧ (taken = [] ∨ 2 ≤ (left.flatMap Piece.chars).length) ∧
      (stepsFrom offset line ps).filter
          (fun s => s.finish + 2 ≤ offset + (ps.flatMap Piece.chars).length) =
        stepsFrom offset line taken := by
  induction ps generalizing offset line with
  | nil => exact ⟨[], [], rfl, .inl rfl, rfl⟩
  | cons p ps ih =>
    rw [List.flatMap_cons, List.length_append, ← Nat.add_assoc, stepsFrom]
    by_cases hroom : 2 ≤ (ps.flatMap Piece.chars).length
    · rcases ih (offset + p.chars.length) (Line.advance line p.chars) with
        ⟨taken, left, rfl, hleft, hfilter⟩
      refine ⟨p :: taken, left, rfl, .inr ?_, ?_⟩
      · rcases hleft with rfl | hleft
        · exact hroom
        · exact hleft
      · rw [List.filter_cons_of_pos, hfilter, stepsFrom]
        rw [decide_eq_true_iff, Step.finish, Nat.add_le_add_iff_left]
        exact hroom
    · -- No step ends before the first one does, and that is too late already.
      refine ⟨[], p :: ps, rfl, .inl rfl, ?_⟩
      rw [stepsFrom, List.filter_eq_nil_iff]
      intro s hs
      have hfinish : offset + p.chars.length ≤ s.finish := by
        rcases List.mem_cons.mp hs with rfl | htail
        · exact Nat.le_refl _
        · exact (le_offset_of_mem_stepsFrom htail).trans (Nat.le_add_right _ _)
      rw [decide_eq_true_iff]
      omega

/-- The settled steps of a source come first in the scan of every source that begins with
it. -/
theorem settled_prefix_steps (a b : String) : settled a <+: steps (a ++ b) := by
  have hfit := Piece.fit_ofText a.toList
  have htext := Piece.flatMap_chars_ofText a.toList
  rcases exists_append_of_filter_stepsFrom 0 1 (Piece.ofText a.toList) with
    ⟨taken, left, hpieces, hleft, hsettled⟩
  rw [htext, Nat.zero_add] at hsettled
  rw [settled, steps, hsettled]
  rcases hleft with rfl | hleft
  · exact List.nil_prefix
  · -- The pieces that are settled fit before the rest of the longer source.
    rw [hpieces] at hfit htext
    rw [List.flatMap_append] at htext
    have hbefore := (Piece.fit_append_iff.mp hfit).1.append_of_two_le hleft b.toList
    have htaken := Piece.ofText_flatMap_chars hbefore.fit
    rw [← htaken] at hbefore
    have hlonger := Piece.ofText_append hbefore
    rw [htaken, ← List.append_assoc, htext, ← String.toList_append] at hlonger
    rw [steps, hlonger, stepsFrom_append]
    exact List.prefix_append ..

end Scan

/-- A step that ends two characters or more before the end of a source is a step of every
source that begins with it, at the same offset, on the same line and with the same piece.
These steps are the first ones there, and the tokens and the errors that they hand on are
the first tokens and the first errors. -/
theorem tokenize_settled (a b : String) :
    (∀ s ∈ Scan.steps a, s.finish + 2 ≤ a.toList.length → s ∈ Scan.steps (a ++ b)) ∧
      Scan.settled a <+: Scan.steps (a ++ b) ∧
      (Scan.settled a).filterMap Scan.Step.token? <+: (tokenize (a ++ b)).tokens ∧
      (Scan.settled a).filterMap Scan.Step.error? <+: (tokenize (a ++ b)).errors := by
  have hfront := Scan.settled_prefix_steps a b
  refine ⟨?_, hfront, ?_, ?_⟩
  · intro s hs hfinish
    exact hfront.subset (List.mem_filter.mpr ⟨hs, decide_eq_true hfinish⟩)
  · rw [tokens_tokenize]
    exact (hfront.filterMap _).trans (List.prefix_append ..)
  · rw [errors_tokenize]
    exact hfront.filterMap _

/-- One character is not enough: a number before a point at the end goes on if a digit
comes next. -/
example : ⟨0, 1, .number ⟨['1'], []⟩⟩ ∈ Scan.steps "1." ∧
    ⟨0, 1, .number ⟨['1'], []⟩⟩ ∉ Scan.steps ("1." ++ "5") := by
  decide +kernel

end LoxScan
