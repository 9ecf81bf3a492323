import Mathlib.Data.List.DropRight
import LoxScan.Proofs.DiagnosticLayout
import LoxScan.Proofs.LineEndings
import LoxScan.Proofs.LineStamps

/-!
# LoxScan - The character that a diagnostic complains about

The last line of a diagnostic is the line of the source on which the error was found, without
white space at its end.  White space is more than blanks, so an unexpected character may be
cut off as well, but only if nothing else than white space follows it on its line.

Main definitions:

- `Line.around`, the line of a text on which an offset lies, without the newline.

Main results:

- Theorem `lt_length_rdropWhile_iff`: how far a list reaches without a class at its end.
- Theorem `Line.nth?_around`: the line of an offset is found by its number.
- Theorem `diagnostic_shows_unexpected`: the diagnostic of an unexpected character shows it
  where it stands, unless only white space follows.
-/

namespace LoxScan

/-! ## White space at the end -/

/-- A list without a class at its end reaches as far as its last element that is not in the
class. -/
theorem lt_length_rdropWhile_iff {α : Type} {p : α → Bool} {xs : List α} {i : Nat} :
    i < (xs.rdropWhile p).length ↔ ∃ x ∈ xs.drop i, ¬ p x := by
  have happend : xs.rdropWhile p ++ xs.rtakeWhile p = xs := List.rdropWhile_append_rtakeWhile
  have hdrop := congrArg (List.drop i) happend
  rw [List.drop_append] at hdrop
  constructor
  · intro hlt
    have hne : xs.rdropWhile p ≠ [] := List.ne_nil_of_length_pos (by omega)
    have hdropped : (xs.rdropWhile p).drop i ≠ [] := by simpa using hlt
    refine ⟨(xs.rdropWhile p).getLast hne, ?_, List.rdropWhile_last_not p xs hne⟩
    rw [← hdrop, ← List.getLast_drop hdropped]
    exact List.mem_append_left _ (List.getLast_mem hdropped)
  · rintro ⟨x, hx, hclass⟩
    by_contra hle
    rw [← hdrop, List.drop_eq_nil_of_le (by omega), List.nil_append] at hx
    exact hclass (List.mem_rtakeWhile_imp (List.mem_of_mem_drop hx))

/-- A character stays when white space at the end is cut off exactly if some character from it
on is not white space. -/
theorem getElem?_trimEnd_iff {cs : List Char} {i : Nat} {c : Char} (h : cs[i]? = some c) :
    (trimEnd cs)[i]? = some c ↔ ∃ d ∈ cs.drop i, ¬ isWhiteSpace d := by
  have htrim : trimEnd cs = cs.rdropWhile isWhiteSpace := rfl
  rw [← lt_length_rdropWhile_iff, ← htrim]
  constructor
  · intro hkept
    exact (List.getElem?_eq_some_iff.mp hkept).1
  · intro hlt
    rw [← h, List.getElem?_eq_getElem hlt, (trimEnd_front cs).getElem hlt,
      List.getElem?_eq_getElem]

/-! ## The line of an offset -/

namespace Line

/-- The line on which an offset of a text lies: from the last newline before the offset to the
next one. -/
def around (cs : List Char) (offset : Nat) : List Char :=
  tailOf (cs.take offset) ++ before '\n' (cs.drop offset)

/-- The line of an offset is found by its number, without its line ending. -/
theorem nth?_around {cs : List Char} {offset : Nat} {line : UInt32}
    (h : line.toNat = 1 + (cs.take offset).count '\n') :
    nth? cs line = some (dropEnd '\r' (around cs offset)) := by
  have hfound := nth?_of_toNat_eq (cs.drop offset) h
  rwa [List.take_append_drop, before_append (not_mem_tailOf _)] at hfound

/-- A character that is no newline stands in its line as far from the start as its offset. -/
theorem getElem?_around {cs : List Char} {offset : Nat} {c : Char} (h : cs[offset]? = some c)
    (hc : c ≠ '\n') : (around cs offset)[offset - start cs offset]? = some c := by
  rcases List.getElem?_eq_some_iff.mp h with ⟨hlt, hget⟩
  have hcolumn : offset - start cs offset = (tailOf (cs.take offset)).length := by
    have hle := length_tailOf_le (cs.take offset)
    rw [List.length_take] at hle
    rw [start]
    omega
  have hrest : before '\n' (cs.drop offset) = c :: before '\n' (cs.drop (offset + 1)) := by
    rw [List.drop_eq_getElem_cons hlt, hget]
    simp [before, hc]
  rw [hcolumn, around, hrest, List.getElem?_append_right (Nat.le_refl _), Nat.sub_self]
  rfl

end Line

/-! ## Diagnostics of unexpected characters -/

/-- A diagnostic shows the line of an offset without white space at its end. -/
theorem LexicalError.toList_shownLine_of_toNat_eq {e : LexicalError} {source : String}
    {offset : Nat} (h : e.line.toNat = 1 + (source.toList.take offset).count '\n') :
    (e.shownLine source).toList = trimEnd (Line.around source.toList offset) := by
  rw [shownLine, String.toList_ofList, Line.nth?_around h, Option.getD_some, trimEnd_dropEnd]

/-- The step that hands on an error with an unexpected character takes that character. -/
theorem Scan.shows_of_error? {source : String} {s : Step} {e : LexicalError} {c : Char}
    (hcount : source.toList.count '\n' < UInt32.size - 1) (hs : s ∈ steps source)
    (he : s.error? = some e) (hcause : e.cause = .unexpectedCharacter c) :
    Line.Shows source e.line s.offset c := by
  rcases shows_or_isLast_of_error? hcount hs he with ⟨d, hd, hshows⟩ | ⟨hunterminated, _⟩
  · obtain rfl : c = d := Cause.unexpectedCharacter.inj (hcause.symm.trans hd)
    exact hshows
  · rw [hcause] at hunterminated
    cases hunterminated

/-- An unexpected character is no newline. -/
theorem Scan.ne_newline_of_error? {source : String} {s : Step} {e : LexicalError} {c : Char}
    (hs : s ∈ steps source) (he : s.error? = some e)
    (hcause : e.cause = .unexpectedCharacter c) : c ≠ '\n' := by
  have hwell := wellFormed_of_mem_steps hs
  rcases Step.spec_of_error? hwell he with ⟨d, hpiece, rfl⟩ | ⟨body, _, rfl⟩
  · obtain rfl := Cause.unexpectedCharacter.inj hcause
    have hunexpected : ¬ isExpected d := by rwa [hpiece] at hwell
    rintro rfl
    exact hunexpected (by decide)
  · cases hcause

/-- The diagnostics of the unexpected characters of a source, which come from the steps that
take them.  The last line of a diagnostic is the number of the line, a bar, and a front of the
line on which the character lies.  The character stands in it at its own column exactly if
some character of the line from it on is not white space, and always if it is not white space
itself. -/
theorem diagnostic_shows_unexpected (source file : String)
    (hcount : source.toList.count '\n' < UInt32.size - 1) :
    (tokenize source).errors = (Scan.steps source).filterMap Scan.Step.error? ∧
    ∀ s ∈ Scan.steps source, ∀ e c, s.error? = some e → e.cause = .unexpectedCharacter c →
      ∃ shown, Line.tailOf (e.diagnostic source file).toList =
          e.line.toNat.repr.toList ++ " | ".toList ++ shown ∧
        shown <+: Line.around source.toList s.offset ∧
        (Line.around source.toList s.offset)[s.offset - Line.start source.toList s.offset]? =
          some c ∧
        (shown[s.offset - Line.start source.toList s.offset]? = some c ↔
          ∃ d ∈ (Line.around source.toList s.offset).drop
            (s.offset - Line.start source.toList s.offset), ¬ isWhiteSpace d) ∧
        (¬ isWhiteSpace c → shown[s.offset - Line.start source.toList s.offset]? = some c) := by
  refine ⟨errors_tokenize source, ?_⟩
  intro s hs e c he hcause
  have hshows := Scan.shows_of_error? hcount hs he hcause
  have hcolumn := Line.getElem?_around hshows.getElem?_source
    (Scan.ne_newline_of_error? hs he hcause)
  have hkept := getElem?_trimEnd_iff hcolumn
  refine ⟨trimEnd (Line.around source.toList s.offset), ?_, trimEnd_front _, hcolumn, hkept, ?_⟩
  · rw [LexicalError.tailOf_diagnostic, LexicalError.lastLine,
      LexicalError.toList_shownLine_of_toNat_eq hshows.toNat_eq]
    simp
  · intro hspace
    rw [hkept]
    rcases List.getElem?_eq_some_iff.mp hcolumn with ⟨hlt, hget⟩
    refine ⟨c, ?_, hspace⟩
    rw [List.drop_eq_getElem_cons hlt, hget]
    exact List.mem_cons_self

/-- Two unexpected characters at the end of the second line of a source.  The second one is
white space that is no blank, and its diagnostic does not show it. -/
theorem diagnostic_shows_unexpected_before_space :
    "1\n+ @\u00A0\r\n".toList.count '\n' < UInt32.size - 1 ∧
      (∃ shown : List Char,
        Line.tailOf (LexicalError.diagnostic ⟨.unexpectedCharacter '@', 2⟩
            "1\n+ @\u00A0\r\n" "script.lox").toList = "2 | ".toList ++ shown ∧
          shown <+: "+ @\u00A0\r".toList ∧ shown[2]? = some '@') ∧
      ∃ shown : List Char,
        Line.tailOf (LexicalError.diagnostic ⟨.unexpectedCharacter '\u00A0', 2⟩
            "1\n+ @\u00A0\r\n" "script.lox").toList = "2 | ".toList ++ shown ∧
          shown <+: "+ @\u00A0\r".toList ∧ shown[3]? ≠ some '\u00A0' := by
  have hcount : "1\n+ @\u00A0\r\n".toList.count '\n' < UInt32.size - 1 := by decide
  rcases diagnostic_shows_unexpected "1\n+ @\u00A0\r\n" "script.lox" hcount with ⟨_, hsteps⟩
  have hline : ∀ i ∈ [4, 5], Line.around "1\n+ @\u00A0\r\n".toList i = "+ @\u00A0\r".toList ∧
      i - Line.start "1\n+ @\u00A0\r\n".toList i = i - 2 := by
    decide
  have hnumber : (2 : UInt32).toNat.repr.toList ++ " | ".toList = "2 | ".toList := by decide
  refine ⟨hcount, ?_, ?_⟩
  · rcases hsteps ⟨4, 2, .unexpected '@'⟩ (by decide +kernel) _ '@' rfl rfl with
      ⟨shown, hlast, hfront, _, _, hshown⟩
    rw [(hline 4 (by simp)).1] at hfront
    rw [(hline 4 (by simp)).2] at hshown
    exact ⟨shown, by rw [← hnumber]; exact hlast, hfront, hshown (by decide)⟩
  · rcases hsteps ⟨5, 2, .unexpected '\u00A0'⟩ (by decide +kernel) _ '\u00A0' rfl rfl with
      ⟨shown, hlast, hfront, _, hkept, _⟩
    rw [(hline 5 (by simp)).1] at hfront hkept
    rw [(hline 5 (by simp)).2] at hkept
    refine ⟨shown, by rw [← hnumber]; exact hlast, hfront, fun h => ?_⟩
    rcases hkept.mp h with ⟨d, hd, hspace⟩
    have hrest : "+ @\u00A0\r".toList.drop 3 = ['\u00A0', '\r'] := by decide
    rw [hrest, List.mem_pair] at hd
    rcases hd with rfl | rfl
    · exact hspace (by decide)
    · exact hspace (by decide)

end LoxScan
