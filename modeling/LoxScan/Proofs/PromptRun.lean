import LoxScan.Proofs.LineByLine
import LoxScan.Proofs.Listing
import LoxScan.Proofs.NumberText

/-!
# LoxScan - Running the command on lines

The command scans the lines of the standard input one by one.  On a text in which no line
that ends in a newline leaves a string open, this is as good as a scan of the whole text:
tokens and errors are the same, apart from their lines, and so is the listing, apart from
the tokens for the ends of the lines.  No token of a line has a newline in it, so the lines
of the listing that are to be left out are found by their text.

Main definitions:

- `Command.scanAll`, the output of scans of some texts one after the other;
- `Command.withoutEnds`, a listing without its lines for the ends of sources.

Main results:

- Theorem `Command.runPrompt_toUTF8`: a run on the lines of a text scans what backspaces
  leave of them, one by one.
- Theorem `Command.withoutEnds_listing`: leaving out lines of a listing leaves out tokens.
- Theorem `Command.runPrompt_agrees`: line by line and at once the same is found.
-/

namespace LoxScan

/-! ## Runs on the lines of a text -/

namespace Command

/-- The output of the scans of some texts, one after the other. -/
def scanAll (quiet : Bool) (sources : List String) : Output :=
  sources.foldl (fun written source => written ++ (scanText source promptName quiet).1) .empty

/-- The text that is typed with the bytes of a line. -/
theorem typedLine_bytes (cs : List Char) :
    typedLine (Line.bytes cs) = .ok (String.ofList (Backspace.applied cs)) := by
  have hbytes : (⟨(Line.bytes cs).toArray⟩ : ByteArray) = (String.ofList cs).toUTF8 := by
    apply ByteArray.ext
    rw [Line.toUTF8_ofList, List.data_toByteArray]
  rw [typedLine, hbytes, decode_toUTF8]
  simp [Except.map]

/-- Lines that are texts are scanned one after the other. -/
theorem runLines_map {α : Type} {bytes : α → List UInt8} {typed : α → String}
    (htyped : ∀ x, typedLine (bytes x) = .ok (typed x)) (quiet : Bool) (written : Output)
    (lines : List α) :
    runLines quiet written (lines.map bytes) =
      ⟨.success, (lines.map typed).foldl
        (fun written source => written ++ (scanText source promptName quiet).1) written⟩ := by
  induction lines generalizing written with
  | nil => rfl
  | cons line lines ih =>
    rw [List.map_cons, runLines, htyped]
    exact ih _

/-- A run on the lines of a text scans what backspaces leave of them, one after the
other. -/
theorem runPrompt_toUTF8 (text : String) (quiet : Bool) :
    runPrompt text.toUTF8 quiet =
      ⟨.success, scanAll quiet ((Line.all text).map fun line =>
        String.ofList (Backspace.applied line.toList))⟩ := by
  have hbytes : text.toUTF8.data.toList = Line.bytes text.toList := by
    conv_lhs => rw [← String.ofList_toList (s := text)]
    rw [Line.toUTF8_ofList, List.data_toByteArray]
  rw [runPrompt, hbytes, Line.delivered_bytes, runLines_map typedLine_bytes, scanAll,
    Line.all, List.map_map]
  simp [Function.comp_def]

/-- Output that is begun goes on with the listings of the tokens of all texts. -/
theorem stdout_foldl_scanText (written : Output) (sources : List String) :
    (sources.foldl (fun written source => written ++ (scanText source promptName false).1)
      written).stdout =
      written.stdout ++ listing (sources.flatMap fun source => (tokenize source).tokens) := by
  induction sources generalizing written with
  | nil => simp [listing]
  | cons source sources ih =>
    have hscan : (written ++ (scanText source promptName false).1).stdout =
        written.stdout ++ listing (tokenize source).tokens := by
      rw [scanText_eq]
      rfl
    rw [List.foldl_cons, ih, hscan, List.flatMap_cons, listing_append, String.append_assoc]

/-- The standard output of scans one after the other is the listing of all their tokens. -/
theorem stdout_scanAll (sources : List String) :
    (scanAll false sources).stdout =
      listing (sources.flatMap fun source => (tokenize source).tokens) := by
  rw [scanAll, stdout_foldl_scanText]
  exact String.empty_append

end Command

/-! ## Lines of a listing -/

namespace Command

/-- The line that lists the end of a source. -/
def endText : String := "EOF  null"

/-- A listing without its lines for the ends of sources. -/
def withoutEnds (written : String) : String :=
  String.ofList (['\n'].intercalate
    ((written.toList.splitOn '\n').filter (· ≠ endText.toList)))

end Command

namespace Token

/-- The written form of a token has no newline if the token has none. -/
theorem newline_not_mem_text {t : Token} (h : t.Scanned) (hline : '\n' ∉ t.lexeme.toList) :
    '\n' ∉ t.text.toList := by
  have hname : '\n' ∉ t.kind.name.toList := t.kind.not_mem_name_of_isBlank rfl
  have hnull : '\n' ∉ "null".toList := by decide
  have hliteral : '\n' ∉ (t.literal.elim "null" Literal.text).toList := by
    rcases h with hwell | ⟨line, rfl⟩
    · rw [WellFormed] at hwell
      split at hwell
      · rw [hwell.2]
        exact hnull
      · rcases hwell with ⟨s, _, hlexeme, hliteral⟩
        rw [hliteral]
        intro hmem
        have hs : '\n' ∈ s.toList := hmem
        exact hline (by simp [hlexeme, hs])
      · rcases hwell with ⟨_, value, _, hliteral⟩
        rw [hliteral]
        intro hmem
        have hchar : isNumberChar '\n' :=
          Binary64.isNumberChar_of_mem_text (by simpa [Literal.text] using hmem)
        exact absurd hchar (by decide)
      · exact hwell.elim
    · exact hnull
  rw [toList_text]
  simp [hname, hline, hliteral]

/-- The tokens for the end are those that are listed as such. -/
theorem text_eq_endText_iff {t : Token} (h : t.Scanned) : t.text = Command.endText ↔ t.isEof := by
  have hend : Command.endText = (eof 1).text := by decide
  rw [hend, isEof, beq_iff_eq]
  constructor
  · intro htext
    have hlisted : t.text.toList ++ ['\n'] = (eof 1).text.toList ++ ['\n'] := by rw [htext]
    exact congrArg Prod.fst (text_append_inj h (.inr ⟨1, rfl⟩) hlisted).1
  · intro hkind
    exact text_eq_of_content_eq (h.content_of_kind_eof hkind)

end Token

namespace Command

/-- The lines of a listing of tokens on one line each. -/
theorem splitOn_listing {ts : List Token} (h : ∀ t ∈ ts, '\n' ∉ t.text.toList) :
    (listing ts).toList.splitOn '\n' = ts.map (fun t => t.text.toList) ++ [[]] := by
  rw [toList_listing]
  induction ts with
  | nil => rfl
  | cons t ts ih =>
    have ht := h t (by simp)
    have hts := ih fun t ht => h t (by simp [ht])
    rw [List.flatMap_cons, List.append_assoc, List.singleton_append,
      List.splitOn_append_cons_self_of_not_mem ht, hts]
    rfl

/-- Leaving out the lines for the ends of sources is leaving out the tokens for them. -/
theorem withoutEnds_listing {ts : List Token} (hts : ∀ t ∈ ts, t.Scanned)
    (hline : ∀ t ∈ ts, '\n' ∉ t.lexeme.toList) :
    withoutEnds (listing ts) = listing (ts.filter (!·.isEof)) := by
  have htext : ∀ t ∈ ts, '\n' ∉ t.text.toList := fun t ht =>
    Token.newline_not_mem_text (hts t ht) (hline t ht)
  have hends : ∀ t ∈ ts, decide (t.text.toList ≠ endText.toList) = !t.isEof := by
    intro t ht
    simp [String.toList_inj, Token.text_eq_endText_iff (hts t ht)]
  have hfilter : ((listing ts).toList.splitOn '\n').filter (· ≠ endText.toList) =
      (listing (ts.filter (!·.isEof))).toList.splitOn '\n' := by
    rw [splitOn_listing htext, splitOn_listing fun t ht => htext t (List.mem_of_mem_filter ht),
      List.filter_append, List.filter_map, ← List.filter_congr hends]
    rfl
  rw [withoutEnds, hfilter, List.intercalate_splitOn, String.ofList_toList]

/-! ## Line by line and at once -/

/-- Without the lines for their ends, the listings of texts of one line each are those of
the other tokens. -/
theorem withoutEnds_stdout_scanAll {sources : List String}
    (hline : ∀ source ∈ sources, '\n' ∉ source.toList) :
    withoutEnds (scanAll false sources).stdout =
      listing (sources.flatMap fun source => (tokenize source).proper) := by
  rw [stdout_scanAll, withoutEnds_listing, List.filter_flatMap]
  · rfl
  · intro t ht
    rcases List.mem_flatMap.mp ht with ⟨source, _, hmem⟩
    exact scanned_of_mem_tokens hmem
  · intro t ht hnewline
    rcases List.mem_flatMap.mp ht with ⟨source, hsource, hmem⟩
    rw [tokens_eq_proper_append] at hmem
    rcases List.mem_append.mp hmem with hproper | hend
    · exact hline source hsource (mem_toList_of_mem_lexeme hproper hnewline)
    · rw [List.mem_singleton.mp hend] at hnewline
      cases hnewline

/-- If the editor hands the lines on as they are, they are scanned one after the other. -/
theorem runPrompt_of_editor {text : String}
    (heditor : ∀ line ∈ Line.all text, Backspace.applied line.toList = line.toList)
    (quiet : Bool) : runPrompt text.toUTF8 quiet = ⟨.success, scanAll quiet (Line.all text)⟩ := by
  have hlines : (Line.all text).map (fun line =>
      String.ofList (Backspace.applied line.toList)) = Line.all text := by
    conv_rhs => rw [← List.map_id (Line.all text)]
    refine List.map_congr_left fun line hmem => ?_
    rw [heditor line hmem, String.ofList_toList, id]
  rw [runPrompt_toUTF8, hlines]

/-- The listings of the lines of a text, one after the other, are the listing of the text,
apart from the ends. -/
theorem withoutEnds_stdout_scanAll_append {text : String} (path : String)
    (hclosed : ∀ line ∈ Line.ended text,
      ∀ e ∈ (tokenize line).errors, e.cause ≠ .unterminatedString) :
    withoutEnds (scanAll false (Line.all text)).stdout ++ endText ++ "\n" =
      (runScript path (.ok text.toUTF8) false).output.stdout := by
  have hproper : listing ((Line.all text).flatMap fun line => (tokenize line).proper) =
      listing (tokenize text).proper := by
    apply listing_eq_of_map_content_eq
    rw [List.map_flatMap, map_content_eq_flatMap_all hclosed]
  have hend : ∀ line, listing [Token.eof line] = endText ++ "\n" := fun _ => rfl
  have hscript : (runScript path (.ok text.toUTF8) false).output.stdout =
      listing (tokenize text).tokens := by
    rw [runScript_toUTF8, scanText_eq]
    rfl
  rw [withoutEnds_stdout_scanAll fun _ => Line.newline_not_mem_of_mem_all, hproper, hscript,
    tokens_eq_proper_append, listing_append, hend, String.append_assoc]

/-- The lines of a text, one by one, and the whole text.  If no line that ends in a newline
leaves a string open, the tokens before the ends and the errors are the same, those of each
line are on the first line on its own and on the line of the text in the whole, and if the
editor hands the lines on as they are, the outputs are the same without the ends. -/
theorem runPrompt_agrees (text path : String)
    (hclosed : ∀ line ∈ Line.ended text,
      ∀ e ∈ (tokenize line).errors, e.cause ≠ .unterminatedString) :
    ((Line.all text).flatMap fun line => (tokenize line).proper.map Token.content) =
        (tokenize text).proper.map Token.content ∧
      ((Line.all text).flatMap fun line => (tokenize line).errors.map LexicalError.cause) =
        (tokenize text).errors.map LexicalError.cause ∧
      (∀ line ∈ Line.all text, (∀ t ∈ (tokenize line).tokens, t.line = 1) ∧
        ∀ e ∈ (tokenize line).errors, e.line = 1) ∧
      (tokenize text).proper = (((Line.all text).zipIdx 1).flatMap fun x =>
        (tokenize x.1).proper.map (Token.onLine x.2)) ∧
      (tokenize text).errors = (((Line.all text).zipIdx 1).flatMap fun x =>
        (tokenize x.1).errors.map (LexicalError.onLine x.2)) ∧
      ((∀ line ∈ Line.all text, Backspace.applied line.toList = line.toList) →
        runPrompt text.toUTF8 false = ⟨.success, scanAll false (Line.all text)⟩ ∧
        withoutEnds (runPrompt text.toUTF8 false).output.stdout ++ endText ++ "\n" =
          (runScript path (.ok text.toUTF8) false).output.stdout) := by
  refine ⟨(map_content_eq_flatMap_all hclosed).symm, (map_cause_eq_flatMap_all hclosed).symm, ?_,
    proper_eq_flatMap_all hclosed, errors_eq_flatMap_all hclosed, ?_⟩
  · intro line hmem
    exact line_eq_one (Line.newline_not_mem_of_mem_all hmem)
  · intro heditor
    have hrun := runPrompt_of_editor heditor false
    rw [hrun]
    exact ⟨rfl, withoutEnds_stdout_scanAll_append path hclosed⟩

/-- Four lines with different endings, an unexpected character, and a string that is left
open at the end of the text. -/
theorem runPrompt_agrees_over_lines :
    Line.all "1 // a\r\n\"x\" @\r\n2.\n\"y" = ["1 // a", "\"x\" @", "2.", "\"y"] ∧
      (tokenize "1 // a\r\n\"x\" @\r\n2.\n\"y").errors =
        [⟨.unexpectedCharacter '@', 2⟩, ⟨.unterminatedString, 4⟩] ∧
      withoutEnds (runPrompt "1 // a\r\n\"x\" @\r\n2.\n\"y".toUTF8 false).output.stdout ++
          endText ++ "\n" =
        "NUMBER 1 1.0\nSTRING \"x\" x\nNUMBER 2 2.0\nDOT . null\nEOF  null\n" := by
  have hall : Line.all "1 // a\r\n\"x\" @\r\n2.\n\"y" = ["1 // a", "\"x\" @", "2.", "\"y"] := by
    simp [Line.all, Line.delivered, before, after, dropEnd]
  have hended : Line.ended "1 // a\r\n\"x\" @\r\n2.\n\"y" = ["1 // a", "\"x\" @", "2."] := by
    rw [Line.ended, hall]
    decide
  have hclosed : ∀ line ∈ ["1 // a", "\"x\" @", "2."],
      ∀ e ∈ (tokenize line).errors, e.cause ≠ .unterminatedString := by
    decide +kernel
  have heditor : ∀ line ∈ ["1 // a", "\"x\" @", "2.", "\"y"], '\x08' ∉ line.toList := by
    decide
  rcases runPrompt_agrees "1 // a\r\n\"x\" @\r\n2.\n\"y" "lines.lox" (hended ▸ hclosed) with
    ⟨_, _, _, _, herrors, hrun⟩
  have hstdout := (hrun (hall ▸ fun line h => Backspace.applied_of_not_mem (heditor line h))).2
  refine ⟨hall, ?_, ?_⟩
  · rw [herrors, hall]
    decide +kernel
  · rw [hstdout]
    decide +kernel

end Command
end LoxScan
