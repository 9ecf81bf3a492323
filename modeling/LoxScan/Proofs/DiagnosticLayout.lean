import Mathlib.Data.List.Basic
import LoxScan.Proofs.EscapeReading
import LoxScan.Proofs.LineLookup

/-!
# LoxScan - The layout of diagnostics

A diagnostic ends in two lines whose bars stand below each other: an empty one with a gutter,
and the line of the source behind its number.  They are there whatever is said above them,
which may have newlines of its own.  Read from its end, a diagnostic tells the number of the
line, and then what was said of the cause, which tells the cause.

Main definitions:

- `Cause.heading`, what a diagnostic says of a cause, and `Cause.newlines`, the newlines of it;
- `LexicalError.lastLine`, the last line of a diagnostic.

Main results:

- Theorem `LexicalError.toList_diagnostic`: the four parts of a diagnostic.
- Theorem `Cause.heading_injective`: what is said of a cause tells the cause.
- Theorem `LexicalError.tailOf_diagnostic`: the last line of a diagnostic.
- Theorem `LexicalError.diagnostic_layout`: the lines of a diagnostic, and that it tells the
  error.
-/

namespace LoxScan

/-! ## Lines and numbers -/

namespace Line

/-- What is written behind a newline without another one is the last line. -/
theorem tailOf_append_newline_cons (front : List Char) {last : List Char} (h : '\n' ∉ last) :
    tailOf (front ++ '\n' :: last) = last := by
  have hreverse : '\n' ∉ last.reverse := by simpa using h
  rw [tailOf, List.reverse_append, List.reverse_cons, List.append_assoc, List.singleton_append,
    before_append_cons hreverse, List.reverse_reverse]

/-- The text of a line has no newline. -/
theorem not_mem_of_nth?_eq_some {source text : List Char} {line : UInt32}
    (h : nth? source line = some text) : '\n' ∉ text := by
  rw [nth?] at h
  split at h
  · cases h
  · rcases Option.map_eq_some_iff.mp h with ⟨rest, _, rfl⟩
    exact fun hmem => not_mem_before '\n' rest (mem_of_mem_dropEnd hmem)

end Line

/-- A written number has digits only. -/
theorem isDigit_of_mem_repr {n : Nat} {c : Char} (h : c ∈ n.repr.toList) : c.isDigit := by
  rw [Nat.repr_eq_ofList_toDigits, String.toList_ofList] at h
  exact Nat.isDigit_of_mem_toDigits (by decide) (by decide) h

/-- A character that is no digit does not stand in a written number. -/
theorem not_mem_repr_of_not_isDigit {c : Char} (hc : ¬ c.isDigit) (n : Nat) :
    c ∉ n.repr.toList :=
  fun h => hc (isDigit_of_mem_repr h)

/-- A written number is read back. -/
theorem ofDigitChars_repr (n : Nat) : Nat.ofDigitChars 10 n.repr.toList 0 = n := by
  rw [Nat.repr_eq_ofList_toDigits, String.toList_ofList, Nat.ofDigitChars_ten_toDigits]

/-! ## What is said of a cause -/

namespace Cause

/-- What a diagnostic says of a cause: its name, and between parentheses what may help. -/
def heading (cause : Cause) : List Char :=
  "Error: ".toList ++ (cause.name.toList ++ ' ' :: '(' :: (cause.tip.toList ++ [')']))

/-- The newlines in what is said of a cause.  Only the text of a numeral may have any. -/
def newlines : Cause → Nat
  | malformedNumber token => token.toList.count '\n'
  | _ => 0

@[simp]
theorem name_unexpectedCharacter (c : Char) :
    (unexpectedCharacter c).name = "UnexpectedCharacter" :=
  rfl

@[simp]
theorem name_unterminatedString : unterminatedString.name = "UnterminatedString" :=
  rfl

@[simp]
theorem name_malformedNumber (token : String) :
    (malformedNumber token).name = "NumberParseError" :=
  rfl

/-- No name has a newline or a space. -/
theorem not_mem_name (cause : Cause) : '\n' ∉ cause.name.toList ∧ ' ' ∉ cause.name.toList := by
  have hnames : ∀ name ∈ ["UnexpectedCharacter", "UnterminatedString", "NumberParseError"],
      '\n' ∉ name.toList ∧ ' ' ∉ name.toList := by
    decide
  apply hnames
  cases cause <;> simp

/-- What may help says what the cause is about, between two texts that are always the same. -/
theorem toList_tip_unexpectedCharacter (c : Char) : (unexpectedCharacter c).tip.toList =
    "`".toList ++ (Escape.ascii c ++ "` does not start any token".toList) := by
  unfold tip
  simp only [String.toList_append, String.toList_ofList, List.append_assoc]

/-- The text of a numeral stands between two texts that are always the same. -/
theorem toList_tip_malformedNumber (token : String) : (malformedNumber token).tip.toList =
    "Invalid number: `".toList ++ (token.toList ++ "`".toList) := by
  unfold tip
  simp only [String.toList_append, List.append_assoc]

/-- The newlines of what may help. -/
theorem count_newline_tip (cause : Cause) : cause.tip.toList.count '\n' = cause.newlines := by
  have hquote : "`".toList.count '\n' = 0 := by decide
  cases cause with
  | unexpectedCharacter c =>
    have hescaped := List.count_eq_zero.mpr (Escape.newline_not_mem_ascii c)
    have hrest : "` does not start any token".toList.count '\n' = 0 := by decide
    rw [toList_tip_unexpectedCharacter, List.count_append, List.count_append, hquote, hescaped,
      hrest]
    rfl
  | unterminatedString => decide
  | malformedNumber token =>
    have hfront : "Invalid number: `".toList.count '\n' = 0 := by decide
    rw [toList_tip_malformedNumber, List.count_append, List.count_append, hfront, hquote,
      Nat.zero_add, Nat.add_zero]
    rfl

/-- The newlines of a heading. -/
theorem count_newline_heading (cause : Cause) : cause.heading.count '\n' = cause.newlines := by
  have hfront : "Error: ".toList.count '\n' = 0 := by decide
  have hname := List.count_eq_zero.mpr cause.not_mem_name.1
  have hclose : [')'].count '\n' = 0 := by decide
  have hopen : ∀ cs : List Char, (' ' :: '(' :: cs).count '\n' = cs.count '\n' := by
    intro cs
    rw [List.count_cons_of_ne (by decide), List.count_cons_of_ne (by decide)]
  unfold heading
  rw [List.count_append, List.count_append, hfront, hname, hopen, List.count_append, hclose,
    count_newline_tip]
  omega

/-- Causes of different kinds have different names. -/
theorem eq_of_name_eq_of_tip_eq {cause cause' : Cause} (hname : cause.name = cause'.name)
    (htip : cause.tip.toList = cause'.tip.toList) : cause = cause' := by
  cases cause with
  | unexpectedCharacter c =>
    cases cause' with
    | unexpectedCharacter d =>
      rw [toList_tip_unexpectedCharacter, toList_tip_unexpectedCharacter] at htip
      rw [(Escape.ascii_append_inj (List.append_cancel_left htip)).1]
    | _ => simp at hname
  | unterminatedString =>
    cases cause' with
    | unterminatedString => rfl
    | _ => simp at hname
  | malformedNumber token =>
    cases cause' with
    | malformedNumber token' =>
      rw [toList_tip_malformedNumber, toList_tip_malformedNumber] at htip
      have htoken := List.append_cancel_right (List.append_cancel_left htip)
      rw [String.toList_inj.mp htoken]
    | _ => simp at hname

/-- What is said of a cause tells the cause: the name ends at the first space. -/
theorem heading_injective : Function.Injective heading := by
  intro cause cause' h
  rcases append_cons_inj_of_not_mem cause.not_mem_name.2 cause'.not_mem_name.2
    (List.append_cancel_left h) with ⟨hname, hrest⟩
  have htip := List.append_cancel_right (List.cons.inj hrest).2
  exact eq_of_name_eq_of_tip_eq (String.toList_inj.mp hname) htip

end Cause

/-! ## The parts of a diagnostic -/

namespace LexicalError

/-- The last line of a diagnostic: the number of the line, a bar, and the line. -/
def lastLine (e : LexicalError) (source : String) : List Char :=
  e.line.toNat.repr.toList ++ ' ' :: '|' :: ' ' :: (e.shownLine source).toList

/-- A diagnostic says what the cause is, then names the file, and then shows the line below a
gutter. -/
theorem toList_diagnostic (e : LexicalError) (source file : String) :
    (e.diagnostic source file).toList =
      e.cause.heading ++ '\n' :: ("-> ".toList ++ (file.toList ++ '\n' ::
        (e.gutter.toList ++ '\n' :: e.lastLine source))) := by
  have hopen : " (".toList = [' ', '('] := rfl
  have hclose : ")\n".toList = [')', '\n'] := rfl
  have hnewline : "\n".toList = ['\n'] := rfl
  have hbar : " | ".toList = [' ', '|', ' '] := rfl
  unfold diagnostic Cause.heading lastLine
  simp only [String.toList_append, hopen, hclose, hnewline, hbar, List.append_assoc,
    List.cons_append, List.nil_append]

/-- A line is shown on one line. -/
theorem newline_not_mem_shownLine (e : LexicalError) (source : String) :
    '\n' ∉ (e.shownLine source).toList := by
  rw [shownLine, String.toList_ofList]
  intro h
  have hline := (trimEnd_front _).subset h
  cases hnth : Line.nth? source.toList e.line with
  | none => simp [hnth] at hline
  | some text =>
    rw [hnth, Option.getD_some] at hline
    exact Line.not_mem_of_nth?_eq_some hnth hline

/-- The last line has no newline. -/
theorem newline_not_mem_lastLine (e : LexicalError) (source : String) :
    '\n' ∉ e.lastLine source := by
  have hnumber := not_mem_repr_of_not_isDigit (c := '\n') (by decide) e.line.toNat
  rw [lastLine, List.mem_append, not_or]
  exact ⟨hnumber, by simp [e.newline_not_mem_shownLine source]⟩

/-- The gutter has no newline. -/
theorem newline_not_mem_gutter (e : LexicalError) : '\n' ∉ e.gutter.toList := by
  simp [gutter]

/-- What follows the last newline of a diagnostic. -/
theorem tailOf_diagnostic (e : LexicalError) (source file : String) :
    Line.tailOf (e.diagnostic source file).toList = e.lastLine source := by
  have happend : (e.diagnostic source file).toList = (e.cause.heading ++ '\n' :: ("-> ".toList ++
      (file.toList ++ '\n' :: e.gutter.toList))) ++ '\n' :: e.lastLine source := by
    simp [toList_diagnostic]
  rw [happend, Line.tailOf_append_newline_cons _ (e.newline_not_mem_lastLine source)]

/-- The bar of the gutter stands in the column of the first bar of the last line. -/
theorem toList_gutter (e : LexicalError) (source : String) :
    e.gutter.toList = List.replicate ((e.lastLine source).idxOf '|') ' ' ++ ['|'] := by
  have hnumber := not_mem_repr_of_not_isDigit (c := '|') (by decide) e.line.toNat
  have hcolumn : (e.lastLine source).idxOf '|' = e.line.toNat.repr.length + 1 := by
    rw [lastLine, List.idxOf_append_of_notMem hnumber, String.length_toList]
    rfl
  rw [gutter, String.toList_ofList, hcolumn]

/-- The last line tells the number of the line: it ends at the first space. -/
theorem line_eq_of_lastLine_eq {e e' : LexicalError} {source : String}
    (h : e.lastLine source = e'.lastLine source) : e.line = e'.line := by
  have hspace := not_mem_repr_of_not_isDigit (c := ' ') (by decide)
  have hnumber := (append_cons_inj_of_not_mem (hspace _) (hspace _) h).1
  apply UInt32.toNat_inj.mp
  rw [← ofDigitChars_repr e.line.toNat, hnumber, ofDigitChars_repr]

/-- A diagnostic tells the error.  Its last line tells the line, and with it all that stands
below the cause. -/
theorem eq_of_diagnostic_eq {e e' : LexicalError} {source file : String}
    (h : e.diagnostic source file = e'.diagnostic source file) : e = e' := by
  have hlast : e.lastLine source = e'.lastLine source := by
    rw [← e.tailOf_diagnostic source file, h, tailOf_diagnostic]
  have hline := line_eq_of_lastLine_eq hlast
  have hgutter : e.gutter = e'.gutter := by rw [gutter, gutter, hline]
  have hlist := congrArg String.toList h
  rw [toList_diagnostic, toList_diagnostic, hlast, hgutter] at hlist
  have hcause := Cause.heading_injective (List.append_cancel_right hlist)
  cases e
  cases e'
  simp_all

end LexicalError

/-- The lines of a diagnostic, whatever the error is: apart from the newlines in the name of
the file, and in the text of a numeral, there are three.  The last line is the number of the
line, a bar and the line of the source without white space at its end, or nothing if there is
no such line; the line above it is blank up to a bar in the same column.  For a source and a
file, only one error has the diagnostic. -/
theorem LexicalError.diagnostic_layout (e : LexicalError) (source file : String) :
    (e.diagnostic source file).toList.count '\n' =
      3 + file.toList.count '\n' + e.cause.newlines ∧
    (∃ front gutter last, (e.diagnostic source file).toList =
        front ++ '\n' :: (gutter ++ '\n' :: last) ∧
      '\n' ∉ gutter ∧ '\n' ∉ last ∧
      last = e.line.toNat.repr.toList ++ " | ".toList ++
        trimEnd ((sourceLine? source e.line).getD "").toList ∧
      gutter = List.replicate (last.idxOf '|') ' ' ++ ['|']) ∧
    ∀ e' : LexicalError, e'.diagnostic source file = e.diagnostic source file ↔ e' = e := by
  refine ⟨?_, ?_, ?_⟩
  · have hgutter := List.count_eq_zero.mpr e.newline_not_mem_gutter
    have hlast := List.count_eq_zero.mpr (e.newline_not_mem_lastLine source)
    simp only [toList_diagnostic, List.count_append, List.count_cons_self, hgutter, hlast,
      Cause.count_newline_heading]
    have harrow : "-> ".toList.count '\n' = 0 := by decide
    omega
  · refine ⟨e.cause.heading ++ '\n' :: ("-> ".toList ++ file.toList), e.gutter.toList,
      e.lastLine source, ?_, e.newline_not_mem_gutter, e.newline_not_mem_lastLine source, ?_,
      e.toList_gutter source⟩
    · simp [toList_diagnostic]
    · have hshown : (e.shownLine source).toList =
          trimEnd ((sourceLine? source e.line).getD "").toList := by
        rw [shownLine, sourceLine?, String.toList_ofList]
        cases Line.nth? source.toList e.line with
        | none => rfl
        | some text => simp
      rw [← hshown, lastLine]
      simp
  · intro e'
    constructor
    · exact eq_of_diagnostic_eq
    · rintro rfl
      rfl

end LoxScan
