import Mathlib.Data.List.Basic
import LoxScan.LexicalError
import LoxScan.Proofs.DiagnosticLayout
import LoxScan.Proofs.QuotedText

/-!
# LoxScan - Errors on one line

The text of an error has no control characters, so it stays on one line, whatever stands in
the numeral that it is about.  Nothing of such a numeral is lost: it is read back from the
text, together with the line.  Both hold for any table of printable characters that has no
control characters of ASCII.

Main definitions:

- `LexicalError.textBy`, the text of an error by a table of printable characters;
- `Cause.readMessage?` and `LexicalError.readText?`, which read errors about numerals back;
- `LexicalError.Legible`, what a way of writing errors has to meet.

Main results:

- Theorem `LexicalError.readText?_textBy_eq_some_iff`: errors about numerals are read back, and
  others are not taken for them.
- Theorem `LexicalError.text_legible`: the texts of errors meet the conditions.
-/

namespace LoxScan

variable {printable : Char → Bool}

/-! ## Messages -/

namespace Cause

/-- What went wrong, by a table of printable characters. -/
def messageBy (printable : Char → Bool) : Cause → String
  | malformedNumber token =>
    "error parsing number: " ++ String.ofList (Escape.quoteBy printable token.toList)
  | cause => cause.message

/-- The table of messages is that of the printable characters. -/
theorem messageBy_isPrintable (cause : Cause) : cause.messageBy isPrintable = cause.message := by
  cases cause with
  | malformedNumber token =>
    unfold messageBy message
    rw [Escape.quoteBy_isPrintable]
  | _ => rfl

/-- The cause about a numeral that a message shows. -/
def readMessage? (message : List Char) : Option Cause :=
  match ("error parsing number: ".toList.isPrefixOf? message).bind Escape.readQuote? with
  | some (token, []) => some (malformedNumber (String.ofList token))
  | _ => none

/-- A message about a numeral ends in the quoted numeral. -/
theorem toList_messageBy_malformedNumber (token : String) :
    ((malformedNumber token).messageBy printable).toList =
      "error parsing number: ".toList ++ Escape.quoteBy printable token.toList := by
  unfold messageBy
  simp only [String.toList_append, String.toList_ofList]

/-- A message about a numeral is read back. -/
theorem readMessage?_messageBy_malformedNumber (token : String) :
    readMessage? ((malformedNumber token).messageBy printable).toList =
      some (malformedNumber token) := by
  have hprefix : "error parsing number: ".toList.isPrefixOf?
      ((malformedNumber token).messageBy printable).toList =
        some (Escape.quoteBy printable token.toList) := by
    rw [List.isPrefixOf?_eq_some_iff_append_eq, toList_messageBy_malformedNumber]
  have hquote := Escape.readQuote?_quoteBy printable token.toList []
  rw [List.append_nil] at hquote
  rw [readMessage?, hprefix, Option.bind_some, hquote]
  simp only [String.ofList_toList]

/-- Messages about anything else are always the same two. -/
theorem messageBy_cases (printable : Char → Bool) (cause : Cause) :
    (∃ token, cause = malformedNumber token) ∨
      ((∀ token, cause ≠ malformedNumber token) ∧
        cause.messageBy printable ∈ ["Unexpected character.", "Unterminated string."]) := by
  cases cause with
  | unexpectedCharacter c => exact .inr ⟨by simp, .head _⟩
  | unterminatedString => exact .inr ⟨by simp, .tail _ (.head _)⟩
  | malformedNumber token => exact .inl ⟨token, rfl⟩

/-- What is read from a message is the cause, and it is about a numeral. -/
theorem readMessage?_messageBy_eq_some_iff {cause cause' : Cause} :
    readMessage? (cause.messageBy printable).toList = some cause' ↔
      cause = cause' ∧ ∃ token, cause = malformedNumber token := by
  rcases messageBy_cases printable cause with ⟨token, rfl⟩ | ⟨hcause, hmessage⟩
  · simp [readMessage?_messageBy_malformedNumber]
  · have hprefix : ∀ message ∈ ["Unexpected character.", "Unterminated string."],
        "error parsing number: ".toList.isPrefixOf? message.toList = none := by
      decide
    have hnone : readMessage? (cause.messageBy printable).toList = none := by
      rw [readMessage?, hprefix _ hmessage]
      rfl
    simp [hnone, hcause]

/-- A message has no control characters, if none of them counts as printable. -/
theorem not_isAsciiControl_of_mem_messageBy (h : ∀ c, isAsciiControl c → printable c = false)
    {cause : Cause} {c : Char} (hc : c ∈ (cause.messageBy printable).toList) :
    ¬ isAsciiControl c := by
  rcases messageBy_cases printable cause with ⟨token, rfl⟩ | ⟨-, hmessage⟩
  · have hfront : ∀ c ∈ "error parsing number: ".toList, ¬ isAsciiControl c :=
      List.any_eq_false.mp (by decide)
    rw [toList_messageBy_malformedNumber, List.mem_append] at hc
    rcases hc with hc | hc
    · exact hfront c hc
    · exact Escape.not_isAsciiControl_of_mem_quoteBy h hc
  · have hplain : ∀ message ∈ ["Unexpected character.", "Unterminated string."],
        message.toList.any isAsciiControl = false := by
      decide
    exact List.any_eq_false.mp (hplain _ hmessage) c hc

end Cause

/-! ## Errors -/

namespace LexicalError

/-- An error on one line, by a table of printable characters. -/
def textBy (printable : Char → Bool) (e : LexicalError) : String :=
  "[line " ++ e.line.toNat.repr ++ "] Error: " ++ e.cause.messageBy printable

/-- The table of error texts is that of the printable characters. -/
theorem textBy_isPrintable : textBy isPrintable = text := by
  funext e
  rw [textBy, text, Cause.messageBy_isPrintable]

/-- The text of an error in characters: the line, and the message. -/
theorem toList_textBy (e : LexicalError) : (e.textBy printable).toList =
    "[line ".toList ++ (e.line.toNat.repr.toList ++
      ("] Error: ".toList ++ (e.cause.messageBy printable).toList)) := by
  simp only [textBy, String.toList_append, List.append_assoc]

/-- The error about a numeral that a text shows. -/
def readText? (text : String) : Option LexicalError := do
  let numbered ← "[line ".toList.isPrefixOf? text.toList
  let message ← "] Error: ".toList.isPrefixOf? (numbered.dropWhile Char.isDigit)
  let cause ← Cause.readMessage? message
  return ⟨cause, UInt32.ofNat (Nat.ofDigitChars 10 (numbered.takeWhile Char.isDigit) 0)⟩

/-- The line is read back, and the cause is read from the message. -/
theorem readText?_textBy (e : LexicalError) : readText? (e.textBy printable) =
    (Cause.readMessage? (e.cause.messageBy printable).toList).map fun cause => ⟨cause, e.line⟩ := by
  have hdigits : ∀ c ∈ e.line.toNat.repr.toList, c.isDigit := fun c => isDigit_of_mem_repr
  have hstop : ∀ c ∈ ("] Error: ".toList ++ (e.cause.messageBy printable).toList).head?,
      ¬ c.isDigit := by
    intro c hc
    obtain rfl : ']' = c := Option.some.inj hc
    decide
  have hfront : "[line ".toList.isPrefixOf? (e.textBy printable).toList =
      some (e.line.toNat.repr.toList ++
        ("] Error: ".toList ++ (e.cause.messageBy printable).toList)) := by
    rw [List.isPrefixOf?_eq_some_iff_append_eq, toList_textBy]
  have hmiddle : "] Error: ".toList.isPrefixOf?
      ("] Error: ".toList ++ (e.cause.messageBy printable).toList) =
        some (e.cause.messageBy printable).toList :=
    List.isPrefixOf?_eq_some_iff_append_eq.mpr rfl
  rw [readText?, hfront]
  simp only [Option.bind_eq_bind, Option.bind_some, dropWhile_append_of_head hdigits hstop,
    takeWhile_append_of_head hdigits hstop, hmiddle, ofDigitChars_repr,
    UInt32.ofNat_toNat]
  cases Cause.readMessage? (e.cause.messageBy printable).toList <;> rfl

/-- Errors about numerals are read back, and others are not taken for them. -/
theorem readText?_textBy_eq_some_iff {e e' : LexicalError} :
    readText? (e.textBy printable) = some e' ↔
      e = e' ∧ ∃ token, e.cause = .malformedNumber token := by
  rcases e with ⟨cause, line⟩
  rcases e' with ⟨cause', line'⟩
  rw [readText?_textBy, Option.map_eq_some_iff]
  simp only [Cause.readMessage?_messageBy_eq_some_iff, LexicalError.mk.injEq]
  constructor
  · rintro ⟨_, ⟨rfl, hcause⟩, rfl, rfl⟩
    exact ⟨⟨rfl, rfl⟩, hcause⟩
  · rintro ⟨⟨rfl, rfl⟩, hcause⟩
    exact ⟨cause, ⟨rfl, hcause⟩, rfl, rfl⟩

/-- The text of an error has no control characters, if none of them counts as printable. -/
theorem not_isAsciiControl_of_mem_textBy (h : ∀ c, isAsciiControl c → printable c = false)
    {e : LexicalError} {c : Char} (hc : c ∈ (e.textBy printable).toList) : ¬ isAsciiControl c := by
  have hfront : ∀ c ∈ "[line ".toList, ¬ isAsciiControl c := List.any_eq_false.mp (by decide)
  have hmiddle : ∀ c ∈ "] Error: ".toList, ¬ isAsciiControl c := List.any_eq_false.mp (by decide)
  rw [toList_textBy, List.mem_append, List.mem_append, List.mem_append] at hc
  rcases hc with hc | hc | hc | hc
  · exact hfront c hc
  · exact fun hcontrol => not_isDigit_of_isAsciiControl hcontrol (isDigit_of_mem_repr hc)
  · exact hmiddle c hc
  · exact Cause.not_isAsciiControl_of_mem_messageBy h hc

/-- What a way of writing errors has to meet: errors stay on one line, and those about numerals
are read back. -/
structure Legible (write : LexicalError → String) : Prop where
  /-- There is no newline in the text of an error, and no other control character of ASCII. -/
  not_isAsciiControl : ∀ e, ∀ c ∈ (write e).toList, ¬ isAsciiControl c
  /-- Numeral and line are read back. -/
  readText?_malformedNumber : ∀ token line,
    readText? (write ⟨.malformedNumber token, line⟩) = some ⟨.malformedNumber token, line⟩
  /-- No other error has the text of an error about a numeral. -/
  eq_of_eq : ∀ e token line, write e = write ⟨.malformedNumber token, line⟩ →
    e = ⟨.malformedNumber token, line⟩

/-- A table without control characters gives texts on one line, which are read back. -/
theorem legible_textBy (h : ∀ c, isAsciiControl c → printable c = false) :
    Legible (textBy printable) := by
  have hread : ∀ token line, readText? (textBy printable ⟨.malformedNumber token, line⟩) =
      some ⟨.malformedNumber token, line⟩ :=
    fun token _ => readText?_textBy_eq_some_iff.mpr ⟨rfl, token, rfl⟩
  refine ⟨fun e c => not_isAsciiControl_of_mem_textBy h, hread, ?_⟩
  intro e token line heq
  have hother := hread token line
  rw [← heq] at hother
  exact (readText?_textBy_eq_some_iff.mp hother).1

/-- The printable characters have no control characters of ASCII. -/
theorem isPrintable_of_isAsciiControl {c : Char} (h : isAsciiControl c) : isPrintable c = false := by
  apply isPrintable_of_isControl
  simp only [isAsciiControl, isControl, Bool.or_eq_true, Bool.and_eq_true,
    decide_eq_true_eq] at h ⊢
  omega

/-- The text of an error has no newline and no other control character of ASCII, whatever the
error is about.  The numeral and the line of an error about a numeral are read back from it, so
that no other error has the same text.  The same holds for any other table of printable
characters that has no control characters of ASCII. -/
theorem text_legible :
    Legible text ∧ ∀ printable : Char → Bool,
      (∀ c, isAsciiControl c → printable c = false) → Legible (textBy printable) := by
  refine ⟨?_, fun printable => legible_textBy⟩
  rw [← textBy_isPrintable]
  exact legible_textBy fun c => isPrintable_of_isAsciiControl

/-- A newline is written as an escape, and text that looks like one is not. -/
example : text ⟨.malformedNumber "\\n\n", 7⟩ =
    "[line 7] Error: error parsing number: \"\\\\n\\n\"" := by
  decide +kernel

end LexicalError
end LoxScan
