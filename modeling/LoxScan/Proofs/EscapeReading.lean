import Mathlib.Tactic.Common
import LoxScan.Text.Escape
import LoxScan.Text.Split

/-!
# LoxScan - Reading escaped characters

An escaped character is read back from the front of a text, whatever follows it: the first
two characters tell how it is written, and a closing brace ends the digits of a code point.
So no two characters are escaped in the same way.

Main definitions:

- `isAsciiControl`, the control characters of ASCII;
- `Escape.hexValue`, the value of hexadecimal digits;
- `Escape.read?`, the character that is escaped at the front of a text.

Main results:

- Theorem `Escape.hexValue_toDigits`: the digits of a number are read back.
- Theorem `Escape.read?_ascii`: an escaped character is read back.
- Theorem `Escape.newline_not_mem_ascii`: an escaped character is on one line.
-/

namespace LoxScan

/-- The control characters of ASCII. -/
def isAsciiControl (c : Char) : Bool :=
  c.toNat < 0x20 || c.toNat = 0x7F

/-- A control character is no digit. -/
theorem not_isDigit_of_isAsciiControl {c : Char} (h : isAsciiControl c) : ¬ c.isDigit := by
  have hzero : '0'.toNat = 48 := rfl
  have hnine : '9'.toNat = 57 := rfl
  rw [Char.isDigit_iff_toNat]
  simp only [isAsciiControl, Bool.or_eq_true, decide_eq_true_eq] at h
  omega

namespace Escape

/-! ## Hexadecimal digits -/

/-- The value of a hexadecimal digit. -/
def hexDigit (c : Char) : Nat :=
  if c.isDigit then c.toNat - '0'.toNat else c.toNat - 'a'.toNat + 10

/-- The value of hexadecimal digits. -/
def hexValue (cs : List Char) : Nat :=
  cs.foldl (fun n c => 16 * n + hexDigit c) 0

/-- Every value below sixteen has a digit. -/
theorem hexDigit_digitChar : ∀ n < 16, hexDigit n.digitChar = n := by
  decide

/-- The digits of a number are those of its front, and one more. -/
theorem hexValue_append_singleton (cs : List Char) (c : Char) :
    hexValue (cs ++ [c]) = 16 * hexValue cs + hexDigit c := by
  simp [hexValue]

/-- A number is read back from its digits. -/
theorem hexValue_toDigits (n : Nat) : hexValue (Nat.toDigits 16 n) = n := by
  induction n using Nat.strongRecOn with
  | ind n ih =>
    rw [Nat.toDigits_eq_if (by decide)]
    split
    · rename_i hsmall
      simp [hexValue, hexDigit_digitChar n hsmall]
    · rw [hexValue_append_singleton, ih (n / 16) (by omega),
        hexDigit_digitChar _ (Nat.mod_lt n (by decide))]
      omega

/-- The digits of a number are digits of values below sixteen. -/
theorem exists_digitChar_of_mem_toDigits {n : Nat} {c : Char} (h : c ∈ Nat.toDigits 16 n) :
    ∃ d < 16, d.digitChar = c := by
  induction n using Nat.strongRecOn with
  | ind n ih =>
    rw [Nat.toDigits_eq_if (by decide)] at h
    split at h
    · rename_i hsmall
      exact ⟨n, hsmall, (List.mem_singleton.mp h).symm⟩
    · rcases List.mem_append.mp h with hfront | hlast
      · exact ih (n / 16) (by omega) hfront
      · exact ⟨n % 16, Nat.mod_lt n (by decide), (List.mem_singleton.mp hlast).symm⟩

/-- No digit is a closing brace. -/
theorem brace_not_mem_toDigits (n : Nat) : '}' ∉ Nat.toDigits 16 n := by
  intro h
  rcases exists_digitChar_of_mem_toDigits h with ⟨d, _, hd⟩
  exact Nat.digitChar_ne '}' rfl hd

/-- No digit is a control character. -/
theorem not_isAsciiControl_of_mem_toDigits {n : Nat} {c : Char} (h : c ∈ Nat.toDigits 16 n) :
    ¬ isAsciiControl c := by
  have hdigits : ∀ d < 16, ¬ isAsciiControl d.digitChar := by decide
  rcases exists_digitChar_of_mem_toDigits h with ⟨d, hlt, rfl⟩
  exact hdigits d hlt

/-! ## Escaped characters -/

/-- The character that is escaped at the front of a text, and the text after it. -/
def read? : List Char → Option (Char × List Char)
  | '\\' :: 'u' :: '{' :: cs => some (Char.ofNat (hexValue (before '}' cs)), after '}' cs)
  | '\\' :: '0' :: cs => some ('\x00', cs)
  | '\\' :: 't' :: cs => some ('\t', cs)
  | '\\' :: 'r' :: cs => some ('\r', cs)
  | '\\' :: 'n' :: cs => some ('\n', cs)
  | '\\' :: c :: cs => some (c, cs)
  | c :: cs => some (c, cs)
  | [] => none

/-- A character is read back from its code point. -/
theorem read?_codePoint (c : Char) (rest : List Char) :
    read? (codePoint c ++ rest) = some (c, rest) := by
  have hbrace := brace_not_mem_toDigits c.toNat
  have htext : codePoint c ++ rest =
      '\\' :: 'u' :: '{' :: (Nat.toDigits 16 c.toNat ++ '}' :: rest) := by
    simp [codePoint]
  rw [htext, read?, before_append_cons hbrace, after_append_cons hbrace, hexValue_toDigits,
    Char.ofNat_toNat]

/-- A character that is not a backslash stands for itself. -/
theorem read?_cons {c : Char} (h : c ≠ '\\') (rest : List Char) :
    read? (c :: rest) = some (c, rest) := by
  unfold read?
  split <;> simp_all

/-- A character is read back from its form in printable characters. -/
theorem read?_ascii (c : Char) (rest : List Char) : read? (ascii c ++ rest) = some (c, rest) := by
  unfold ascii
  split
  · rfl
  · rfl
  · rfl
  · rfl
  · rfl
  · rfl
  · rename_i hbackslash
    split
    · exact read?_cons hbackslash rest
    · exact read?_codePoint c rest

/-- A code point is written without control characters. -/
theorem not_isAsciiControl_of_mem_codePoint {c d : Char} (h : d ∈ codePoint c) :
    ¬ isAsciiControl d := by
  rw [codePoint, List.mem_append, List.mem_append, List.mem_singleton] at h
  rcases h with (hfront | hdigit) | rfl
  · exact List.any_eq_false.mp (by decide) d hfront
  · exact not_isAsciiControl_of_mem_toDigits hdigit
  · decide

/-- An escaped character is on one line. -/
theorem newline_not_mem_ascii (c : Char) : '\n' ∉ ascii c := by
  unfold ascii
  split
  · decide
  · decide
  · decide
  · decide
  · decide
  · decide
  · split
    · rename_i hprintable
      rw [List.mem_singleton]
      rintro rfl
      exact absurd hprintable.1 (by decide)
    · exact fun h => not_isAsciiControl_of_mem_codePoint h (by decide)

/-- Escaped characters in front of texts are the same only if the characters and the texts
are. -/
theorem ascii_append_inj {c d : Char} {xs ys : List Char} (h : ascii c ++ xs = ascii d ++ ys) :
    c = d ∧ xs = ys := by
  have hread := congrArg read? h
  rw [read?_ascii, read?_ascii] at hread
  exact Prod.mk.inj (Option.some.inj hread)

/-- A text gets shorter when a character is read. -/
theorem length_lt_of_read? {cs rest : List Char} {c : Char} (h : read? cs = some (c, rest)) :
    rest.length < cs.length := by
  unfold read? at h
  split at h
  · rename_i tail
    obtain ⟨-, rfl⟩ := Prod.mk.inj (Option.some.inj h)
    have hle := length_after_le '}' tail
    simp only [List.length_cons]
    omega
  all_goals grind

end Escape
end LoxScan
