import Mathlib.Data.List.Basic
import LoxScan.Number.Binary64

/-!
# LoxScan - The characters of written numbers

A number is written with digits, a point, a sign and an exponent, or with the letters of a
word if it is infinite or no number.  Blanks are not among these characters.

Main definitions:

- `isNumberChar`, the characters that written numbers have.

Main results:

- Theorem `Decimal.isNumberChar_of_mem_text` and `Binary64.isNumberChar_of_mem_text`: written
  numbers have no other characters.
-/

namespace LoxScan

/-- Whether a character may stand in a written number. -/
def isNumberChar (c : Char) : Bool :=
  c.isDigit || c ∈ ['.', '-', 'e', 'i', 'n', 'f', 'N', 'a']

/-- Digits may stand in a written number. -/
theorem isNumberChar_of_isDigit {c : Char} (h : c.isDigit) : isNumberChar c := by
  simp [isNumberChar, h]

namespace Decimal

/-- The digits of a natural number may stand in a written number. -/
theorem isNumberChar_of_mem_toDigits {n : Nat} {c : Char} (h : c ∈ Nat.toDigits 10 n) :
    isNumberChar c :=
  isNumberChar_of_isDigit (Nat.isDigit_of_mem_toDigits (by decide) (by decide) h)

/-- The significant digits of a decimal may stand in a written number. -/
theorem isNumberChar_of_mem_significantDigits {d : Decimal} {c : Char}
    (h : c ∈ d.significantDigits) : isNumberChar c := by
  have hmem : c ∈ (Nat.toDigits 10 d.coefficient).reverse.dropWhile (· = '0') := by
    simpa [significantDigits] using h
  have hdigit : c ∈ (Nat.toDigits 10 d.coefficient).reverse :=
    (List.dropWhile_sublist _).subset hmem
  exact isNumberChar_of_mem_toDigits (List.mem_reverse.mp hdigit)

/-- The characters of a decimal with a point. -/
theorem mem_positional {digits : List Char} {place : Int} {c : Char}
    (h : c ∈ positional digits place) : c ∈ digits ∨ c = '0' ∨ c = '.' := by
  unfold positional at h
  split at h
  · simp only [List.cons_append, List.mem_cons, List.mem_append, List.mem_replicate] at h
    rcases h with rfl | rfl | ⟨_, rfl⟩ | hdigit
    · simp
    · simp
    · simp
    · exact .inl hdigit
  · simp only [List.mem_append, List.mem_cons, List.mem_replicate] at h
    rcases h with (hfront | ⟨_, rfl⟩) | rfl | hback
    · exact .inl (List.mem_of_mem_take hfront)
    · simp
    · simp
    · split at hback
      · simp only [List.mem_singleton] at hback
        exact .inr (.inl hback)
      · exact .inl (List.mem_of_mem_drop hback)

/-- The characters of an exponent. -/
theorem mem_exponentDigits {e : Int} {c : Char} (h : c ∈ exponentDigits e) :
    c = '-' ∨ c ∈ Nat.toDigits 10 e.natAbs := by
  unfold exponentDigits at h
  split at h
  · exact List.mem_cons.mp h
  · exact .inr h

/-- The characters of a decimal with an exponent. -/
theorem mem_scientific {digits : List Char} {exponent : Int} {c : Char}
    (h : c ∈ scientific digits exponent) :
    c ∈ digits ∨ c = '.' ∨ c = 'e' ∨ c ∈ exponentDigits exponent := by
  simp only [scientific, List.mem_append, List.mem_cons] at h
  rcases h with (hfirst | hmiddle) | rfl | hexponent
  · exact .inl (List.mem_of_mem_take hfirst)
  · split at hmiddle
    · cases hmiddle
    · rcases List.mem_cons.mp hmiddle with rfl | hdigit
      · simp
      · exact .inl (List.mem_of_mem_drop hdigit)
  · simp
  · exact .inr (.inr (.inr hexponent))

/-- A written decimal has no other characters than those of numbers. -/
theorem isNumberChar_of_mem_text {layout : Layout} {d : Decimal} {c : Char}
    (h : c ∈ d.text layout) : isNumberChar c := by
  unfold text at h
  split at h
  · simp only [List.mem_cons, List.not_mem_nil, or_false] at h
    rcases h with rfl | rfl | rfl <;> decide
  simp only at h
  split at h
  · rcases mem_positional h with hdigit | rfl | rfl
    · exact isNumberChar_of_mem_significantDigits hdigit
    · decide
    · decide
  · rcases mem_scientific h with hdigit | rfl | rfl | hexponent
    · exact isNumberChar_of_mem_significantDigits hdigit
    · decide
    · decide
    · rcases mem_exponentDigits hexponent with rfl | hdigit
      · decide
      · exact isNumberChar_of_mem_toDigits hdigit

end Decimal

/-- A written number has no other characters than those of numbers. -/
theorem Binary64.isNumberChar_of_mem_text {layout : Layout} {x : Binary64} {c : Char}
    (h : c ∈ x.text layout) : isNumberChar c := by
  have hwords : ∀ d ∈ "NaN".toList ++ "inf".toList, isNumberChar d :=
    List.all_eq_true.mp (by decide)
  unfold text at h
  split at h
  · exact hwords c (List.mem_append_left _ h)
  have hsign : c ∈ (if x.isNegative then ['-'] else []) → isNumberChar c := by
    intro hmem
    split at hmem
    · obtain rfl := List.mem_singleton.mp hmem
      decide
    · cases hmem
  simp only at h
  split at h
  · rcases List.mem_append.mp h with hmem | hmem
    · exact hsign hmem
    · exact hwords c (List.mem_append_right _ hmem)
  · rcases List.mem_append.mp h with hmem | hmem
    · exact hsign hmem
    · exact Decimal.isNumberChar_of_mem_text hmem

end LoxScan
