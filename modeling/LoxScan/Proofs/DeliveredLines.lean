import Mathlib.Data.List.Basic
import LoxScan.Text.Line

/-!
# LoxScan - The lines of encoded text

The lines of an input are cut off before it is known to be text.  As no byte of a longer
character is that of a newline or of a carriage return, the lines of the bytes of a text
are the bytes of the lines of the text.

Main definitions:

- `Line.all` and `Line.ended`, the lines of a text that a reader delivers, and those of
  them that end in a newline;
- `Line.bytes`, the bytes of a text.

Main results:

- Theorem `Line.mem_utf8EncodeChar_iff`: an ASCII character does not occur in the bytes of
  another one.
- Theorem `Line.delivered_bytes`: the lines of the bytes of a text.
-/

namespace LoxScan

/-! ## A list cut at an element -/

section Cut

variable {α : Type} [DecidableEq α] {x : α}

/-- The lines of a list that has a newline, cut after the first one. -/
theorem Line.delivered_append_cons {newline carriageReturn : α} {xs : List α}
    (h : newline ∉ xs) (rest : List α) :
    delivered newline carriageReturn (xs ++ newline :: rest) =
      dropEnd carriageReturn xs :: delivered newline carriageReturn rest := by
  rw [delivered, if_pos (by simp), before_append_cons h, after_append_cons h]

/-- No line that is delivered has a newline. -/
theorem Line.not_mem_of_mem_delivered {newline carriageReturn : α} {xs line : List α}
    (h : line ∈ delivered newline carriageReturn xs) : newline ∉ line := by
  fun_induction delivered newline carriageReturn xs with
  | case1 xs _ ih =>
    rcases List.mem_cons.mp h with rfl | hrest
    · exact fun hmem => not_mem_before newline xs (mem_of_mem_dropEnd hmem)
    · exact ih hrest
  | case2 _ => cases h
  | case3 xs hxs _ =>
    obtain rfl := List.mem_singleton.mp h
    exact hxs

end Cut

namespace Line

/-! ## The lines of a text -/

/-- The lines of a text as a reader delivers them. -/
def all (text : String) : List String :=
  (delivered '\n' '\r' text.toList).map String.ofList

/-- Those of them that end in a newline.  The last line may end with the text. -/
def ended (text : String) : List String :=
  (all text).take (text.toList.count '\n')

/-- No line of a text has a newline. -/
theorem newline_not_mem_of_mem_all {text line : String} (h : line ∈ all text) :
    '\n' ∉ line.toList := by
  rcases List.mem_map.mp h with ⟨cs, hcs, rfl⟩
  rw [String.toList_ofList]
  exact not_mem_of_mem_delivered hcs

/-- A line that ends with the text keeps a carriage return. -/
example : all "a\r\nb\r\r\n\nc\r" = ["a", "b\r", "", "c\r"] ∧
    ended "a\r\nb\r\r\n\nc\r" = ["a", "b\r", ""] := by
  simp [all, ended, delivered, before, after, dropEnd]

/-! ## Bytes -/

/-- The bytes of a text in UTF-8. -/
def bytes (cs : List Char) : List UInt8 :=
  cs.flatMap String.utf8EncodeChar

/-- They are what the encoding of a text holds. -/
theorem toUTF8_ofList (cs : List Char) : (String.ofList cs).toUTF8 = (bytes cs).toByteArray :=
  rfl

/-- The bytes of two texts in a row. -/
theorem bytes_append (xs ys : List Char) : bytes (xs ++ ys) = bytes xs ++ bytes ys :=
  List.flatMap_append

/-- An ASCII character is a single byte. -/
theorem utf8EncodeChar_of_lt {c : Char} (h : c.toNat < 128) :
    String.utf8EncodeChar c = [UInt8.ofNat c.toNat] := by
  have hvalue : c.val.toNat ≤ 127 := Nat.le_of_lt_succ h
  rw [String.utf8EncodeChar]
  exact if_pos hvalue

/-- All bytes of any other character have their highest bit set. -/
theorem le_toNat_of_mem_utf8EncodeChar {c : Char} {b : UInt8} (h : 128 ≤ c.toNat)
    (hb : b ∈ String.utf8EncodeChar c) : 128 ≤ b.toNat := by
  have hvalue : ¬ c.val.toNat ≤ 127 := Nat.not_le_of_lt h
  simp only [String.utf8EncodeChar, if_neg hvalue] at hb
  split at hb
  · simp only [List.mem_cons, List.not_mem_nil, or_false] at hb
    rcases hb with rfl | rfl <;> (rw [UInt8.toNat_ofNat']; omega)
  split at hb
  · simp only [List.mem_cons, List.not_mem_nil, or_false] at hb
    rcases hb with rfl | rfl | rfl <;> (rw [UInt8.toNat_ofNat']; omega)
  · simp only [List.mem_cons, List.not_mem_nil, or_false] at hb
    rcases hb with rfl | rfl | rfl | rfl <;> (rw [UInt8.toNat_ofNat']; omega)

/-- The byte of an ASCII character does not occur in any other character. -/
theorem mem_utf8EncodeChar_iff {a c : Char} (ha : a.toNat < 128) :
    UInt8.ofNat a.toNat ∈ String.utf8EncodeChar c ↔ c = a := by
  have hbyte : (UInt8.ofNat a.toNat).toNat = a.toNat := by
    rw [UInt8.toNat_ofNat']
    omega
  constructor
  · intro h
    by_cases hc : c.toNat < 128
    · rw [utf8EncodeChar_of_lt hc, List.mem_singleton, ← UInt8.toNat_inj, hbyte,
        UInt8.toNat_ofNat'] at h
      apply Char.toNat_inj.mp
      omega
    · have hle := le_toNat_of_mem_utf8EncodeChar (Nat.not_lt.mp hc) h
      omega
  · rintro rfl
    rw [utf8EncodeChar_of_lt ha]
    exact List.mem_singleton_self _

/-- The byte of an ASCII character occurs in a text exactly if the character does. -/
theorem mem_bytes_iff {a : Char} (ha : a.toNat < 128) {cs : List Char} :
    UInt8.ofNat a.toNat ∈ bytes cs ↔ a ∈ cs := by
  simp [bytes, List.mem_flatMap, mem_utf8EncodeChar_iff ha]

/-- A text loses an ASCII character at its end exactly if its bytes lose the byte. -/
theorem dropEnd_bytes {a : Char} (ha : a.toNat < 128) (cs : List Char) :
    dropEnd (UInt8.ofNat a.toNat) (bytes cs) = bytes (dropEnd a cs) := by
  rcases List.eq_nil_or_concat cs with rfl | ⟨front, c, rfl⟩
  · rfl
  by_cases hc : c = a
  · subst hc
    rw [List.concat_eq_append, bytes_append, bytes, bytes, List.flatMap_singleton,
      utf8EncodeChar_of_lt ha]
    simp [dropEnd, bytes]
  · -- The last byte is one of another character.
    have hlast : (bytes (front ++ [c])).getLast? ≠ some (UInt8.ofNat a.toNat) := by
      rw [bytes_append, bytes, bytes, List.flatMap_singleton,
        List.getLast?_append_of_ne_nil _ (String.utf8EncodeChar_ne_nil)]
      exact fun h => hc ((mem_utf8EncodeChar_iff ha).mp (List.mem_of_getLast? h))
    rw [List.concat_eq_append, dropEnd, if_neg hlast, dropEnd, if_neg (by simpa using hc)]

/-- The lines of the bytes of a text are the bytes of its lines. -/
theorem delivered_bytes (cs : List Char) :
    delivered 10 13 (bytes cs) = (delivered '\n' '\r' cs).map bytes := by
  have hmem : ∀ w : List Char, 10 ∈ bytes w ↔ '\n' ∈ w :=
    fun _ => mem_bytes_iff (a := '\n') (by decide)
  have hreturn : ∀ w : List Char, dropEnd 13 (bytes w) = bytes (dropEnd '\r' w) :=
    dropEnd_bytes (a := '\r') (by decide)
  fun_induction delivered '\n' '\r' cs with
  | case1 cs h ih =>
    have hcut : bytes cs = bytes (before '\n' cs) ++ 10 :: bytes (after '\n' cs) := by
      conv_lhs => rw [← before_append_cons_after h]
      rw [bytes_append, bytes, bytes, List.flatMap_cons]
      rfl
    have hfront : 10 ∉ bytes (before '\n' cs) := by
      rw [hmem]
      exact not_mem_before '\n' cs
    rw [hcut, delivered_append_cons hfront, ih, hreturn, List.map_cons]
  | case2 h =>
    rw [delivered]
    rfl
  | case3 cs h hne =>
    have hbytes : bytes cs ≠ [] := by
      rcases List.exists_cons_of_ne_nil hne with ⟨c, cs, rfl⟩
      exact List.append_ne_nil_of_left_ne_nil String.utf8EncodeChar_ne_nil _
    rw [delivered, if_neg (by rwa [hmem]), if_neg hbytes]
    rfl

end Line
end LoxScan
