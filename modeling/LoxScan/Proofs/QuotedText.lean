import LoxScan.Proofs.EscapeReading

/-!
# LoxScan - Quoted texts

A text between quotes is read back, whatever follows it: character by character, up to the
first quote that is not escaped.  Backslashes and quotes of the text are escaped, so nothing
in it is taken for an escape or for the end.  It does not matter which other characters are
escaped by their code points, and so all of this is said of any table of printable characters.

Main definitions:

- `Escape.quotedBy` and `Escape.quoteBy`, quoted texts by a table of printable characters;
- `Escape.readQuote?`, the text between quotes at the front of a text.

Main results:

- Theorem `Escape.quotedBy_cases`: the ways of writing a character in a quoted text.
- Theorem `Escape.readQuote?_quoteBy`: a quoted text is read back.
- Theorem `Escape.not_isAsciiControl_of_mem_quoteBy`: a quoted text has no control characters.
-/

namespace LoxScan
namespace Escape

/-! ## Writing -/

/-- A character inside a quoted text, by a table of printable characters. -/
def quotedBy (printable : Char → Bool) (c : Char) : List Char :=
  match c with
  | '\x00' => ['\\', '0']
  | '\t' => ['\\', 't']
  | '\r' => ['\\', 'r']
  | '\n' => ['\\', 'n']
  | '"' => ['\\', '"']
  | '\\' => ['\\', '\\']
  | c => if printable c then [c] else codePoint c

/-- A text between quotes, by a table of printable characters. -/
def quoteBy (printable : Char → Bool) (cs : List Char) : List Char :=
  '"' :: cs.flatMap (quotedBy printable) ++ ['"']

/-- The table of quoted texts is that of the printable characters. -/
theorem quoteBy_isPrintable : quoteBy isPrintable = quote :=
  rfl

variable {printable : Char → Bool}

/-- The characters that are escaped by a single one, and that one. -/
def shortForms : List (Char × Char) :=
  [('\x00', '0'), ('\t', 't'), ('\r', 'r'), ('\n', 'n'), ('"', '"'), ('\\', '\\')]

/-- A character in a quoted text has a short form, or stands for itself, or is written by its
code point. -/
theorem quotedBy_cases (printable : Char → Bool) (c : Char) :
    (∃ d, (c, d) ∈ shortForms ∧ quotedBy printable c = ['\\', d]) ∨
      (c ≠ '"' ∧ c ≠ '\\' ∧ printable c ∧ quotedBy printable c = [c]) ∨
      quotedBy printable c = codePoint c := by
  unfold quotedBy
  split
  · exact .inl ⟨_, by decide, rfl⟩
  · exact .inl ⟨_, by decide, rfl⟩
  · exact .inl ⟨_, by decide, rfl⟩
  · exact .inl ⟨_, by decide, rfl⟩
  · exact .inl ⟨_, by decide, rfl⟩
  · exact .inl ⟨_, by decide, rfl⟩
  · rename_i hquote hbackslash
    split
    · rename_i hprintable
      exact .inr (.inl ⟨hquote, hbackslash, hprintable, rfl⟩)
    · exact .inr (.inr rfl)

/-- A character is read back from a quoted text. -/
theorem read?_quotedBy (printable : Char → Bool) (c : Char) (rest : List Char) :
    read? (quotedBy printable c ++ rest) = some (c, rest) := by
  rcases quotedBy_cases printable c with ⟨d, hd, hform⟩ | ⟨-, hbackslash, -, hform⟩ | hform
  · have hshort : ∀ p ∈ shortForms, read? ('\\' :: p.2 :: rest) = some (p.1, rest) := by
      simp [shortForms, read?]
    rw [hform]
    exact hshort _ hd
  · rw [hform]
    exact read?_cons hbackslash rest
  · rw [hform]
    exact read?_codePoint c rest

/-- No character in a quoted text begins with a quote. -/
theorem exists_cons_eq_quotedBy (printable : Char → Bool) (c : Char) :
    ∃ d ds, quotedBy printable c = d :: ds ∧ d ≠ '"' := by
  rcases quotedBy_cases printable c with ⟨d, -, hform⟩ | ⟨hquote, -, -, hform⟩ | hform
  · exact ⟨_, _, hform, by decide⟩
  · exact ⟨_, _, hform, hquote⟩
  · exact ⟨_, _, hform, by decide⟩

/-- A character in a quoted text is written without control characters, if none of them counts
as printable. -/
theorem not_isAsciiControl_of_mem_quotedBy (h : ∀ c, isAsciiControl c → printable c = false)
    {c d : Char} (hd : d ∈ quotedBy printable c) : ¬ isAsciiControl d := by
  rcases quotedBy_cases printable c with ⟨e, he, hform⟩ | ⟨-, -, hprintable, hform⟩ | hform
  · have hshort : ∀ p ∈ shortForms, ['\\', p.2].any isAsciiControl = false := by decide
    rw [hform] at hd
    exact List.any_eq_false.mp (hshort _ he) d hd
  · rw [hform] at hd
    obtain rfl := List.mem_singleton.mp hd
    intro hcontrol
    rw [h d hcontrol] at hprintable
    cases hprintable
  · rw [hform] at hd
    exact not_isAsciiControl_of_mem_codePoint hd

/-- A quoted text has no control characters, if none of them counts as printable. -/
theorem not_isAsciiControl_of_mem_quoteBy (h : ∀ c, isAsciiControl c → printable c = false)
    {cs : List Char} {d : Char} (hd : d ∈ quoteBy printable cs) : ¬ isAsciiControl d := by
  have hquote : ¬ isAsciiControl '"' := by decide
  rw [quoteBy, List.mem_append, List.mem_cons, List.mem_flatMap, List.mem_singleton] at hd
  rcases hd with (rfl | ⟨c, -, hd⟩) | rfl
  · exact hquote
  · exact not_isAsciiControl_of_mem_quotedBy h hd
  · exact hquote

/-! ## Reading -/

/-- The text up to the next quote that is not escaped, and what follows the quote. -/
def readQuoted? (cs : List Char) : Option (List Char × List Char) :=
  match cs with
  | [] => none
  | '"' :: rest => some ([], rest)
  | d :: ds =>
    match _h : read? (d :: ds) with
    | none => none
    | some (c, rest) => (readQuoted? rest).map fun (body, rest) => (c :: body, rest)
termination_by cs.length
decreasing_by exact length_lt_of_read? ‹_›

/-- The text between quotes at the front of a text, and what follows the quotes. -/
def readQuote? : List Char → Option (List Char × List Char)
  | '"' :: cs => readQuoted? cs
  | _ => none

/-- Before the closing quote, one character is read after the other. -/
theorem readQuoted?_quotedBy_append (printable : Char → Bool) (c : Char) (cs : List Char) :
    readQuoted? (quotedBy printable c ++ cs) =
      (readQuoted? cs).map fun (body, rest) => (c :: body, rest) := by
  rcases exists_cons_eq_quotedBy printable c with ⟨d, ds, hcons, hquote⟩
  have hread := read?_quotedBy printable c cs
  rw [hcons, List.cons_append] at hread ⊢
  rw [readQuoted?]
  · rw [hread]
  · exact hquote

/-- A quoted text is read back, whatever follows it. -/
theorem readQuote?_quoteBy (printable : Char → Bool) (cs rest : List Char) :
    readQuote? (quoteBy printable cs ++ rest) = some (cs, rest) := by
  have hbody : readQuoted? (cs.flatMap (quotedBy printable) ++ '"' :: rest) = some (cs, rest) := by
    induction cs with
    | nil => rw [List.flatMap_nil, List.nil_append, readQuoted?]
    | cons c cs ih =>
      rw [List.flatMap_cons, List.append_assoc, readQuoted?_quotedBy_append, ih, Option.map_some]
  rw [← hbody, quoteBy]
  simp [readQuote?]

end Escape
end LoxScan
