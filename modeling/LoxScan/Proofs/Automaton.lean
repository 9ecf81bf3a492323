import LoxScan.Proofs.Steps

/-!
# LoxScan - Errors without looking ahead

To find the errors of a source it is enough to read it character by character and
to keep in mind one of four modes.  The characters that begin no piece are errors
where they are read outside strings and comments, and one more error follows if the
source ends inside a string.

Main definitions:

- `Mode` and `Mode.next`, the automaton;
- `Mode.rejected` and `Mode.after`, the characters that it finds unexpected and the
  mode in which it ends.

Main results:

- Theorem `Mode.causes_append`: passing a piece, the automaton finds the error that
  the piece is.
- Theorem `causes_eq_automaton`: the errors of a source are those of the automaton.
-/

namespace LoxScan

/-! ## The automaton -/

/-- What the characters read so far amount to. -/
inductive Mode
  | normal
  | afterSlash
  | inString
  | inComment
  deriving DecidableEq, Repr

namespace Mode

/-- The mode after one more character. -/
def next : Mode → Char → Mode
  | normal, c => if c = '"' then inString else if c = '/' then afterSlash else normal
  | afterSlash, c => if c = '"' then inString else if c = '/' then inComment else normal
  | inString, c => if c = '"' then normal else inString
  | inComment, c => if c = '\n' then normal else inComment

/-- The mode after a text. -/
def after (m : Mode) (cs : List Char) : Mode :=
  cs.foldl next m

/-- Whether a character that is read in a mode is unexpected. -/
def rejects (m : Mode) (c : Char) : Bool :=
  (m = normal || m = afterSlash) && !isExpected c

/-- The unexpected characters of a text, in order. -/
def rejected (m : Mode) : List Char → List Char
  | [] => []
  | c :: cs => if m.rejects c then c :: rejected (m.next c) cs else rejected (m.next c) cs

/-- The errors of a text: the unexpected characters, and the string that is not
closed. -/
def causes (m : Mode) (cs : List Char) : List Cause :=
  (m.rejected cs).map .unexpectedCharacter ++
    if m.after cs = inString then [.unterminatedString] else []

/-! ## Reading a text -/

/-- A character is unexpected, or it only changes the mode. -/
theorem causes_cons (m : Mode) (c : Char) (cs : List Char) :
    m.causes (c :: cs) =
      (if m.rejects c then [.unexpectedCharacter c] else []) ++ (m.next c).causes cs := by
  by_cases h : m.rejects c
  · simp only [causes, rejected, h, if_true, List.map_cons, List.cons_append, List.nil_append]
    rfl
  · simp only [causes, rejected, h]
    rfl

/-- Whether a text goes on after a mode as it would after the normal mode. -/
def Ready : Mode → List Char → Prop
  | normal, _ => True
  | afterSlash, cs => '/' ∉ cs.head?
  | inString, _ => False
  | inComment, cs => ∀ c ∈ cs.head?, c = '\n'

/-- A text that goes on as after the normal mode has the same errors. -/
theorem causes_of_ready {m : Mode} {cs : List Char} (h : m.Ready cs) :
    m.causes cs = normal.causes cs := by
  cases m with
  | normal => rfl
  | inString => exact h.elim
  | afterSlash =>
    cases cs with
    | nil => rfl
    | cons c cs =>
      have hc : c ≠ '/' := by simpa [Ready] using h
      simp [causes_cons, next, rejects, hc]
  | inComment =>
    cases cs with
    | nil => rfl
    | cons c cs =>
      -- The newline ends the comment, and is read again as in the normal mode.
      have hchar : c = '\n' := h c rfl
      subst hchar
      rfl

/-- A character that keeps the normal mode and is no error. -/
def Plain (c : Char) : Prop :=
  isExpected c ∧ c ≠ '"' ∧ c ≠ '/'

/-- A stretch of plain characters is passed. -/
theorem causes_append_of_plain {w : List Char} (rest : List Char) (h : ∀ c ∈ w, Plain c) :
    normal.causes (w ++ rest) = normal.causes rest := by
  induction w with
  | nil => rfl
  | cons c w ih =>
    rcases h c (by simp) with ⟨hexpected, hquote, hslash⟩
    have hw := ih fun d hd => h d (by simp [hd])
    simp [causes_cons, next, rejects, hexpected, hquote, hslash, hw]

/-- Inside a string everything but a quote is passed. -/
theorem causes_inString_append {body : List Char} (rest : List Char) (h : '"' ∉ body) :
    inString.causes (body ++ rest) = inString.causes rest := by
  induction body with
  | nil => rfl
  | cons c body ih =>
    obtain ⟨hc, hbody⟩ : '"' ≠ c ∧ '"' ∉ body := by simpa using h
    simp [causes_cons, next, rejects, hc.symm, ih hbody]

/-- Inside a comment everything but a newline is passed. -/
theorem causes_inComment_append {body : List Char} (rest : List Char) (h : '\n' ∉ body) :
    inComment.causes (body ++ rest) = inComment.causes rest := by
  induction body with
  | nil => rfl
  | cons c body ih =>
    obtain ⟨hc, hbody⟩ : '\n' ≠ c ∧ '\n' ∉ body := by simpa using h
    simp [causes_cons, next, rejects, hc.symm, ih hbody]

/-! ## Passing a piece -/

/-- Digits are plain. -/
theorem plain_of_isDigit {c : Char} (h : c.isDigit) : Plain c := by
  refine ⟨by simp [isExpected, h], ?_, ?_⟩ <;>
    · rintro rfl
      exact absurd h (by decide)

/-- Blanks are plain. -/
theorem plain_of_isBlank {c : Char} (h : isBlank c) : Plain c := by
  refine ⟨isExpected_of_isBlank h, ?_, ?_⟩ <;>
    · rintro rfl
      exact absurd h (by decide)

/-- The characters of a symbol other than the slash are plain. -/
theorem plain_of_mem_symbol {s : Symbol} (hs : s ≠ .slash) : ∀ c ∈ s.chars, Plain c := by
  intro c hc
  unfold Plain
  cases s <;> simp only [Symbol.chars, List.mem_cons, List.not_mem_nil, or_false] at hc
  case slash => exact (hs rfl).elim
  case bangEqual | equalEqual | greaterEqual | lessEqual =>
    rcases hc with rfl | rfl <;> decide
  all_goals
    subst hc
    decide

/-- The characters of a numeral are plain. -/
theorem plain_of_mem_numeral {n : Numeral} (hn : n.WellFormed) : ∀ c ∈ n.chars, Plain c := by
  intro c hc
  rcases Numeral.isDigit_or_eq_of_mem_chars hn hc with hdigit | rfl
  · exact plain_of_isDigit hdigit
  · unfold Plain
    decide

/-- Passing a piece, the automaton finds the error that the piece is, and goes on as
from the start. -/
theorem causes_append {p : Piece} {rest : List Char} (hp : p.WellFormed)
    (hstop : p.StopsAt rest) :
    normal.causes (p.chars ++ rest) = p.cause?.toList ++ normal.causes rest := by
  cases p with
  | blank c =>
    apply causes_append_of_plain rest
    intro d hd
    have hchar : d = c := by simpa [Piece.chars] using hd
    subst hchar
    exact plain_of_isBlank hp
  | comment body =>
    calc
      normal.causes ('/' :: '/' :: body ++ rest) = inComment.causes (body ++ rest) := rfl
      _ = inComment.causes rest := causes_inComment_append rest hp
      _ = normal.causes rest := causes_of_ready hstop
  | symbol s =>
    by_cases hs : s = .slash
    · subst hs
      have hready : afterSlash.Ready rest := hstop '/' rfl
      exact causes_of_ready hready
    · exact causes_append_of_plain rest (plain_of_mem_symbol hs)
  | string body =>
    calc
      normal.causes ('"' :: (body ++ ['"']) ++ rest) = inString.causes (body ++ '"' :: rest) := by
        simp [causes_cons, next, rejects, isExpected]
      _ = inString.causes ('"' :: rest) := causes_inString_append _ hp
      _ = normal.causes rest := rfl
  | number n => exact causes_append_of_plain rest (plain_of_mem_numeral hp)
  | unexpected c =>
    have hunexpected : isExpected c = false := eq_false_of_ne_true hp
    have hquote : c ≠ '"' := by
      rintro rfl
      exact hp (by decide)
    have hslash : c ≠ '/' := by
      rintro rfl
      exact hp (by decide)
    simp [Piece.chars, Piece.cause?, causes_cons, next, rejects, hunexpected, hquote, hslash]
  | unterminated body =>
    have hempty : rest = [] := hstop
    subst hempty
    calc
      normal.causes ('"' :: body ++ []) = inString.causes (body ++ []) := rfl
      _ = inString.causes [] := causes_inString_append [] hp
      _ = [.unterminatedString] ++ normal.causes [] := rfl

/-- The automaton finds the errors that pieces are, if they fit together. -/
theorem causes_flatMap_chars {ps : List Piece} (h : Piece.Fit ps) :
    normal.causes (ps.flatMap Piece.chars) = ps.filterMap Piece.cause? := by
  induction ps with
  | nil => rfl
  | cons p ps ih =>
    rcases h with ⟨hp, hstop, hrest⟩
    rw [List.flatMap_cons, causes_append hp hstop, ih hrest, List.filterMap_cons]
    cases p.cause? <;> rfl

/-- There is at most one unterminated string. -/
theorem count_unterminatedString_causes_le (m : Mode) (cs : List Char) :
    (m.causes cs).count .unterminatedString ≤ 1 := by
  have hnone : ((m.rejected cs).map Cause.unexpectedCharacter).count .unterminatedString = 0 := by
    rw [List.count_eq_zero]
    simp
  rw [causes, List.count_append, hnone]
  split <;> simp

/-- An unterminated string is the last error. -/
theorem unterminatedString_not_mem_dropLast_causes (m : Mode) (cs : List Char) :
    .unterminatedString ∉ (m.causes cs).dropLast := by
  intro hmem
  rw [causes] at hmem
  split at hmem
  · simp at hmem
  · have := List.dropLast_subset _ hmem
    simp at this

/-- The automaton finds no error about a numeral. -/
theorem malformedNumber_not_mem_causes (m : Mode) (cs : List Char) (token : String) :
    .malformedNumber token ∉ m.causes cs := by
  rw [causes]
  split <;> simp

end Mode

/-! ## The errors of a source -/

/-- The errors of a source are those of the automaton: one for each unexpected
character, in order, and then one for a string that is not closed.  So there is at
most one error of the latter kind, and it is the last one; and no error is about a
numeral. -/
theorem causes_eq_automaton (source : String) :
    (tokenize source).errors.map LexicalError.cause =
        (Mode.normal.rejected source.toList).map .unexpectedCharacter ++
          (if Mode.normal.after source.toList = .inString then [.unterminatedString] else []) ∧
      ((tokenize source).errors.map LexicalError.cause).count .unterminatedString ≤ 1 ∧
      (∀ e ∈ (tokenize source).errors.dropLast, e.cause ≠ .unterminatedString) ∧
      ∀ e ∈ (tokenize source).errors, ∀ token, e.cause ≠ .malformedNumber token := by
  have hcauses : (tokenize source).errors.map LexicalError.cause =
      Mode.normal.causes source.toList := by
    have hfit := Mode.causes_flatMap_chars (Piece.fit_ofText source.toList)
    rw [causes_tokenize, ← hfit, Piece.flatMap_chars_ofText]
  refine ⟨hcauses, ?_, ?_, ?_⟩
  · rw [hcauses]
    exact Mode.count_unterminatedString_causes_le _ _
  · intro e he
    have hmem : e.cause ∈ (Mode.normal.causes source.toList).dropLast := by
      rw [← hcauses, ← List.map_dropLast]
      exact List.mem_map_of_mem he
    intro hcause
    rw [hcause] at hmem
    exact Mode.unterminatedString_not_mem_dropLast_causes _ _ hmem
  · intro e he token hcause
    have hmem : e.cause ∈ Mode.normal.causes source.toList := by
      rw [← hcauses]
      exact List.mem_map_of_mem he
    rw [hcause] at hmem
    exact Mode.malformedNumber_not_mem_causes _ _ _ hmem

end LoxScan
