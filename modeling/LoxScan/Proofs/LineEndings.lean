import LoxScan.Diagnostic
import LoxScan.Proofs.Rewriting

/-!
# LoxScan - Line endings made the same

A line may end in a newline, or in a carriage return and a newline.  If all the pairs
become newlines, a scan finds the same, but for the strings in which a line ends; and
every diagnostic shows the same text, although the lines of the source are not the same
where more than one carriage return stands before a newline.

Main definitions:

- `Line.unify`, a text with newlines in place of the pairs;
- `Token.unified`, a token whose text and value are changed in this way if it is a string.

Main results:

- Theorem `Line.unify_append_of_not_mem`: what becomes of a text without newlines depends
  on whether a newline follows.
- Theorem `Line.trimEnd_nth?_unify`: a line, without white space at its end, is the same.
- Theorem `tokenize_unified`: tokens, errors and diagnostics of the changed source.
-/

namespace LoxScan

/-! ## White space at the end -/

/-- An element at the front stays there if it is not the one at the end. -/
theorem dropEnd_cons_of_ne {α : Type} [DecidableEq α] {x y : α} (h : y ≠ x) (xs : List α) :
    dropEnd x (y :: xs) = y :: dropEnd x xs := by
  cases xs with
  | nil => simp [dropEnd, h]
  | cons z xs =>
    rw [dropEnd, dropEnd, List.getLast?_cons_cons, List.dropLast_cons_cons]
    split <;> rfl

/-- A carriage return at the end is white space that is trimmed. -/
theorem trimEnd_dropEnd (cs : List Char) : trimEnd (dropEnd '\r' cs) = trimEnd cs := by
  unfold dropEnd
  split
  · rename_i hlast
    rcases List.getLast?_eq_some_iff.mp hlast with ⟨front, rfl⟩
    have hspace : isWhiteSpace '\r' = true := by decide
    simp [trimEnd, hspace]
  · rfl

/-! ## Pairs of a carriage return and a newline -/

namespace Line

/-- A text with a newline in place of each pair of a carriage return and a newline. -/
def unify : List Char → List Char
  | '\r' :: '\n' :: cs => '\n' :: unify cs
  | c :: cs => c :: unify cs
  | [] => []

@[simp]
theorem unify_nil : unify [] = [] :=
  rfl

/-- A carriage return is left out right before a newline, and nothing else is. -/
theorem unify_cons (c : Char) (cs : List Char) :
    unify (c :: cs) = if c = '\r' ∧ '\n' ∈ cs.head? then unify cs else c :: unify cs := by
  rw [unify.eq_def]
  split
  · rename_i cs' heq
    obtain ⟨rfl, rfl⟩ := List.cons.inj heq
    simp [unify]
  · rename_i d ds hpair heq
    obtain ⟨rfl, rfl⟩ := List.cons.inj heq
    rw [if_neg]
    rintro ⟨rfl, hhead⟩
    rcases List.head?_eq_some_iff.mp hhead with ⟨cs', rfl⟩
    exact hpair cs' rfl rfl
  · rename_i heq
    cases heq

/-- What becomes of a text whose first character is no carriage return. -/
theorem unify_cons_of_ne {c : Char} (h : c ≠ '\r') (cs : List Char) :
    unify (c :: cs) = c :: unify cs := by
  rw [unify_cons, if_neg]
  exact fun hpair => h hpair.1

/-- The changed text is a part of the text. -/
theorem unify_sublist (cs : List Char) : (unify cs).Sublist cs := by
  induction cs with
  | nil => exact .slnil
  | cons c cs ih =>
    rw [unify_cons]
    split
    · exact ih.cons c
    · exact ih.cons_cons c

/-- A text and the changed one agree up to a newline. -/
theorem agreesUntilBlank_unify (cs : List Char) : AgreesUntilBlank cs (unify cs) := by
  induction cs with
  | nil => exact .nil _
  | cons c cs ih =>
    rw [unify_cons]
    split
    · rename_i hpair
      rcases hpair with ⟨rfl, hhead⟩
      rcases List.head?_eq_some_iff.mp hhead with ⟨cs', rfl⟩
      rw [unify_cons_of_ne (by decide)]
      exact .blank _ _ (by decide) (by decide)
    · exact ih.cons c

/-- A text without newlines before another text: it only loses a carriage return at its
end if the other text begins with a newline. -/
theorem unify_append_of_not_mem {w : List Char} (h : '\n' ∉ w) (rest : List Char) :
    unify (w ++ rest) = (if '\n' ∈ rest.head? then dropEnd '\r' w else w) ++ unify rest := by
  induction w with
  | nil => simp [dropEnd]
  | cons c w ih =>
    have hw := ih fun hmem => h (List.mem_cons_of_mem c hmem)
    rw [List.cons_append, unify_cons, hw]
    cases w with
    | nil =>
      by_cases hhead : '\n' ∈ rest.head?
      · by_cases hc : c = '\r'
        · simp [hhead, hc, dropEnd]
        · simp [hhead, hc, dropEnd]
      · simp [hhead]
    | cons d w =>
      have hd : d ≠ '\n' := by
        rintro rfl
        exact h (by simp)
      have hnext : ¬ (c = '\r' ∧ '\n' ∈ (d :: w ++ rest).head?) := by
        rintro ⟨_, hhead⟩
        exact hd (by simpa using hhead)
      rw [if_neg hnext]
      split <;> simp [dropEnd, List.getLast?_cons_cons]
      split <;> simp

/-- A text without newlines does not change. -/
theorem unify_of_not_mem {w : List Char} (h : '\n' ∉ w) : unify w = w := by
  simpa using unify_append_of_not_mem h []

/-- Two texts in a row change apart from each other, unless a pair stands across the place
where they meet. -/
theorem unify_append {xs ys : List Char}
    (h : ¬ (xs.getLast? = some '\r' ∧ '\n' ∈ ys.head?)) :
    unify (xs ++ ys) = unify xs ++ unify ys := by
  induction xs with
  | nil => rfl
  | cons c xs ih =>
    cases xs with
    | nil =>
      have hc : ¬ (c = '\r' ∧ '\n' ∈ ys.head?) := by simpa using h
      rw [List.singleton_append, unify_cons, if_neg hc]
      simp [unify]
    | cons d xs =>
      rw [List.getLast?_cons_cons] at h
      rw [List.cons_append, unify_cons, unify_cons c (d :: xs), ih h]
      by_cases hpair : c = '\r' ∧ d = '\n' <;> simp [hpair]

/-- Newlines are kept. -/
theorem count_newline_unify (cs : List Char) : (unify cs).count '\n' = cs.count '\n' := by
  induction cs with
  | nil => rfl
  | cons c cs ih =>
    rw [unify_cons]
    split
    · rename_i hpair
      simp [ih, hpair.1]
    · rw [List.count_cons, List.count_cons, ih]

/-! ## Lines of the changed text -/

/-- Skipping lines leaves the changed rest. -/
theorem skip?_unify (n : Nat) (cs : List Char) : skip? n (unify cs) = (skip? n cs).map unify := by
  induction cs generalizing n with
  | nil => cases n <;> rfl
  | cons c cs ih =>
    cases n with
    | zero => simp [skip?]
    | succ n =>
      rw [unify_cons, skip?]
      split
      · rename_i hpair
        simp [ih, hpair.1]
      · rw [skip?, ih, ih]
        split <;> rfl

/-- The front of a changed text up to a newline, without white space at its end. -/
theorem trimEnd_before_unify (cs : List Char) :
    trimEnd (before '\n' (unify cs)) = trimEnd (before '\n' cs) := by
  by_cases h : '\n' ∈ cs
  · have hfree := not_mem_before '\n' cs
    have hdropped : '\n' ∉ dropEnd '\r' (before '\n' cs) := fun hmem =>
      hfree (mem_of_mem_dropEnd hmem)
    have hunify : unify cs = dropEnd '\r' (before '\n' cs) ++ '\n' :: unify (after '\n' cs) := by
      have happend := unify_append_of_not_mem hfree ('\n' :: after '\n' cs)
      rw [before_append_cons_after h, unify_cons_of_ne (by decide)] at happend
      simpa using happend
    rw [hunify, before_append_cons hdropped, trimEnd_dropEnd]
  · rw [unify_of_not_mem h]

/-- A line of a changed text, without white space at its end, is that of the text. -/
theorem trimEnd_nth?_unify (cs : List Char) (line : UInt32) :
    (nth? (unify cs) line).map trimEnd = (nth? cs line).map trimEnd := by
  rw [nth?, nth?]
  split
  · rfl
  · rw [skip?_unify, Option.map_map, Option.map_map, Option.map_map]
    congr 1
    funext rest
    simp only [Function.comp_apply, trimEnd_dropEnd, trimEnd_before_unify]

end Line

/-- A source with a newline in place of each pair of a carriage return and a newline. -/
def unified (source : String) : String :=
  String.ofList (Line.unify source.toList)

/-! ## Pieces of the changed text -/

namespace Piece

/-- What becomes of a piece before a text.  A carriage return right before a newline is left
out, and it may be the end of a comment. -/
def unified? : Piece → List Char → Option Piece
  | blank c, rest => if c = '\r' ∧ '\n' ∈ rest.head? then none else some (blank c)
  | comment body, rest => some (comment (if '\n' ∈ rest.head? then dropEnd '\r' body else body))
  | string body, _ => some (string (Line.unify body))
  | unterminated body, _ => some (unterminated (Line.unify body))
  | p, _ => some p

/-- A string changes inside its quotes. -/
theorem unify_chars_string (body : List Char) :
    Line.unify (string body).chars = (string (Line.unify body)).chars := by
  have hclose : Line.unify (body ++ ['"']) = Line.unify body ++ ['"'] :=
    Line.unify_append (by simp)
  rw [chars, Line.unify_cons_of_ne (by decide), hclose, chars]

/-- A text without the characters of line endings does not change, whatever follows it. -/
theorem unify_append_of_plain {w : List Char} (hnewline : '\n' ∉ w) (hreturn : '\r' ∉ w)
    (rest : List Char) : Line.unify (w ++ rest) = w ++ Line.unify rest := by
  rw [Line.unify_append, Line.unify_of_not_mem hnewline]
  exact fun hpair => hreturn (List.mem_of_getLast? hpair.1)

/-- The text of what becomes of a piece comes first in the changed text. -/
theorem unify_chars_append {p : Piece} (hp : p.WellFormed) {rest : List Char}
    (hstop : p.StopsAt rest) :
    Line.unify (p.chars ++ rest) = (p.unified? rest).elim [] chars ++ Line.unify rest := by
  cases p with
  | blank c =>
    rw [chars_blank, List.singleton_append, Line.unify_cons, unified?]
    split <;> rfl
  | comment body =>
    have hbody : '\n' ∉ body := hp
    have hslashes : dropEnd '\r' ('/' :: '/' :: body) = '/' :: '/' :: dropEnd '\r' body := by
      rw [dropEnd_cons_of_ne (by decide), dropEnd_cons_of_ne (by decide)]
    rw [chars, Line.unify_append_of_not_mem (by simpa using hbody), hslashes]
    simp only [unified?, Option.elim_some, chars]
    split <;> rfl
  | symbol s => exact unify_append_of_plain (by cases s <;> decide) (by cases s <;> decide) rest
  | string body =>
    have hlast : (string body).chars.getLast? = some '"' := by
      rw [chars, ← List.cons_append, List.getLast?_concat]
    rw [Line.unify_append (by simp [hlast]), unify_chars_string]
    rfl
  | number n =>
    exact unify_append_of_plain (Numeral.not_mem_chars hp (by decide) (by decide))
      (Numeral.not_mem_chars hp (by decide) (by decide)) rest
  | unexpected c =>
    have hreturn : c ≠ '\r' := by
      rintro rfl
      exact hp (by decide)
    exact Line.unify_cons_of_ne hreturn rest
  | unterminated body =>
    have hempty : rest = [] := hstop
    subst hempty
    rw [List.append_nil, chars, Line.unify_cons_of_ne (by decide)]
    simp [unified?, chars]

/-- The changed text of pieces that fit together is the text of what becomes of them. -/
theorem unify_flatMap_chars {ps : List Piece} (hfit : Fit ps) :
    Line.unify (ps.flatMap chars) = (rewrite unified? ps).flatMap chars := by
  induction ps with
  | nil => rfl
  | cons p ps ih =>
    rw [List.flatMap_cons, unify_chars_append hfit.1 hfit.2.1, ih hfit.2.2,
      flatMap_chars_rewrite_cons]

end Piece

/-! ## Tokens and errors of the changed text -/

/-- A value whose text is changed if it is a string. -/
def Literal.unified : Literal → Literal
  | string s => string (LoxScan.unified s)
  | number value => number value

/-- A token whose source text and value are changed if it is a string. -/
def Token.unified (t : Token) : Token :=
  if t.kind = .string then
    { t with lexeme := LoxScan.unified t.lexeme, literal := t.literal.map Literal.unified }
  else
    t

/-- An event with its token changed. -/
def Event.unified : Event → Event
  | token t => token t.unified
  | error e => error e

namespace Piece

/-- A string stays a string, with its text changed. -/
theorem event?_string_unify (body : List Char) (start stop : UInt32) :
    (string (Line.unify body)).event? start stop =
      ((string body).event? start stop).map Event.unified := by
  simp [event?, Event.unified, Token.unified, Literal.unified, LoxScan.unified,
    unify_chars_string]

/-- Changing line endings rewrites texts piece by piece. -/
theorem rewrites_unified : Rewrites unified? (some ∘ Event.unified) where
  wellFormed := by
    intro p q rest hp hq
    cases p with
    | blank c =>
      rw [unified?] at hq
      split at hq
      · cases hq
      · obtain rfl := Option.some.inj hq
        exact hp
    | comment body =>
      obtain rfl := Option.some.inj hq
      have hbody : '\n' ∉ body := hp
      show '\n' ∉ _
      split
      · exact fun hmem => hbody (mem_of_mem_dropEnd hmem)
      · exact hbody
    | string body | unterminated body =>
      obtain rfl := Option.some.inj hq
      exact fun hmem => hp ((Line.unify_sublist body).mem hmem)
    | symbol _ | number _ | unexpected _ =>
      obtain rfl := Option.some.inj hq
      exact hp
  stopsAt := by
    intro p q rest hstop hq
    cases p with
    | blank c =>
      rw [unified?] at hq
      split at hq
      · cases hq
      · obtain rfl := Option.some.inj hq
        exact hstop
    | _ =>
      obtain rfl := Option.some.inj hq
      exact hstop
  count_newline := by
    intro p rest hp hstop
    have hcount := Line.count_newline_unify (p.chars ++ rest)
    rw [unify_chars_append hp hstop, List.count_append, List.count_append,
      Line.count_newline_unify] at hcount
    omega
  event? := by
    intro p rest start stop _
    rw [← Option.map_eq_bind]
    cases p with
    | blank c =>
      rw [unified?]
      split <;> rfl
    | string body => exact event?_string_unify body start stop
    | number n =>
      simp only [unified?, Option.bind_some, event?]
      cases Numeral.read? n.chars <;> rfl
    | _ => rfl
  agrees := by
    intro ps hfit
    rw [← unify_flatMap_chars hfit]
    exact Line.agreesUntilBlank_unify _

end Piece

/-- The text of the changed source is made of what becomes of the pieces. -/
theorem toList_unified (source : String) :
    (unified source).toList =
      (Piece.rewrite Piece.unified? (Piece.ofText source.toList)).flatMap Piece.chars := by
  rw [unified, String.toList_ofList, ← Piece.unify_flatMap_chars (Piece.fit_ofText _),
    Piece.flatMap_chars_ofText]

/-- The tokens of the changed source are the changed tokens. -/
theorem tokens_unified (source : String) :
    (tokenize (unified source)).tokens = (tokenize source).tokens.map Token.unified := by
  rw [Piece.rewrites_unified.tokens_eq (toList_unified source), tokens_eq_filterMap_heard,
    List.map_append, List.map_filterMap]
  congr 2
  funext event
  cases event <;> rfl

/-- The errors of the changed source are the same. -/
theorem errors_unified (source : String) :
    (tokenize (unified source)).errors = (tokenize source).errors := by
  rw [Piece.rewrites_unified.errors_eq (toList_unified source), errors_eq_filterMap_heard]
  congr 1
  funext event
  cases event <;> rfl

/-- Every error is shown with the same text, whatever line it names. -/
theorem shownLine_unified (e : LexicalError) (source : String) :
    e.shownLine (unified source) = e.shownLine source := by
  have htrim : ∀ line : Option (List Char),
      trimEnd (line.getD []) = (line.map trimEnd).getD [] := by
    rintro (_ | text) <;> rfl
  rw [LexicalError.shownLine, LexicalError.shownLine, unified, String.toList_ofList, htrim, htrim,
    Line.trimEnd_nth?_unify]

/-- Every error has the same diagnostic. -/
theorem diagnostic_unified (e : LexicalError) (source file : String) :
    e.diagnostic (unified source) file = e.diagnostic source file := by
  unfold LexicalError.diagnostic
  rw [shownLine_unified]

/-- With a newline in place of each pair of a carriage return and a newline, a source is
scanned to the same tokens, but for the texts and values of strings, which are changed in
the same way, and to the same errors; and every error, also one that the scan did not
report, has the same diagnostic. -/
theorem tokenize_unified (source : String) :
    (tokenize (unified source)).tokens = (tokenize source).tokens.map Token.unified ∧
      (tokenize (unified source)).errors = (tokenize source).errors ∧
      ∀ (e : LexicalError) (file : String),
        e.diagnostic (unified source) file = e.diagnostic source file := by
  refine ⟨tokens_unified source, errors_unified source, ?_⟩
  intro e file
  exact diagnostic_unified e source file

/-- Lines themselves are not the same where two carriage returns stand before a newline. -/
example : sourceLine? "a\r\r\n" 1 = some "a\r" ∧
    sourceLine? (unified "a\r\r\n") 1 = some "a" := by
  decide +kernel

end LoxScan
