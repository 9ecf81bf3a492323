import Mathlib.Tactic.Common
import Mathlib.Tactic.FinCases
import LoxScan.Piece

/-!
# LoxScan - Where pieces end

The piece at the front of a text is fixed by two things that do not mention how it
is found: the piece is well formed, and the text after it does not extend it.  The
same holds of all pieces of a text, so a text can be scanned by writing its pieces
down.

Main definitions:

- `Piece.WellFormed`, what the characters of a piece may be;
- `Piece.StopsAt`, what may follow a piece;
- `Piece.Fit`, for pieces that stand one after the other.

Main results:

- Theorem `Piece.first_eq_iff`: the first piece is the well-formed one that stops
  where the rest begins.
- Theorem `Piece.ofText_eq_iff`: the pieces of a text are the ones that fit
  together and make up the text.
-/

namespace LoxScan

/-! ## Numerals -/

/-- One or more digits. -/
def Digits (w : List Char) : Prop :=
  w ≠ [] ∧ ∀ c ∈ w, c.isDigit

/-- One or more digits, and possibly a point and one or more digits after it. -/
def IsNumeral (w : List Char) : Prop :=
  Digits w ∨ ∃ whole fraction, Digits whole ∧ Digits fraction ∧ w = whole ++ '.' :: fraction

/-- A text is a numeral exactly if it is the text of a well-formed one. -/
theorem isNumeral_iff {w : List Char} :
    IsNumeral w ↔ ∃ n : Numeral, n.WellFormed ∧ n.chars = w := by
  constructor
  · rintro (⟨hne, hdigits⟩ | ⟨whole, fraction, hwhole, hfraction, rfl⟩)
    · exact ⟨⟨w, []⟩, ⟨hne, hdigits, by simp⟩, by simp [Numeral.chars, Numeral.pointed]⟩
    · refine ⟨⟨whole, fraction⟩, ⟨hwhole.1, hwhole.2, hfraction.2⟩, ?_⟩
      rcases List.exists_cons_of_ne_nil hfraction.1 with ⟨d, ds, rfl⟩
      rfl
  · rintro ⟨⟨whole, fraction⟩, ⟨hne, hwhole, hfraction⟩, rfl⟩
    cases fraction with
    | nil =>
      left
      simpa [Numeral.chars, Numeral.pointed, Digits] using And.intro hne hwhole
    | cons d ds =>
      right
      exact ⟨whole, d :: ds, ⟨hne, hwhole⟩, ⟨by simp, hfraction⟩, rfl⟩

namespace Numeral

/-- A numeral begins with a digit. -/
theorem isDigit_of_mem_head?_chars {n : Numeral} {c : Char} (hn : n.WellFormed)
    (hc : c ∈ n.chars.head?) : c.isDigit := by
  rcases List.exists_cons_of_ne_nil hn.1 with ⟨d, whole, hwhole⟩
  have hchar : d = c := by simpa [chars, hwhole] using hc
  subst hchar
  exact hn.2.1 d (by simp [hwhole])

/-- A numeral has no other characters than digits and a point. -/
theorem isDigit_or_eq_of_mem_chars {n : Numeral} {c : Char} (hn : n.WellFormed)
    (hc : c ∈ n.chars) : c.isDigit ∨ c = '.' := by
  rcases n with ⟨whole, fraction⟩
  rcases hn with ⟨_, hwhole, hfraction⟩
  rcases List.mem_append.mp hc with hleft | hright
  · exact .inl (hwhole c hleft)
  · cases fraction with
    | nil => simp [pointed] at hright
    | cons d ds =>
      rcases List.mem_cons.mp hright with hpoint | htail
      · exact .inr hpoint
      · exact .inl (hfraction c htail)

/-- Another character does not belong to a numeral. -/
theorem not_mem_chars {n : Numeral} {c : Char} (hn : n.WellFormed) (hdigit : ¬ c.isDigit)
    (hpoint : c ≠ '.') : c ∉ n.chars := by
  intro hmem
  rcases isDigit_or_eq_of_mem_chars hn hmem with hc | hc
  · exact hdigit hc
  · exact hpoint hc

/-- Whether a numeral ends before a text: no digit follows it, nor, unless it has a
fraction, a point with a digit. -/
def StopsAt (n : Numeral) (rest : List Char) : Prop :=
  (∀ c ∈ rest.head?, ¬ c.isDigit) ∧
    (n.fraction = [] → ∀ d tail, rest = '.' :: d :: tail → ¬ d.isDigit)

/-- Where a numeral ends is seen by two characters. -/
theorem stopsAt_cons_cons_iff {n : Numeral} {c d : Char} {cs : List Char} :
    n.StopsAt (c :: d :: cs) ↔
      ¬ c.isDigit ∧ (n.fraction = [] → c = '.' → ¬ d.isDigit) := by
  unfold StopsAt
  constructor
  · rintro ⟨hhead, hpoint⟩
    refine ⟨hhead c rfl, ?_⟩
    rintro hfraction rfl
    exact hpoint hfraction d cs rfl
  · rintro ⟨hhead, hpoint⟩
    refine ⟨by simpa using hhead, ?_⟩
    intro hfraction e tail heq
    obtain ⟨rfl, rfl, rfl⟩ : c = '.' ∧ d = e ∧ cs = tail := by simpa using heq
    exact hpoint hfraction rfl

/-- A fraction with its point does not begin with a digit. -/
theorem not_isDigit_of_mem_head?_pointed {fraction rest : List Char} {c : Char}
    (hrest : ∀ d ∈ rest.head?, ¬ d.isDigit) (h : c ∈ (pointed fraction ++ rest).head?) :
    ¬ c.isDigit := by
  cases fraction with
  | nil => exact hrest c (by simpa [pointed] using h)
  | cons d ds =>
    have hc : '.' = c := by simpa [pointed] using h
    subst hc
    decide

/-- A fraction is taken where it is written, if no digit follows it. -/
theorem takeFraction_append {fraction rest : List Char} (hdigits : ∀ c ∈ fraction, c.isDigit)
    (hstop : ∀ c ∈ rest.head?, ¬ c.isDigit)
    (hpoint : fraction = [] → ∀ d tail, rest = '.' :: d :: tail → ¬ d.isDigit) :
    takeFraction (pointed fraction ++ rest) = (fraction, rest) := by
  cases fraction with
  | nil =>
    simp only [pointed, List.nil_append]
    unfold takeFraction
    split
    · rename_i c d tail
      rw [if_neg]
      rintro ⟨rfl, hd⟩
      exact hpoint rfl d tail rfl hd
    · rfl
  | cons d ds =>
    have hd : d.isDigit := hdigits d (by simp)
    have hds : ∀ c ∈ ds, c.isDigit := fun c hc => hdigits c (by simp [hc])
    simp only [pointed, List.cons_append, takeFraction, hd, and_self, if_true]
    rw [takeWhile_append_of_head hds hstop, dropWhile_append_of_head hds hstop]

/-- A numeral is taken where it is written, if it ends there. -/
theorem take_append {n : Numeral} {rest : List Char} (hn : n.WellFormed) (hstop : n.StopsAt rest) :
    take (n.chars ++ rest) = (n, rest) := by
  rcases hn with ⟨_, hwhole, hfraction⟩
  have hpoint : ∀ c ∈ (pointed n.fraction ++ rest).head?, ¬ c.isDigit :=
    fun c hc => not_isDigit_of_mem_head?_pointed hstop.1 hc
  unfold take chars
  rw [List.append_assoc, takeWhile_append_of_head hwhole hpoint,
    dropWhile_append_of_head hwhole hpoint, takeFraction_append hfraction hstop.1 hstop.2]

/-- What follows a fraction that was taken does not extend it. -/
theorem stop_takeFraction {cs : List Char} (hcs : ∀ c ∈ cs.head?, ¬ c.isDigit) :
    (∀ c ∈ (takeFraction cs).2.head?, ¬ c.isDigit) ∧
      ((takeFraction cs).1 = [] →
        ∀ d tail, (takeFraction cs).2 = '.' :: d :: tail → ¬ d.isDigit) := by
  unfold takeFraction
  split
  · rename_i c d rest
    split
    · exact ⟨fun _ => not_of_mem_head?_dropWhile, by simp⟩
    · rename_i hpoint
      refine ⟨hcs, ?_⟩
      rintro - e tail heq he
      obtain ⟨rfl, rfl, rfl⟩ : c = '.' ∧ d = e ∧ rest = tail := by simpa using heq
      exact hpoint ⟨rfl, he⟩
  · rename_i hshort
    refine ⟨hcs, ?_⟩
    rintro - d tail heq
    exact (hshort _ _ _ heq).elim

/-- A numeral that was taken ends before the rest. -/
theorem stopsAt_take (cs : List Char) : (take cs).1.StopsAt (take cs).2 :=
  @stop_takeFraction (cs.dropWhile Char.isDigit) fun _ => not_of_mem_head?_dropWhile

/-- A numeral ends where the text ends. -/
theorem stopsAt_nil (n : Numeral) : n.StopsAt [] := by
  simp [StopsAt]

/-- A numeral is taken whole from its characters. -/
theorem take_chars {n : Numeral} (h : n.WellFormed) : take n.chars = (n, []) := by
  simpa using take_append h n.stopsAt_nil

/-- What is taken at a numeral is at least as long. -/
theorem length_chars_le_take {n : Numeral} (hn : n.WellFormed) (rest : List Char) :
    n.chars.length ≤ (take (n.chars ++ rest)).1.chars.length := by
  rcases n with ⟨whole, fraction⟩
  rcases hn with ⟨_, hwhole, hfraction⟩
  cases fraction with
  | nil =>
    have htake : (whole ++ rest).takeWhile Char.isDigit = whole ++ rest.takeWhile Char.isDigit :=
      List.takeWhile_append_of_pos hwhole
    simp only [take, chars, pointed, List.append_nil, htake, List.length_append]
    omega
  | cons d ds =>
    have hd : d.isDigit := hfraction d (by simp)
    have hds : ∀ c ∈ ds, c.isDigit := fun c hc => hfraction c (by simp [hc])
    have hpoint : ∀ c ∈ ('.' :: d :: (ds ++ rest)).head?, ¬ c.isDigit := by simp
    have htake : (ds ++ rest).takeWhile Char.isDigit = ds ++ rest.takeWhile Char.isDigit :=
      List.takeWhile_append_of_pos hds
    simp only [take, chars, pointed, List.append_assoc, List.cons_append,
      takeWhile_append_of_head hwhole hpoint, dropWhile_append_of_head hwhole hpoint,
      takeFraction, hd, and_self, if_true, htake, List.length_append, List.length_cons]
    omega

/-- A number can be read from every numeral, and it is the one the numeral denotes. -/
theorem read?_chars {n : Numeral} (h : n.WellFormed) : read? n.chars = some n.value := by
  simp [read?, take_chars h, h.1]

end Numeral

/-! ## Characters that begin a piece -/

/-- Whether a character begins a blank, a token or a comment: a digit, or one of the
blanks, the quote and the first characters of the symbols. -/
def isExpected (c : Char) : Bool :=
  c.isDigit || c ∈ [' ', '\r', '\t', '\n', '"', '(', ')', '{', '}', ',', '.', '-', '+', ';',
    '*', '/', '!', '=', '<', '>']

/-- Blanks are expected. -/
theorem isExpected_of_isBlank {c : Char} (h : isBlank c) : isExpected c := by
  rcases isBlank_iff.mp h with rfl | rfl | rfl | rfl <;> decide

/-- Blanks are no digits. -/
theorem not_isDigit_of_isBlank {c : Char} (h : isBlank c) : ¬ c.isDigit := by
  rcases isBlank_iff.mp h with rfl | rfl | rfl | rfl <;> decide

namespace Symbol

/-- The character that makes a longer piece of a symbol when it follows at once. -/
def extension? : Symbol → Option Char
  | bang | equal | less | greater => some '='
  | slash => some '/'
  | _ => none

/-- The characters that are no symbol alone, whatever follows them. -/
theorem single?_eq_none_iff {c : Char} :
    single? c = none ↔ c ∉ ['(', ')', '{', '}', ',', '.', '-', '+', ';', '*'] := by
  unfold single?
  split <;> simp_all

/-- The characters that begin no symbol to which `=` may be added. -/
theorem equalPair?_eq_none_iff {c : Char} :
    equalPair? c = none ↔ c ∉ ['!', '=', '<', '>'] := by
  unfold equalPair?
  split <;> simp_all

/-- A symbol that may be extended is a single character. -/
theorem length_chars_of_mem_extension? {s : Symbol} {c : Char} (h : c ∈ s.extension?) :
    s.chars.length = 1 := by
  cases s with
  | bang | equal | less | greater | slash => rfl
  | _ => cases h

/-- Blanks extend no symbol. -/
theorem not_isBlank_of_mem_extension? {s : Symbol} {c : Char} (h : c ∈ s.extension?) :
    ¬ isBlank c := by
  cases s with
  | bang | equal | less | greater | slash =>
    cases h
    decide
  | _ => cases h

/-- Nothing extends a single symbol. -/
theorem extension?_of_single? {c : Char} {s : Symbol} (h : single? c = some s) :
    s.extension? = none := by
  unfold single? at h
  split at h <;> cases h <;> rfl

/-- Of the two symbols of a pair the one without `=` is extended by `=`, and the
other one by nothing. -/
theorem extension?_of_equalPair? {c : Char} {alone withEqual : Symbol}
    (h : equalPair? c = some (alone, withEqual)) :
    alone.extension? = some '=' ∧ withEqual.extension? = none := by
  unfold equalPair? at h
  split at h <;> cases h <;> exact ⟨rfl, rfl⟩

end Symbol

/-- A character is unexpected if no branch of the search for a piece takes it. -/
theorem not_isExpected_iff {c : Char} :
    ¬ isExpected c ↔ Symbol.single? c = none ∧ Symbol.equalPair? c = none ∧ c ≠ '/' ∧
      ¬ isBlank c ∧ c ≠ '"' ∧ ¬ c.isDigit := by
  rw [Symbol.single?_eq_none_iff, Symbol.equalPair?_eq_none_iff]
  simp only [isExpected, isBlank, List.mem_cons, Bool.or_eq_true, decide_eq_true_eq]
  grind

/-- Blanks and digits begin no symbol. -/
theorem not_symbol_of_isBlank_or_isDigit {c : Char} (h : isBlank c ∨ c.isDigit) :
    Symbol.single? c = none ∧ Symbol.equalPair? c = none ∧ c ≠ '/' := by
  have hne : ∀ d ∈ ['(', ')', '{', '}', ',', '.', '-', '+', ';', '*', '!', '=', '<', '>', '/'],
      c ≠ d := by
    rintro d hd rfl
    revert h
    fin_cases hd <;> decide
  rw [Symbol.single?_eq_none_iff, Symbol.equalPair?_eq_none_iff]
  simp at hne ⊢
  simp [hne]

namespace Piece

/-! ## Pieces and what may follow them -/

/-- What the characters of a piece may be. -/
def WellFormed : Piece → Prop
  | blank c => isBlank c
  | comment body => '\n' ∉ body
  | symbol _ => True
  | string body => '"' ∉ body
  | number n => n.WellFormed
  | unexpected c => ¬ isExpected c
  | unterminated body => '"' ∉ body

/-- Whether a piece ends before a text.  A comment goes to the end of the line, and
an unterminated string to the end of the text. -/
def StopsAt : Piece → List Char → Prop
  | blank _, _ => True
  | comment _, rest => ∀ c ∈ rest.head?, c = '\n'
  | symbol s, rest => ∀ c ∈ s.extension?, c ∉ rest.head?
  | string _, _ => True
  | number n, rest => n.StopsAt rest
  | unexpected _, _ => True
  | unterminated _, rest => rest = []

/-- Whether a piece is a token. -/
def IsToken : Piece → Prop
  | symbol _ | string _ | number _ => True
  | _ => False

/-- A well-formed piece has at least one character. -/
theorem chars_ne_nil {p : Piece} (h : p.WellFormed) : p.chars ≠ [] := by
  cases p with
  | number n => simp [chars, Numeral.chars, h.1]
  | symbol s => cases s <;> simp [chars, Symbol.chars]
  | _ => simp [chars]

/-- A piece begins with the first character of the text that it begins. -/
theorem mem_head?_chars_of_append {p : Piece} {c : Char} {cs rest : List Char}
    (hp : p.WellFormed) (h : p.chars ++ rest = c :: cs) : c ∈ p.chars.head? := by
  rcases List.exists_cons_of_ne_nil (chars_ne_nil hp) with ⟨d, w, hw⟩
  have hchar : d = c := by simpa [hw] using congrArg List.head? h
  subst hchar
  simp [hw]

/-- A token ends where a blank follows. -/
theorem stopsAt_cons_of_isBlank {p : Piece} {c : Char} (hp : p.IsToken) (hc : isBlank c)
    (cs : List Char) : p.StopsAt (c :: cs) := by
  cases p with
  | symbol s =>
    intro d hd hmem
    have hchar : c = d := by simpa using hmem
    subst hchar
    exact Symbol.not_isBlank_of_mem_extension? hd hc
  | number n =>
    constructor
    · intro d hmem
      have hchar : c = d := by simpa using hmem
      subst hchar
      exact not_isDigit_of_isBlank hc
    · intro _ d tail heq
      rcases List.cons.inj heq with ⟨rfl, _⟩
      exact absurd hc (by decide)
  | string body => trivial
  | blank b => exact hp.elim
  | comment body => exact hp.elim
  | unexpected u => exact hp.elim
  | unterminated body => exact hp.elim

/-- A piece that ends before a text ends before the front of it. -/
theorem StopsAt.of_append {p : Piece} {xs ys : List Char} (h : p.StopsAt (xs ++ ys)) :
    p.StopsAt xs := by
  cases p with
  | comment body =>
    intro c hc
    exact h c (List.mem_head?_append_of_mem_head? hc)
  | symbol s =>
    intro c hc hhead
    exact h c hc (List.mem_head?_append_of_mem_head? hhead)
  | number n =>
    constructor
    · intro c hc
      exact h.1 c (List.mem_head?_append_of_mem_head? hc)
    · rintro hfraction d tail rfl
      exact h.2 hfraction d (tail ++ ys) rfl
  | unterminated body =>
    have hempty : xs ++ ys = [] := h
    exact (List.append_eq_nil_iff.mp hempty).1
  | blank c => trivial
  | string body => trivial
  | unexpected c => trivial

/-- A token ends where the text ends. -/
theorem stopsAt_nil_of_isToken {p : Piece} (hp : p.IsToken) : p.StopsAt [] := by
  have hblank : p.StopsAt ([] ++ [' ']) := stopsAt_cons_of_isBlank hp rfl []
  exact hblank.of_append

/-- Whether a piece ends before a text depends on two characters of the text at most. -/
theorem stopsAt_take_two_iff {p : Piece} {rest : List Char} :
    p.StopsAt (rest.take 2) ↔ p.StopsAt rest := by
  rcases rest with _ | ⟨c, _ | ⟨d, cs⟩⟩
  · rfl
  · rfl
  · cases p with
    | number n =>
      simp only [StopsAt, List.take_succ_cons, Numeral.stopsAt_cons_cons_iff]
    | unterminated body => simp [StopsAt]
    | _ => rfl

/-- Every piece but an open string ends before a newline. -/
theorem stopsAt_newline_cons {p : Piece} (hopen : ∀ body, p ≠ unterminated body)
    (cs : List Char) : p.StopsAt ('\n' :: cs) := by
  have hblank : isBlank '\n' := by decide
  cases p with
  | comment body => simp [StopsAt]
  | symbol s => exact stopsAt_cons_of_isBlank (p := symbol s) trivial hblank cs
  | number n => exact stopsAt_cons_of_isBlank (p := number n) trivial hblank cs
  | unterminated body => exact (hopen body rfl).elim
  | blank c => trivial
  | string body => trivial
  | unexpected c => trivial

/-- A piece that ends before a text ends before it also if the text goes on after a
newline. -/
theorem StopsAt.append_of_newline {p : Piece} {xs : List Char} (h : p.StopsAt xs)
    (hopen : ∀ body, p ≠ unterminated body) (hend : xs.getLast? = some '\n') (ys : List Char) :
    p.StopsAt (xs ++ ys) := by
  rcases xs with _ | ⟨c, _ | ⟨d, xs⟩⟩
  · cases hend
  · cases hend
    exact stopsAt_newline_cons hopen ys
  · rw [← stopsAt_take_two_iff] at h ⊢
    exact h

/-- A piece that ends before a text ends before it also if a newline follows, and any text
after that. -/
theorem StopsAt.append_newline_cons {p : Piece} {xs : List Char} (h : p.StopsAt xs)
    (hopen : ∀ body, p ≠ unterminated body) (ys : List Char) : p.StopsAt (xs ++ '\n' :: ys) := by
  rcases xs with _ | ⟨c, _ | ⟨d, xs⟩⟩
  · exact stopsAt_newline_cons hopen ys
  · cases p with
    | number n =>
      have hdigit : ¬ '\n'.isDigit := by decide
      exact Numeral.stopsAt_cons_cons_iff.mpr ⟨h.1 c rfl, fun _ _ => hdigit⟩
    | unterminated body => exact (hopen body rfl).elim
    | _ => exact h
  · rw [← stopsAt_take_two_iff] at h ⊢
    exact h

/-- A piece that ends in a newline ends before everything, unless it is an open string. -/
theorem stopsAt_of_newline {p : Piece} (hp : p.WellFormed) (hopen : ∀ body, p ≠ unterminated body)
    (hend : p.chars.getLast? = some '\n') (rest : List Char) : p.StopsAt rest := by
  have hmem : '\n' ∈ p.chars := List.mem_of_getLast? hend
  cases p with
  | comment body =>
    have hbody : '\n' ∈ body := by simpa [chars] using hmem
    exact (hp hbody).elim
  | symbol s => cases s <;> simp [chars, Symbol.chars] at hmem
  | number n => exact (Numeral.not_mem_chars hp (by decide) (by decide) hmem).elim
  | unterminated body => exact (hopen body rfl).elim
  | blank c => trivial
  | string body => trivial
  | unexpected c => trivial

/-- A symbol that one character extends ends before a text that does not begin with
it. -/
theorem stopsAt_symbol {s : Symbol} {d : Char} {cs : List Char} (hs : s.extension? = some d)
    (h : ∀ rest, cs ≠ d :: rest) : (symbol s).StopsAt cs := by
  intro e hmem hhead
  rw [hs, Option.mem_some_iff] at hmem
  subst hmem
  rcases List.head?_eq_some_iff.mp hhead with ⟨rest, hcs⟩
  exact h rest hcs

/-- The first piece is well formed and ends before the rest. -/
theorem wellFormed_and_stopsAt_first (c : Char) (cs : List Char) :
    (first c cs).1.WellFormed ∧ (first c cs).1.StopsAt (first c cs).2 := by
  unfold first
  split
  · rename_i s hs
    simp [WellFormed, StopsAt, Symbol.extension?_of_single? hs]
  rename_i hsingle
  split
  · rename_i alone withEqual hpair
    rcases Symbol.extension?_of_equalPair? hpair with ⟨halone, hwith⟩
    split
    · simp [WellFormed, StopsAt, hwith]
    · rename_i hnext
      exact ⟨trivial, stopsAt_symbol halone hnext⟩
  rename_i hpair
  split
  · rename_i hslash
    split
    · rename_i rest
      constructor
      · exact not_mem_before '\n' rest
      · intro d hd
        simpa using not_of_mem_head?_dropWhile hd
    · rename_i hnext
      exact ⟨trivial, stopsAt_symbol rfl hnext⟩
  rename_i hslash
  split
  · rename_i hblank
    exact ⟨hblank, trivial⟩
  rename_i hblank
  split
  · split
    · exact ⟨not_mem_before '"' cs, trivial⟩
    · rename_i hmem
      exact ⟨hmem, rfl⟩
  rename_i hquote
  split
  · rename_i hdigit
    exact ⟨Numeral.wellFormed_take hdigit cs, Numeral.stopsAt_take (c :: cs)⟩
  · rename_i hdigit
    exact ⟨not_isExpected_iff.mpr ⟨hsingle, hpair, hslash, hblank, hquote, hdigit⟩, trivial⟩

/-- Two slashes begin a comment. -/
theorem first_slash_slash (cs : List Char) :
    first '/' ('/' :: cs) = (comment (cs.takeWhile (· ≠ '\n')), cs.dropWhile (· ≠ '\n')) :=
  rfl

/-- A quote begins a string if there is a second one. -/
theorem first_quote (cs : List Char) :
    first '"' cs =
      if '"' ∈ cs then (string (before '"' cs), after '"' cs) else (unterminated cs, []) :=
  rfl

/-- A digit begins a number. -/
theorem first_of_isDigit {c : Char} (h : c.isDigit) (cs : List Char) :
    first c cs = (number (Numeral.take (c :: cs)).1, (Numeral.take (c :: cs)).2) := by
  rcases not_symbol_of_isBlank_or_isDigit (.inr h) with ⟨hsingle, hpair, hslash⟩
  have hblank : ¬ isBlank c := fun hblank => not_isDigit_of_isBlank hblank h
  have hquote : c ≠ '"' := by
    rintro rfl
    simp at h
  simp [first, hsingle, hpair, hslash, hblank, hquote, h]

/-- One slash is a symbol. -/
theorem first_slash {cs : List Char} (h : '/' ∉ cs.head?) :
    first '/' cs = (symbol .slash, cs) := by
  cases cs with
  | nil => rfl
  | cons d cs =>
    have hd : d ≠ '/' := by simpa using h
    simp [first, Symbol.single?, Symbol.equalPair?, hd]

/-- A symbol to which `=` may be added stands alone if no `=` follows it. -/
theorem first_of_equalPair? {c : Char} {alone withEqual : Symbol} {cs : List Char}
    (hsingle : Symbol.single? c = none) (hpair : Symbol.equalPair? c = some (alone, withEqual))
    (h : '=' ∉ cs.head?) : first c cs = (symbol alone, cs) := by
  cases cs with
  | nil => simp [first, hsingle, hpair]
  | cons d cs =>
    have hd : d ≠ '=' := by simpa using h
    simp [first, hsingle, hpair, hd]

/-- A symbol is the first piece where it is written, if nothing extends it. -/
theorem first_symbol {s : Symbol} {c : Char} {cs rest : List Char}
    (hstop : (symbol s).StopsAt rest) (h : s.chars ++ rest = c :: cs) :
    first c cs = (symbol s, rest) := by
  cases s with
  | bang | equal | less | greater =>
    cases h
    exact first_of_equalPair? rfl rfl (hstop '=' rfl)
  | slash =>
    cases h
    exact first_slash (hstop '/' rfl)
  | _ =>
    cases h
    rfl

/-- A piece is the first one where it is written, if it is well formed and ends
there. -/
theorem first_of_append {p : Piece} {c : Char} {cs rest : List Char} (hp : p.WellFormed)
    (hstop : p.StopsAt rest) (h : p.chars ++ rest = c :: cs) : first c cs = (p, rest) := by
  cases p with
  | blank b =>
    obtain ⟨rfl, rfl⟩ : b = c ∧ rest = cs := by simpa [chars] using h
    rcases not_symbol_of_isBlank_or_isDigit (.inl hp) with ⟨hsingle, hpair, hslash⟩
    have hblank : isBlank b := hp
    simp [first, hsingle, hpair, hslash, hblank]
  | comment body =>
    obtain ⟨rfl, rfl⟩ : '/' = c ∧ '/' :: (body ++ rest) = cs := by simpa [chars] using h
    have hend : ∀ d ∈ rest.head?, ¬ decide (d ≠ '\n') := by simpa [StopsAt] using hstop
    rw [first_slash_slash, takeWhile_append_of_head (decide_ne_of_mem hp) hend,
      dropWhile_append_of_head (decide_ne_of_mem hp) hend]
  | symbol s => exact first_symbol hstop h
  | string body =>
    obtain ⟨rfl, rfl⟩ : '"' = c ∧ body ++ '"' :: rest = cs := by simpa [chars] using h
    rw [first_quote, if_pos (by simp), before_append_cons hp, after_append_cons hp]
  | number n =>
    have hc : c.isDigit :=
      Numeral.isDigit_of_mem_head?_chars hp (mem_head?_chars_of_append (p := number n) hp h)
    rw [first_of_isDigit hc, ← h, chars, Numeral.take_append hp hstop]
  | unexpected u =>
    obtain ⟨rfl, rfl⟩ : u = c ∧ rest = cs := by simpa [chars] using h
    rcases not_isExpected_iff.mp hp with ⟨hsingle, hpair, hslash, hblank, hquote, hdigit⟩
    simp [first, hsingle, hpair, hslash, hblank, hquote, hdigit]
  | unterminated body =>
    have hempty : rest = [] := hstop
    subst hempty
    obtain ⟨rfl, rfl⟩ : '"' = c ∧ body = cs := by simpa [chars] using h
    rw [first_quote, if_neg hp]

/-- The first piece of a text is the well-formed one that stops where the rest
begins. -/
theorem first_eq_iff {p : Piece} {c : Char} {cs rest : List Char} :
    first c cs = (p, rest) ↔ p.chars ++ rest = c :: cs ∧ p.WellFormed ∧ p.StopsAt rest := by
  constructor
  · intro h
    have happend := chars_append_first c cs
    have hfits := wellFormed_and_stopsAt_first c cs
    rw [h] at happend hfits
    exact ⟨happend, hfits⟩
  · rintro ⟨happend, hp, hstop⟩
    exact first_of_append hp hstop happend

/-! ## Pieces one after the other -/

/-- Well-formed pieces each of which ends before the text of those after it. -/
def Fit : List Piece → Prop
  | [] => True
  | p :: ps => p.WellFormed ∧ p.StopsAt (ps.flatMap chars) ∧ Fit ps

/-- The pieces of a text fit together. -/
theorem fit_ofText (cs : List Char) : Fit (ofText cs) := by
  fun_induction ofText cs with
  | case1 => trivial
  | case2 c cs ih =>
    obtain ⟨-, hp, hstop⟩ := first_eq_iff.mp (@rfl _ (first c cs))
    exact ⟨hp, by rwa [flatMap_chars_ofText], ih⟩

/-- Well-formed pieces each of which ends before the text of those after it and a further
text. -/
def FitBefore : List Piece → List Char → Prop
  | [], _ => True
  | p :: ps, rest => p.WellFormed ∧ p.StopsAt (ps.flatMap chars ++ rest) ∧ FitBefore ps rest

/-- Pieces fit together with others exactly if they fit before the text of the others. -/
theorem fit_append_iff {ps qs : List Piece} :
    Fit (ps ++ qs) ↔ FitBefore ps (qs.flatMap chars) ∧ Fit qs := by
  induction ps with
  | nil => simp [FitBefore]
  | cons p ps ih => simp [Fit, FitBefore, ih, and_assoc]

/-- Pieces that fit before a text fit before the front of it. -/
theorem FitBefore.of_append {ps : List Piece} {xs ys : List Char} (h : FitBefore ps (xs ++ ys)) :
    FitBefore ps xs := by
  induction ps with
  | nil => trivial
  | cons p ps ih =>
    rcases h with ⟨hp, hstop, hrest⟩
    rw [← List.append_assoc] at hstop
    exact ⟨hp, hstop.of_append, ih hrest⟩

/-- Pieces that fit before a text fit together. -/
theorem FitBefore.fit {ps : List Piece} {rest : List Char} (h : FitBefore ps rest) : Fit ps := by
  have hend : FitBefore ps [] := FitBefore.of_append h
  have happend : Fit (ps ++ []) := fit_append_iff.mpr ⟨hend, trivial⟩
  rwa [List.append_nil] at happend

/-- Pieces that fit together fit before every text if they end in a newline and none of them
is an open string. -/
theorem Fit.fitBefore_of_newline {ps : List Piece} (h : Fit ps)
    (hopen : ∀ body, unterminated body ∉ ps) (hend : (ps.flatMap chars).getLast? = some '\n')
    (rest : List Char) : FitBefore ps rest := by
  induction ps with
  | nil => trivial
  | cons p ps ih =>
    rcases h with ⟨hp, hstop, hrest⟩
    have hp_open : ∀ body, p ≠ unterminated body := by
      rintro body rfl
      exact hopen body (by simp)
    have hps_open : ∀ body, unterminated body ∉ ps := fun body hmem => hopen body (by simp [hmem])
    cases ps with
    | nil =>
      have hlast : p.chars.getLast? = some '\n' := by simpa using hend
      exact ⟨hp, stopsAt_of_newline hp hp_open hlast rest, trivial⟩
    | cons q qs =>
      have hne : (q :: qs).flatMap chars ≠ [] :=
        List.append_ne_nil_of_left_ne_nil (chars_ne_nil hrest.1) _
      rw [List.flatMap_cons, List.getLast?_append_of_ne_nil _ hne] at hend
      exact ⟨hp, hstop.append_of_newline hp_open hend rest, ih hrest hps_open hend⟩

/-- Pieces that fit together fit before every text that begins with a newline if none of
them is an open string. -/
theorem Fit.fitBefore_newline_cons {ps : List Piece} (h : Fit ps)
    (hopen : ∀ body, unterminated body ∉ ps) (rest : List Char) :
    FitBefore ps ('\n' :: rest) := by
  induction ps with
  | nil => trivial
  | cons p ps ih =>
    rcases h with ⟨hp, hstop, hrest⟩
    refine ⟨hp, hstop.append_newline_cons ?_ rest, ih hrest ?_⟩
    · rintro body rfl
      exact hopen body (by simp)
    · exact fun body hmem => hopen body (by simp [hmem])

/-- Pieces that fit together are well formed. -/
theorem wellFormed_of_mem_fit {ps : List Piece} (h : Fit ps) : ∀ p ∈ ps, p.WellFormed := by
  induction ps with
  | nil => simp
  | cons p ps ih =>
    intro q hq
    rcases List.mem_cons.mp hq with rfl | htail
    · exact h.1
    · exact ih h.2.2 q htail

/-- Only an unexpected character begins with something unexpected. -/
theorem isExpected_of_mem_head?_chars {p : Piece} {c : Char} (hp : p.WellFormed)
    (hc : c ∈ p.chars.head?) (hne : p ≠ unexpected c) : isExpected c := by
  cases p with
  | blank b =>
    have hchar : b = c := by simpa [chars] using hc
    subst hchar
    exact isExpected_of_isBlank hp
  | symbol s => cases s <;> cases hc <;> decide
  | number n =>
    have hdigit : c.isDigit := Numeral.isDigit_of_mem_head?_chars hp hc
    simp [isExpected, hdigit]
  | unexpected u =>
    have hchar : u = c := by simpa [chars] using hc
    subst hchar
    exact (hne rfl).elim
  | comment body => cases hc; decide
  | string body => cases hc; decide
  | unterminated body => cases hc; decide

/-- Pieces that fit together are the pieces of the text that they make up. -/
theorem ofText_flatMap_chars {ps : List Piece} (h : Fit ps) : ofText (ps.flatMap chars) = ps := by
  induction ps with
  | nil => simp
  | cons p ps ih =>
    rcases h with ⟨hp, hstop, hrest⟩
    have hne : p.chars ++ ps.flatMap chars ≠ [] :=
      List.append_ne_nil_of_left_ne_nil (chars_ne_nil hp) _
    rcases List.exists_cons_of_ne_nil hne with ⟨c, cs, hcs⟩
    have hfirst := first_eq_iff.mpr ⟨hcs, hp, hstop⟩
    rw [List.flatMap_cons, hcs, ofText_cons, hfirst, ih hrest]

/-- The pieces of a text are the ones that fit together and make up the text. -/
theorem ofText_eq_iff {cs : List Char} {ps : List Piece} :
    ofText cs = ps ↔ ps.flatMap chars = cs ∧ Fit ps := by
  constructor
  · rintro rfl
    exact ⟨flatMap_chars_ofText cs, fit_ofText cs⟩
  · rintro ⟨rfl, h⟩
    exact ofText_flatMap_chars h

/-- The pieces of a text followed by those of another one are the pieces of both, if the
former fit before the second text. -/
theorem ofText_append {xs ys : List Char} (h : FitBefore (ofText xs) ys) :
    ofText (xs ++ ys) = ofText xs ++ ofText ys := by
  apply ofText_eq_iff.mpr
  rw [List.flatMap_append, flatMap_chars_ofText, flatMap_chars_ofText, fit_append_iff,
    flatMap_chars_ofText]
  exact ⟨rfl, h, fit_ofText ys⟩

end Piece
end LoxScan
