import LoxScan.Proofs.Steps

/-!
# LoxScan - Texts rewritten piece by piece

A text may be rewritten so that its pieces stay pieces.  Each piece is kept, replaced by
another one or left out, and the pieces of the new text are known if the new text only
ever puts a blank where another character was, or ends early: neither makes a piece
longer.  What a scan of the new text hands on is then read off the old one.

Main definitions:

- `AgreesUntilBlank`, for two texts that differ first in a blank or an early end;
- `Piece.rewrite`, which rewrites pieces one by one;
- `Piece.Rewrites`, the facts about a rewriting of single pieces.

Main results:

- Theorem `Piece.StopsAt.of_agreesUntilBlank`: a piece that ends before the old text ends
  before the new one.
- Theorem `Piece.Rewrites.heard_eq`: what a scan of the rewritten source finds.
-/

namespace LoxScan

/-! ## Texts that agree up to a blank -/

/-- Whether the second of two texts agrees with the first one until it ends, or has a
blank in place of a character other than a newline. -/
inductive AgreesUntilBlank : List Char → List Char → Prop
  | nil (xs : List Char) : AgreesUntilBlank xs []
  | cons (c : Char) {xs ys : List Char} :
      AgreesUntilBlank xs ys → AgreesUntilBlank (c :: xs) (c :: ys)
  | blank {c b : Char} (xs ys : List Char) :
      c ≠ '\n' → isBlank b → AgreesUntilBlank (c :: xs) (b :: ys)

namespace AgreesUntilBlank

variable {xs ys : List Char}

/-- Behind the same front texts agree as far as they do without it. -/
theorem append_left (w : List Char) (h : AgreesUntilBlank xs ys) :
    AgreesUntilBlank (w ++ xs) (w ++ ys) := by
  induction w with
  | nil => exact h
  | cons c w ih => exact ih.cons c

/-- The first character is the same one, or else a blank. -/
theorem isBlank_of_head? (h : AgreesUntilBlank xs ys) {d : Char} (hd : d ∈ ys.head?)
    (hne : d ∉ xs.head?) : isBlank d := by
  cases h with
  | nil => cases hd
  | cons c _ => exact (hne hd).elim
  | blank _ _ _ hb =>
    cases hd
    exact hb

end AgreesUntilBlank

/-- A numeral that ends before a text ends before one that agrees with it up to a
blank. -/
theorem Numeral.StopsAt.of_agreesUntilBlank {n : Numeral} {xs ys : List Char}
    (h : n.StopsAt xs) (hagree : AgreesUntilBlank xs ys) : n.StopsAt ys := by
  rcases h with ⟨hhead, hpoint⟩
  constructor
  · intro c hc
    by_cases hmem : c ∈ xs.head?
    · exact hhead c hmem
    · exact not_isDigit_of_isBlank (hagree.isBlank_of_head? hc hmem)
  · rintro hfraction d tail rfl
    -- The point is no blank, so it stands in both texts, and the digit comes after it.
    cases hagree with
    | blank _ _ _ hb => exact absurd hb (by decide)
    | cons _ hagree =>
      cases hagree with
      | cons _ _ => exact hpoint hfraction d _ rfl
      | blank _ _ _ hb => exact not_isDigit_of_isBlank hb

namespace Piece

/-- A piece that ends before a text ends before one that agrees with it up to a blank. -/
theorem StopsAt.of_agreesUntilBlank {p : Piece} {xs ys : List Char} (h : p.StopsAt xs)
    (hagree : AgreesUntilBlank xs ys) : p.StopsAt ys := by
  cases p with
  | comment body =>
    cases hagree with
    | nil => simp [StopsAt]
    | cons c _ => exact h
    | blank _ _ hc _ => exact (hc (h _ rfl)).elim
  | symbol s =>
    intro c hc hhead
    exact Symbol.not_isBlank_of_mem_extension? hc (hagree.isBlank_of_head? hhead (h c hc))
  | number n => exact Numeral.StopsAt.of_agreesUntilBlank h hagree
  | unterminated body =>
    have hempty : xs = [] := h
    subst hempty
    cases hagree
    rfl
  | blank c => trivial
  | string body => trivial
  | unexpected c => trivial

/-! ## Rewriting pieces -/

/-- Pieces rewritten one by one.  What becomes of a piece may depend on the text after it;
`none` leaves it out. -/
def rewrite (f : Piece → List Char → Option Piece) : List Piece → List Piece
  | [] => []
  | p :: ps => (f p (ps.flatMap chars)).toList ++ rewrite f ps

/-- The text of what becomes of a piece comes first in the rewritten text. -/
theorem flatMap_chars_rewrite_cons (f : Piece → List Char → Option Piece) (p : Piece)
    (ps : List Piece) :
    (rewrite f (p :: ps)).flatMap chars =
      (f p (ps.flatMap chars)).elim [] chars ++ (rewrite f ps).flatMap chars := by
  rw [rewrite]
  cases f p (ps.flatMap chars) <;> simp

/-- The facts about a rewriting of single pieces and its effect `g` on what a scan finds.
A piece that stays is well formed and ends where the old one did, newlines are neither
added nor lost, and pieces give rise to what `g` leaves of the old events.  The whole text
agrees with the old one up to a blank. -/
structure Rewrites (f : Piece → List Char → Option Piece) (g : Event → Option Event) : Prop where
  wellFormed : ∀ {p q rest}, p.WellFormed → f p rest = some q → q.WellFormed
  stopsAt : ∀ {p q rest}, p.StopsAt rest → f p rest = some q → q.StopsAt rest
  count_newline : ∀ {p rest}, p.WellFormed → p.StopsAt rest →
    ((f p rest).elim [] chars).count '\n' = p.chars.count '\n'
  event? : ∀ {p} rest start stop, p.WellFormed →
    (f p rest).bind (event? start stop) = (p.event? start stop).bind g
  agrees : ∀ {ps}, Fit ps →
    AgreesUntilBlank (ps.flatMap chars) ((rewrite f ps).flatMap chars)

namespace Rewrites

variable {f : Piece → List Char → Option Piece} {g : Event → Option Event} {ps : List Piece}

/-- Pieces that fit together do so when they are rewritten. -/
theorem fit (h : Rewrites f g) (hfit : Fit ps) : Fit (rewrite f ps) := by
  induction ps with
  | nil => trivial
  | cons p ps ih =>
    rcases hfit with ⟨hp, hstop, hrest⟩
    rw [rewrite]
    cases hq : f p (ps.flatMap chars) with
    | none => exact ih hrest
    | some q =>
      have hq_stop := (h.stopsAt hstop hq).of_agreesUntilBlank (h.agrees hrest)
      exact ⟨h.wellFormed hp hq, hq_stop, ih hrest⟩

/-- Rewritten pieces have as many newlines. -/
theorem count_newline_rewrite (h : Rewrites f g) (hfit : Fit ps) :
    ((rewrite f ps).flatMap chars).count '\n' = (ps.flatMap chars).count '\n' := by
  induction ps with
  | nil => rfl
  | cons p ps ih =>
    rcases hfit with ⟨hp, hstop, hrest⟩
    rw [flatMap_chars_rewrite_cons, List.flatMap_cons, List.count_append, List.count_append,
      h.count_newline hp hstop, ih hrest]

/-- Rewritten pieces give rise to what is left of the old events. -/
theorem events_rewrite (h : Rewrites f g) (hfit : Fit ps) (line : UInt32) :
    Scan.events line (rewrite f ps) = (Scan.events line ps).filterMap g := by
  induction ps generalizing line with
  | nil => rfl
  | cons p ps ih =>
    rcases hfit with ⟨hp, hstop, hrest⟩
    have hcount := h.count_newline hp hstop
    have hevent := h.event? (ps.flatMap chars) line (Line.advance line p.chars) hp
    have hevents : ((p.event? line (Line.advance line p.chars)).toList).filterMap g =
        ((p.event? line (Line.advance line p.chars)).bind g).toList := by
      cases p.event? line (Line.advance line p.chars) with
      | none => rfl
      | some e => cases he : g e <;> simp [he]
    rw [Scan.events, List.filterMap_append, hevents, ← hevent, rewrite]
    cases hq : f p (ps.flatMap chars) with
    | none =>
      -- What is left out has no newline, so the line is the same after it.
      have hline : Line.advance line p.chars = line := by
        rw [hq] at hcount
        simp [Line.advance, ← hcount]
      simp [ih hrest, hline]
    | some q =>
      have hline : Line.advance line q.chars = Line.advance line p.chars := by
        rw [hq] at hcount
        exact congrArg (line + UInt32.ofNat ·) hcount
      simp [Scan.events, ih hrest, hline]

end Rewrites
end Piece

/-! ## What a scan finds -/

/-- What a scan of a source finds, in order. -/
def Scan.heard (source : String) : List Event :=
  events 1 (Piece.ofText source.toList)

/-- The tokens of a source are those among what a scan finds, and one for the end. -/
theorem tokens_eq_filterMap_heard (source : String) :
    (tokenize source).tokens = (Scan.heard source).filterMap Event.token? ++
      [Token.eof (Line.advance 1 source.toList)] := by
  rw [tokens_tokenize, Scan.heard, Scan.events_eq_filterMap 0, List.filterMap_filterMap]
  rfl

/-- The errors of a source are those among what a scan finds. -/
theorem errors_eq_filterMap_heard (source : String) :
    (tokenize source).errors = (Scan.heard source).filterMap Event.error? := by
  rw [errors_tokenize, Scan.heard, Scan.events_eq_filterMap 0, List.filterMap_filterMap]
  rfl

namespace Piece.Rewrites

variable {f : Piece → List Char → Option Piece} {g : Event → Option Event}
  {source target : String}

/-- The pieces of a rewritten source are its rewritten pieces. -/
theorem ofText_eq (h : Rewrites f g)
    (htarget : target.toList = (rewrite f (ofText source.toList)).flatMap chars) :
    ofText target.toList = rewrite f (ofText source.toList) := by
  rw [htarget, ofText_flatMap_chars (h.fit (fit_ofText _))]

/-- A scan of a rewritten source finds what is left of the old events. -/
theorem heard_eq (h : Rewrites f g)
    (htarget : target.toList = (rewrite f (ofText source.toList)).flatMap chars) :
    Scan.heard target = (Scan.heard source).filterMap g := by
  rw [Scan.heard, h.ofText_eq htarget, h.events_rewrite (fit_ofText _), Scan.heard]

/-- A rewritten source ends on the same line. -/
theorem advance_eq (h : Rewrites f g)
    (htarget : target.toList = (rewrite f (ofText source.toList)).flatMap chars) :
    Line.advance 1 target.toList = Line.advance 1 source.toList := by
  have hcount := h.count_newline_rewrite (fit_ofText source.toList)
  rw [flatMap_chars_ofText] at hcount
  rw [Line.advance, Line.advance, htarget, hcount]

/-- The tokens of a rewritten source are those among what is left of the old events. -/
theorem tokens_eq (h : Rewrites f g)
    (htarget : target.toList = (rewrite f (ofText source.toList)).flatMap chars) :
    (tokenize target).tokens =
      (Scan.heard source).filterMap (fun event => (g event).bind Event.token?) ++
        [Token.eof (Line.advance 1 source.toList)] := by
  rw [tokens_eq_filterMap_heard, h.heard_eq htarget, h.advance_eq htarget,
    List.filterMap_filterMap]

/-- The errors of a rewritten source are those among what is left of the old events. -/
theorem errors_eq (h : Rewrites f g)
    (htarget : target.toList = (rewrite f (ofText source.toList)).flatMap chars) :
    (tokenize target).errors =
      (Scan.heard source).filterMap fun event => (g event).bind Event.error? := by
  rw [errors_eq_filterMap_heard, h.heard_eq htarget, List.filterMap_filterMap]

end Piece.Rewrites

end LoxScan
