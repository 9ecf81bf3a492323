import LoxScan.Proofs.Steps

/-!
# LoxScan - Texts written piece by piece

A text that is to be scanned to certain tokens is written down from its end, piece by
piece: a piece is put in front of a text that it ends before.  Between the tokens there
may be trivia, which are blanks and whole lines of comment, and which are scanned to
nothing.

Main definitions:

- `Spells`, for pieces that hand on certain tokens;
- `Trivia`, for texts of blanks and comments.

Main results:

- Theorem `Spells.cons`: a piece in front of others adds its token to theirs.
- Theorem `Spells.trivia`: trivia in front of pieces add nothing.
- Theorem `tokenize_of_spells`: a source is scanned to what its pieces spell.
-/

namespace LoxScan

/-! ## Pieces that spell tokens -/

/-- Whether pieces that begin on a line hand on tokens and no error, and end on the
last line. -/
structure Spells (ps : List Piece) (line last : UInt32) (ts : List Token) : Prop where
  fit : Piece.Fit ps
  filterMap_cause? : ps.filterMap Piece.cause? = []
  filterMap_token? : ∀ offset, (Scan.stepsFrom offset line ps).filterMap Scan.Step.token? = ts
  toNat_last : line.toNat + (ps.flatMap Piece.chars).count '\n' = last.toNat

namespace Spells

/-- No pieces spell nothing. -/
theorem nil (line : UInt32) : Spells [] line line [] where
  fit := trivial
  filterMap_cause? := rfl
  filterMap_token? _ := rfl
  toNat_last := rfl

variable {ps : List Piece} {line line' last : UInt32} {ts : List Token}

/-- A piece that is no error adds its token, if it is one, to those of the pieces before
whose text it ends. -/
theorem cons {p : Piece} {t? : Option Token} (h : Spells ps line' last ts) (hp : p.WellFormed)
    (hstop : p.StopsAt (ps.flatMap Piece.chars)) (hcause : p.cause? = none)
    (hstep : ∀ offset, Scan.Step.token? ⟨offset, line, p⟩ = t?)
    (hline : line.toNat + p.chars.count '\n' = line'.toNat) :
    Spells (p :: ps) line last (t?.toList ++ ts) where
  fit := ⟨hp, hstop, h.fit⟩
  filterMap_cause? := by rw [List.filterMap_cons_none hcause, h.filterMap_cause?]
  filterMap_token? offset := by
    have htail := h.filterMap_token? (offset + p.chars.length)
    rw [Scan.stepsFrom, Line.advance_eq hline, List.filterMap_cons, htail, hstep]
    cases t? <;> rfl
  toNat_last := by
    rw [List.flatMap_cons, List.count_append, ← Nat.add_assoc, hline, h.toNat_last]

/-- A token adds itself to the tokens of the pieces before whose text it ends. -/
theorem token {p : Piece} {t : Token} (h : Spells ps line' last ts) (hp : p.WellFormed)
    (htoken : p.IsToken) (hstop : p.StopsAt (ps.flatMap Piece.chars))
    (hstep : ∀ offset, Scan.Step.token? ⟨offset, t.line, p⟩ = some t)
    (hline : t.line.toNat + p.chars.count '\n' = line'.toNat) :
    Spells (p :: ps) t.line last (t :: ts) :=
  h.cons hp hstop htoken.cause?_eq_none hstep hline

/-- A blank adds nothing. -/
theorem blank {c : Char} (h : Spells ps line' last ts) (hc : isBlank c)
    (hline : line.toNat + [c].count '\n' = line'.toNat) :
    Spells (.blank c :: ps) line last ts :=
  h.cons (p := .blank c) hc trivial rfl (fun _ => rfl) hline

/-- A comment with the newline after it adds nothing. -/
theorem comment {body : List Char} (h : Spells ps line' last ts) (hbody : '\n' ∉ body)
    (hline : line.toNat + 1 = line'.toNat) :
    Spells (.comment body :: .blank '\n' :: ps) line last ts := by
  have hnewline : Spells (.blank '\n' :: ps) line last ts := h.blank rfl hline
  have hcount : (Piece.comment body).chars.count '\n' = 0 := by
    simpa [Piece.chars] using List.count_eq_zero.mpr hbody
  have hstop : (Piece.comment body).StopsAt ('\n' :: ps.flatMap Piece.chars) := by
    simp [Piece.StopsAt]
  exact hnewline.cons (p := .comment body) hbody hstop rfl (fun _ => rfl)
    (by rw [hcount, Nat.add_zero])

end Spells

/-- A source is scanned to the tokens that its pieces spell, without an error. -/
theorem tokenize_of_spells {ps : List Piece} {last : UInt32} {ts : List Token} {source : String}
    (h : Spells ps 1 last ts)
    (hsource : ps.flatMap Piece.chars = source.toList) :
    (tokenize source).tokens = ts ++ [Token.eof last] ∧ (tokenize source).errors = [] ∧
      1 + source.toList.count '\n' = last.toNat := by
  have hpieces : Piece.ofText source.toList = ps := Piece.ofText_eq_iff.mpr ⟨hsource, h.fit⟩
  have hlast : 1 + source.toList.count '\n' = last.toNat := by
    rw [← hsource]
    exact h.toNat_last
  refine ⟨?_, ?_, hlast⟩
  · have hadvance : Line.advance 1 source.toList = last := Line.advance_eq hlast
    rw [tokens_tokenize, Scan.steps, hpieces, h.filterMap_token?, hadvance]
  · have hnone := causes_tokenize source
    rw [hpieces, h.filterMap_cause?] at hnone
    exact List.map_eq_nil_iff.mp hnone

/-! ## Trivia -/

/-- Whether a text is made of blanks and comments, each comment with the newline that
ends it. -/
inductive Trivia : List Char → Prop
  | nil : Trivia []
  | blank {c : Char} {cs : List Char} : isBlank c → Trivia cs → Trivia (c :: cs)
  | comment {body cs : List Char} :
      '\n' ∉ body → Trivia cs → Trivia ('/' :: '/' :: (body ++ '\n' :: cs))

/-- Newlines are trivia, and so are they with trivia after them. -/
theorem Trivia.replicate_newline_append {cs : List Char} (h : Trivia cs) (k : Nat) :
    Trivia (List.replicate k '\n' ++ cs) := by
  induction k with
  | zero => exact h
  | succ k ih => exact ih.blank rfl

/-- With trivia before them pieces spell the same tokens, from an earlier line. -/
theorem Spells.trivia {cs : List Char} (hcs : Trivia cs) {ps : List Piece}
    {line line' last : UInt32} {ts : List Token} (h : Spells ps line' last ts)
    (hline : line.toNat + cs.count '\n' = line'.toNat) :
    ∃ qs, qs.flatMap Piece.chars = cs ++ ps.flatMap Piece.chars ∧ Spells qs line last ts := by
  have hlt := line'.toNat_lt_size
  induction hcs generalizing line with
  | nil =>
    obtain rfl : line = line' := UInt32.toNat_inj.mp hline
    exact ⟨ps, rfl, h⟩
  | @blank c cs hc _ ih =>
    have hcount : (c :: cs).count '\n' = [c].count '\n' + cs.count '\n' := by
      rw [← List.count_append, List.singleton_append]
    have hnext : (Line.advance line [c]).toNat = line.toNat + [c].count '\n' :=
      Line.toNat_advance (by omega)
    rcases @ih (Line.advance line [c]) (by omega) with ⟨qs, hqs, hspells⟩
    exact ⟨.blank c :: qs, by simp [hqs], hspells.blank hc hnext.symm⟩
  | @comment body cs hbody _ ih =>
    have hcount : ('/' :: '/' :: (body ++ '\n' :: cs)).count '\n' = 1 + cs.count '\n' := by
      simp [List.count_eq_zero.mpr hbody, Nat.add_comm]
    have hnext : (Line.advance line ['\n']).toNat = line.toNat + 1 :=
      Line.toNat_advance (by rw [List.count_singleton_self]; omega)
    rcases @ih (Line.advance line ['\n']) (by omega) with ⟨qs, hqs, hspells⟩
    exact ⟨_, by simp [Piece.chars, hqs], hspells.comment hbody hnext.symm⟩

end LoxScan
