import Mathlib.Data.List.Flatten
import LoxScan.Proofs.Image

/-!
# LoxScan - Tokens without anything between them

The texts of tokens may also be written one right after the other, unless the end of a
token and what follows it are read as something else.  There are four such clashes, one
of which takes three tokens.  Where there is none, scanning gives the tokens back; and
where there is one, it does not, whatever else is written.

Main definitions:

- `Token.glue`, the texts of tokens one right after the other;
- `Token.Clash`, for tokens in a row that may not be written in that way.

Main results:

- Theorem `Token.fit_map_piece_iff`: the pieces of tokens fit together exactly if there is
  no clash.
- Theorem `ofText_glue_of_contents`: only the pieces of the tokens can give the tokens
  back.
- Theorem `tokenize_glue_iff`: glued tokens are given back exactly if there is no clash.
-/

namespace LoxScan

namespace Numeral

/-- A well-formed numeral has a point exactly if it has a fraction. -/
theorem point_mem_chars_iff {n : Numeral} (h : n.WellFormed) : '.' ∈ n.chars ↔ n.fraction ≠ [] := by
  have hpoint : ¬ '.'.isDigit := by decide
  have hwhole : '.' ∉ n.whole := fun hmem => hpoint (h.2.1 '.' hmem)
  rw [chars, List.mem_append]
  cases hfraction : n.fraction with
  | nil => simp [pointed, hwhole]
  | cons d ds => simp [pointed]

/-- A numeral that does not end before a text has a digit after it, or a point and a digit
that would be its fraction. -/
theorem exists_of_not_stopsAt {n : Numeral} {rest : List Char} (h : ¬ n.StopsAt rest) :
    (∃ c ∈ rest.head?, c.isDigit) ∨
      n.fraction = [] ∧ ∃ d tail, rest = '.' :: d :: tail ∧ d.isDigit := by
  by_contra hnone
  push Not at hnone
  refine h ⟨hnone.1, ?_⟩
  intro hfraction d tail htext
  exact hnone.2 hfraction d tail htext

end Numeral

namespace Token

/-! ## Glued tokens -/

/-- The texts of tokens, one right after the other. -/
def glue (ts : List Token) : String :=
  String.join (ts.map lexeme)

/-- Tokens in a row whose texts are read as something else when nothing stands between
them. -/
inductive Clash : List Token → Prop
  | equal {t u : Token} :
      t.kind ∈ [.symbol .bang, .symbol .equal, .symbol .less, .symbol .greater] →
      u.kind ∈ [.symbol .equal, .symbol .equalEqual] → Clash [t, u]
  | slash {t u : Token} : t.kind = .symbol .slash → u.kind = .symbol .slash → Clash [t, u]
  | number {t u : Token} : t.kind = .number → u.kind = .number → Clash [t, u]
  | point {t u v : Token} : t.kind = .number → '.' ∉ t.lexeme.toList → u.kind = .symbol .dot →
      v.kind = .number → Clash [t, u, v]

/-- The text of glued tokens, by the tokens. -/
theorem toList_glue (ts : List Token) : (glue ts).toList = ts.flatMap (·.lexeme.toList) := by
  rw [glue, String.toList_join, List.flatMap_map]

/-- The text of glued tokens, by their pieces. -/
theorem flatMap_chars_map_piece {ts : List Token} (hts : ∀ t ∈ ts, t.WellFormed) :
    (ts.map piece).flatMap Piece.chars = (glue ts).toList := by
  rw [toList_glue, List.flatMap_map]
  apply List.flatMap_congr
  intro t ht
  exact (hts t ht).spec_piece.2.2.1

/-- Glued tokens begin with the first token. -/
theorem toList_glue_cons (t : Token) (ts : List Token) :
    (glue (t :: ts)).toList = t.lexeme.toList ++ (glue ts).toList := by
  rw [toList_glue, toList_glue, List.flatMap_cons]

namespace WellFormed

variable {t : Token}

/-- A token has at least one character. -/
theorem lexeme_ne_nil (h : t.WellFormed) : t.lexeme.toList ≠ [] := by
  rcases h.spec_piece with ⟨hp, _, hchars, _⟩
  rw [← hchars]
  exact Piece.chars_ne_nil hp

/-- The first character of a token tells the kinds of tokens that extend others. -/
theorem kind_of_mem_head? (h : t.WellFormed) {c : Char} (hc : c ∈ t.lexeme.toList.head?) :
    (c = '=' ↔ t.kind ∈ [.symbol .equal, .symbol .equalEqual]) ∧
      (c = '/' ↔ t.kind = .symbol .slash) ∧ (c = '.' ↔ t.kind = .symbol .dot) ∧
      (c.isDigit ↔ t.kind = .number) := by
  rcases t with ⟨kind, lexeme, literal, line⟩
  cases kind with
  | symbol s =>
    obtain ⟨rfl, _⟩ : lexeme = String.ofList s.chars ∧ literal = none := h
    rw [String.toList_ofList] at hc
    cases s <;> cases hc <;> dsimp only <;> decide
  | string =>
    rcases h with ⟨s, _, rfl, _⟩
    obtain rfl : '"' = c := by simpa using hc
    dsimp only
    decide
  | number =>
    rcases isNumeral_iff.mp h.1 with ⟨n, hn, hchars⟩
    have hdigit : c.isDigit := Numeral.isDigit_of_mem_head?_chars hn (by rwa [hchars])
    have hne : ∀ d, ¬ d.isDigit → c ≠ d := by
      rintro d hd rfl
      exact hd hdigit
    simp [hdigit, hne '=' (by decide), hne '/' (by decide), hne '.' (by decide)]
  | eof => exact h.elim

/-- A number is written as a numeral with its text. -/
theorem exists_piece_eq_number (h : t.WellFormed) (hkind : t.kind = .number) :
    ∃ n : Numeral, t.piece = .number n ∧ n.WellFormed ∧ n.chars = t.lexeme.toList := by
  rcases h.spec_piece with ⟨hp, _, hchars, _⟩
  have hpiece : t.piece = .number (Numeral.take t.lexeme.toList).1 := by rw [piece, hkind]
  rw [hpiece] at hp hchars
  exact ⟨_, hpiece, hp, hchars⟩

/-- A point is written as a point. -/
theorem toList_lexeme_of_dot (h : t.WellFormed) (hkind : t.kind = .symbol .dot) :
    t.lexeme.toList = ['.'] := by
  rcases t with ⟨kind, lexeme, literal, line⟩
  obtain rfl : kind = .symbol .dot := hkind
  obtain ⟨rfl, _⟩ : lexeme = String.ofList ['.'] ∧ literal = none := h
  exact String.toList_ofList

end WellFormed

/-- Where glued tokens begin with a character, their first token does. -/
theorem exists_cons_of_mem_head?_glue {ts : List Token} (hts : ∀ t ∈ ts, t.WellFormed) {c : Char}
    (hc : c ∈ (glue ts).toList.head?) : ∃ u us, ts = u :: us ∧ c ∈ u.lexeme.toList.head? := by
  cases ts with
  | nil => cases hc
  | cons u us =>
    rw [toList_glue_cons, List.head?_append_of_ne_nil _ (hts u (by simp)).lexeme_ne_nil] at hc
    exact ⟨u, us, rfl, hc⟩

/-- Glued tokens begin with the first character of their first token. -/
theorem exists_mem_head?_glue_cons {u : Token} (hu : u.WellFormed) (us : List Token) :
    ∃ c ∈ u.lexeme.toList.head?, c ∈ (glue (u :: us)).toList.head? := by
  rcases List.exists_cons_of_ne_nil hu.lexeme_ne_nil with ⟨c, cs, hcs⟩
  refine ⟨c, by simp [hcs], ?_⟩
  rw [toList_glue_cons, hcs]
  rfl

/-! ## Clashes -/

/-- A symbol is written as the piece of its kind. -/
theorem piece_of_kind_symbol {t : Token} {s : Symbol} (h : t.kind = .symbol s) :
    t.piece = .symbol s := by
  rw [piece, h]

/-- A token that begins a clash does not end before the tokens after it. -/
theorem not_stopsAt_of_clash {t : Token} {ts w : List Token} (ht : t.WellFormed)
    (hts : ∀ u ∈ ts, u.WellFormed) (hw : w <+: t :: ts) (hclash : Clash w) :
    ¬ t.piece.StopsAt (glue ts).toList := by
  intro hstop
  rcases hw with ⟨us, htext⟩
  cases hclash with
  | @equal a u hkind hnext =>
    obtain ⟨rfl, rfl⟩ : a = t ∧ u :: us = ts := by simpa using htext
    have hu : u.WellFormed := hts u (by simp)
    rcases exists_mem_head?_glue_cons hu us with ⟨c, hc, hhead⟩
    obtain rfl : c = '=' := (hu.kind_of_mem_head? hc).1.mpr hnext
    simp only [List.mem_cons, List.not_mem_nil, or_false] at hkind
    rcases hkind with hkind | hkind | hkind | hkind <;>
      · rw [piece_of_kind_symbol hkind] at hstop
        exact hstop '=' rfl hhead
  | @slash a u hkind hnext =>
    obtain ⟨rfl, rfl⟩ : a = t ∧ u :: us = ts := by simpa using htext
    have hu : u.WellFormed := hts u (by simp)
    rcases exists_mem_head?_glue_cons hu us with ⟨c, hc, hhead⟩
    obtain rfl : c = '/' := (hu.kind_of_mem_head? hc).2.1.mpr hnext
    rw [piece_of_kind_symbol hkind] at hstop
    exact hstop '/' rfl hhead
  | @number a u hkind hnext =>
    obtain ⟨rfl, rfl⟩ : a = t ∧ u :: us = ts := by simpa using htext
    have hu : u.WellFormed := hts u (by simp)
    rcases exists_mem_head?_glue_cons hu us with ⟨c, hc, hhead⟩
    rcases ht.exists_piece_eq_number hkind with ⟨n, hpiece, _, _⟩
    rw [hpiece] at hstop
    exact hstop.1 c hhead ((hu.kind_of_mem_head? hc).2.2.2.mpr hnext)
  | @point a u v hkind hwhole hdot hnext =>
    obtain ⟨rfl, rfl⟩ : a = t ∧ u :: v :: us = ts := by simpa using htext
    have hu : u.WellFormed := hts u (by simp)
    have hv : v.WellFormed := hts v (by simp)
    rcases exists_mem_head?_glue_cons hv us with ⟨d, hd, hhead⟩
    rcases List.head?_eq_some_iff.mp hhead with ⟨tail, htail⟩
    rcases ht.exists_piece_eq_number hkind with ⟨n, hpiece, hn, hchars⟩
    have hfraction : n.fraction = [] := by
      rw [← hchars, Numeral.point_mem_chars_iff hn, not_not] at hwhole
      exact hwhole
    rw [hpiece, toList_glue_cons, hu.toList_lexeme_of_dot hdot, htail] at hstop
    exact hstop.2 hfraction d tail rfl ((hv.kind_of_mem_head? hd).2.2.2.mpr hnext)

/-- A token that does not end before the tokens after it begins a clash. -/
theorem exists_clash_of_not_stopsAt {t : Token} {ts : List Token} (ht : t.WellFormed)
    (hts : ∀ u ∈ ts, u.WellFormed) (h : ¬ t.piece.StopsAt (glue ts).toList) :
    ∃ w, w <+: t :: ts ∧ Clash w := by
  cases hkind : t.kind with
  | symbol s =>
    rw [piece_of_kind_symbol hkind] at h
    simp only [Piece.StopsAt, not_forall, not_not] at h
    rcases h with ⟨c, hc, hhead⟩
    rcases exists_cons_of_mem_head?_glue hts hhead with ⟨u, us, rfl, hcu⟩
    have hu := (hts u (by simp)).kind_of_mem_head? hcu
    refine ⟨[t, u], ⟨us, rfl⟩, ?_⟩
    cases s with
    | bang | equal | less | greater =>
      cases hc
      exact .equal (by simp [hkind]) (hu.1.mp rfl)
    | slash =>
      cases hc
      exact .slash hkind (hu.2.1.mp rfl)
    | _ => cases hc
  | string =>
    have hpiece : t.piece = .string t.lexeme.toList.tail.dropLast := by rw [piece, hkind]
    rw [hpiece] at h
    exact (h trivial).elim
  | number =>
    rcases ht.exists_piece_eq_number hkind with ⟨n, hpiece, hn, hchars⟩
    rw [hpiece] at h
    rcases Numeral.exists_of_not_stopsAt h with ⟨c, hhead, hc⟩ | ⟨hfraction, d, tail, htext, hd⟩
    · rcases exists_cons_of_mem_head?_glue hts hhead with ⟨u, us, rfl, hcu⟩
      have hu := (hts u (by simp)).kind_of_mem_head? hcu
      exact ⟨[t, u], ⟨us, rfl⟩, .number hkind (hu.2.2.2.mp hc)⟩
    · have hhead : '.' ∈ (glue ts).toList.head? := by rw [htext]; rfl
      rcases exists_cons_of_mem_head?_glue hts hhead with ⟨u, us, rfl, hcu⟩
      have hu : u.WellFormed := hts u (by simp)
      have hdot : u.kind = .symbol .dot := (hu.kind_of_mem_head? hcu).2.2.1.mp rfl
      -- The point is a token of its own, so the digit after it begins the next one.
      have hrest : (glue us).toList = d :: tail := by
        rw [toList_glue_cons, hu.toList_lexeme_of_dot hdot] at htext
        exact (List.cons.inj htext).2
      have hheadus : d ∈ (glue us).toList.head? := by rw [hrest]; rfl
      rcases exists_cons_of_mem_head?_glue (fun v hv => hts v (by simp [hv])) hheadus with
        ⟨v, vs, rfl, hdv⟩
      have hv := (hts v (by simp)).kind_of_mem_head? hdv
      have hwhole : '.' ∉ t.lexeme.toList := by
        rw [← hchars, Numeral.point_mem_chars_iff hn, not_not]
        exact hfraction
      exact ⟨[t, u, v], ⟨vs, rfl⟩, .point hkind hwhole hdot (hv.2.2.2.mp hd)⟩
  | eof =>
    rw [WellFormed, hkind] at ht
    exact ht.elim

/-- The pieces of well-formed tokens fit together exactly if there is no clash. -/
theorem fit_map_piece_iff {ts : List Token} (hts : ∀ t ∈ ts, t.WellFormed) :
    Piece.Fit (ts.map piece) ↔ ¬ ∃ w, w <:+: ts ∧ Clash w := by
  induction ts with
  | nil =>
    refine ⟨?_, fun _ => trivial⟩
    rintro - ⟨w, hw, hclash⟩
    obtain rfl := List.infix_nil.mp hw
    cases hclash
  | cons t ts ih =>
    have ht : t.WellFormed := hts t (by simp)
    have hrest : ∀ u ∈ ts, u.WellFormed := fun u hu => hts u (by simp [hu])
    rw [List.map_cons, Piece.Fit, flatMap_chars_map_piece hrest, ih hrest]
    constructor
    · rintro ⟨_, hstop, hnone⟩ ⟨w, hw, hclash⟩
      rcases List.infix_cons_iff.mp hw with hbegins | hlater
      · exact not_stopsAt_of_clash ht hrest hbegins hclash hstop
      · exact hnone ⟨w, hlater, hclash⟩
    · intro hnone
      refine ⟨ht.spec_piece.1, ?_, ?_⟩
      · by_contra hstop
        rcases exists_clash_of_not_stopsAt ht hrest hstop with ⟨w, hw, hclash⟩
        exact hnone ⟨w, hw.isInfix, hclash⟩
      · rintro ⟨w, hw, hclash⟩
        exact hnone ⟨w, List.infix_cons hw, hclash⟩

end Token

/-! ## Giving the tokens back -/

/-- A sublist of pieces that makes up the same text is the whole list. -/
theorem Piece.eq_of_sublist {ps qs : List Piece} (h : ps.Sublist qs)
    (hqs : ∀ q ∈ qs, q.chars ≠ []) (htext : ps.flatMap chars = qs.flatMap chars) : ps = qs := by
  induction h with
  | slnil => rfl
  | @cons ps qs q hsub ih =>
    -- A piece that is left out has a character, so the text would be shorter.
    have hle := (hsub.flatMap chars).length_le
    have hpos := List.length_pos_iff.mpr (hqs q (by simp))
    have hlength := congrArg List.length htext
    rw [List.flatMap_cons, List.length_append] at hlength
    omega
  | @cons_cons ps qs q hsub ih =>
    rw [List.flatMap_cons, List.flatMap_cons, List.append_cancel_left_eq] at htext
    rw [ih (fun p hp => hqs p (by simp [hp])) htext]

/-- The pieces that hand on tokens of certain contents are the pieces of those tokens. -/
theorem filter_isSome_content? {qs : List Piece} {ts : List Token} (hqs : ∀ q ∈ qs, q.WellFormed)
    (h : qs.filterMap Piece.content? = ts.map Token.content) :
    qs.filter (·.content?.isSome) = ts.map Token.piece := by
  induction qs generalizing ts with
  | nil =>
    obtain rfl : ts = [] := by simpa using h
    rfl
  | cons q qs ih =>
    have hrest : ∀ p ∈ qs, p.WellFormed := fun p hp => hqs p (by simp [hp])
    cases hcontent : q.content? with
    | none =>
      rw [List.filterMap_cons_none hcontent] at h
      simpa [hcontent] using ih hrest h
    | some content =>
      rw [List.filterMap_cons_some hcontent] at h
      cases ts with
      | nil => cases h
      | cons t ts =>
        rw [List.map_cons, List.cons.injEq] at h
        rcases h with ⟨rfl, h⟩
        have hpiece : t.piece = q := Token.piece_eq_of_content? (hqs q (by simp)) hcontent
        simp [hcontent, hpiece, ih hrest h]

/-- If glued tokens are given back at all, their text falls apart into their pieces. -/
theorem ofText_glue_of_contents {ts : List Token} (hts : ∀ t ∈ ts, t.WellFormed)
    (h : (tokenize (Token.glue ts)).proper.map Token.content = ts.map Token.content) :
    Piece.ofText (Token.glue ts).toList = ts.map Token.piece := by
  rw [contents_tokenize] at h
  have hwell := Piece.wellFormed_of_mem_fit (Piece.fit_ofText (Token.glue ts).toList)
  have hfilter := filter_isSome_content? hwell h
  rw [← hfilter]
  refine (Piece.eq_of_sublist List.filter_sublist ?_ ?_).symm
  · intro q hq
    exact Piece.chars_ne_nil (hwell q hq)
  · rw [hfilter, Token.flatMap_chars_map_piece hts, Piece.flatMap_chars_ofText]

/-- Tokens whose pieces fit together are given back, and there is no error. -/
theorem tokenize_glue_of_fit {ts : List Token} (hts : ∀ t ∈ ts, t.WellFormed)
    (h : Piece.Fit (ts.map Token.piece)) :
    (tokenize (Token.glue ts)).errors = [] ∧
      (tokenize (Token.glue ts)).proper.map Token.content = ts.map Token.content := by
  have hpieces : Piece.ofText (Token.glue ts).toList = ts.map Token.piece :=
    Piece.ofText_eq_iff.mpr ⟨Token.flatMap_chars_map_piece hts, h⟩
  constructor
  · have hnone : (tokenize (Token.glue ts)).errors.map LexicalError.cause = [] := by
      rw [causes_tokenize, hpieces, List.filterMap_map, List.filterMap_eq_nil_iff]
      intro t ht
      exact (hts t ht).spec_piece.2.1.cause?_eq_none
    exact List.map_eq_nil_iff.mp hnone
  · rw [contents_tokenize, hpieces, List.filterMap_map, ← List.filterMap_eq_map]
    apply List.filterMap_congr
    intro t ht
    exact (hts t ht).content?_piece

/-- Write well-formed tokens one right after the other.  Scanning gives back their kinds,
texts and values without an error if and only if none of them stand in a row where the
texts are read as something else: a sign that may be followed by `=` before `=` or `==`,
two slashes, two numbers, or a number without a fraction, a point and a number. -/
theorem tokenize_glue_iff (ts : List Token) (hts : ∀ t ∈ ts, t.WellFormed) :
    ((tokenize (Token.glue ts)).errors = [] ∧
      (tokenize (Token.glue ts)).proper.map Token.content = ts.map Token.content) ↔
    ¬ ∃ w, w <:+: ts ∧ Token.Clash w := by
  rw [← Token.fit_map_piece_iff hts]
  constructor
  · rintro ⟨_, hcontents⟩
    rw [← ofText_glue_of_contents hts hcontents]
    exact Piece.fit_ofText _
  · exact tokenize_glue_of_fit hts

/-- A point between two numbers may be glued to them if the first number has a fraction,
and otherwise not. -/
theorem tokenize_glue_points :
    (∀ t ∈ (tokenize "1.5 . 5").proper, t.WellFormed) ∧
      (¬ ∃ w, w <:+: (tokenize "1.5 . 5").proper ∧ Token.Clash w) ∧
      (∀ t ∈ (tokenize "1 . 5").proper, t.WellFormed) ∧
      ¬ ((tokenize (Token.glue (tokenize "1 . 5").proper)).errors = [] ∧
        (tokenize (Token.glue (tokenize "1 . 5").proper)).proper.map Token.content =
          (tokenize "1 . 5").proper.map Token.content) := by
  have hsafe : ∀ t ∈ (tokenize "1.5 . 5").proper, t.WellFormed :=
    fun _ => wellFormed_of_mem_proper
  have hclash : ∀ t ∈ (tokenize "1 . 5").proper, t.WellFormed :=
    fun _ => wellFormed_of_mem_proper
  have hproper : (tokenize "1 . 5").proper =
      [⟨.number, "1", some (.number (.ofDecimal ⟨1, 0⟩)), 1⟩, ⟨.symbol .dot, ".", none, 1⟩,
        ⟨.number, "5", some (.number (.ofDecimal ⟨5, 0⟩)), 1⟩] := by
    with_unfolding_all rfl
  refine ⟨hsafe, ?_, hclash, ?_⟩
  · exact (tokenize_glue_iff _ hsafe).mp ⟨by decide +kernel, by with_unfolding_all rfl⟩
  · rw [tokenize_glue_iff _ hclash, not_not]
    refine ⟨_, List.infix_rfl, ?_⟩
    rw [hproper]
    exact .point rfl (by decide) rfl rfl

end LoxScan
