import LoxScan.Proofs.ByteScanRules
import LoxScan.Proofs.Steps

/-!
# LoxScan - Safety of a scan by byte offsets

A scan by byte offsets takes the pieces of its source one by one, as a scan by characters
does.  There is a rule for each kind of piece, then one for a round of the scan, and an
induction over the pieces for all of the rounds.

Main definitions:

- `ByteScan.View.past`, the view of a scan that has come past a piece;
- `ByteScan.stepAfter` and `ByteScan.stepsAfter`, the steps that take pieces after a text.

Main results:

- Theorem `ByteScan.takes_scanAfter`: a piece is scanned after its first character.
- Theorem `ByteScan.takes_round`: a round takes the piece that comes next.
- Theorem `ByteScan.run_safe`: cursors, slices and lines are sound, a scan comes to its
  end, and its tokens and errors are those of the source.
-/

namespace LoxScan
namespace ByteScan

section
variable {env : Setting} {done taken rest : List Char} {n : Nat} {ts : List Token}
  {es : List LexicalError} {r : Nat} {v : View}

/-! ## Pieces -/

/-- The step that takes a piece after a text. -/
def stepAfter (done : List Char) (p : Piece) : Scan.Step :=
  ⟨done.length, Line.advance 1 done, p⟩

/-- The view of a scan that has just come past a piece, which handed on its token. -/
def View.past (done : List Char) (p : Piece) (rest : List Char) (ts : List Token)
    (es : List LexicalError) (r : Nat) : View where
  done := done
  taken := p.chars
  rest := rest
  counted := (done ++ p.chars).count '\n'
  tokens := ts ++ (stepAfter done p).token?.toList
  errors := es
  rounds := r

/-- The view past a piece, by the newlines and the token of the piece. -/
theorem View.past_eq {p : Piece} {k : Nat} {t? : Option Token}
    (hcount : p.chars.count '\n' = k) (ht : (stepAfter done p).token? = t?) :
    View.past done p rest ts es r =
      ⟨done, p.chars, rest, done.count '\n' + k, ts ++ t?.toList, es, r⟩ := by
  rw [View.past, List.count_append, hcount, ht]

/-- The view past a piece that hands on no token. -/
theorem View.past_of_token?_eq_none {p : Piece} {k : Nat} (hcount : p.chars.count '\n' = k)
    (ht : (stepAfter done p).token? = none) :
    View.past done p rest ts es r = ⟨done, p.chars, rest, done.count '\n' + k, ts, es, r⟩ := by
  rw [past_eq hcount ht, Option.toList_none, List.append_nil]

/-- A symbol is handed on. -/
theorem takes_symbol (s : Symbol) :
    Takes env (do push env (.symbol s) none; return (none : Option LexicalError))
      ⟨done, s.chars, rest, done.count '\n', ts, es, r⟩ none
      (.past done (.symbol s) rest ts es r) := by
  have hcount : s.chars.count '\n' = 0 := by cases s <;> decide
  rw [View.past_eq (p := .symbol s) hcount rfl]
  apply (takes_push _ _).bind
  exact .pure none

/-- A character of a string is passed, and counted if it is a newline. -/
theorem takes_passQuoted (c : Char) (hn : n ≤ (done ++ taken).count '\n') :
    Takes env (passQuoted env c) ⟨done, taken, c :: rest, n, ts, es, r⟩ ()
      ⟨done, taken ++ [c], rest, n + [c].count '\n', ts, es, r⟩ := by
  apply Takes.of_fits
  intro hfits
  unfold passQuoted
  by_cases hc : c = '\n'
  · have hnewlines : n + 1 ≤ env.newlines := by
      rw [hfits.newlines_eq, hc, List.count_cons_self]
      rw [List.count_append] at hn
      simp only
      omega
    rw [if_pos hc]
    apply (takes_newline hnewlines).bind
    apply (takes_advance c).bind
    rw [hc]
    exact .pure ()
  · rw [if_neg hc]
    apply (takes_advance c).bind
    have hcount : [c].count '\n' = 0 := List.count_eq_zero.mpr (by simpa using Ne.symm hc)
    rw [hcount]
    exact .pure ()

/-- The text up to the next quote, or else to the end, is passed, and its newlines are
counted. -/
theorem takes_quoted {body : List Char} (hbody : '"' ∉ body) (hstop : ∀ c ∈ rest.head?, c = '"')
    (hn : n ≤ (done ++ taken).count '\n') :
    Takes env (loop (return (← peek env).filter (· ≠ '"')) (passQuoted env) env.limit)
      ⟨done, taken, body ++ rest, n, ts, es, r⟩ ()
      ⟨done, taken ++ body, rest, n + body.count '\n', ts, es, r⟩ := by
  apply takes_loop_peek (fun xs => n + xs.count '\n') (decide_ne_of_mem hbody)
  · simpa using hstop
  · intro xs c ys _
    rw [List.count_append, ← Nat.add_assoc]
    apply takes_passQuoted
    rw [← List.append_assoc, List.count_append]
    omega

/-- A string between quotes is handed on with the text between them. -/
theorem takes_string {body : List Char} (hbody : '"' ∉ body) :
    Takes env (string env) ⟨done, ['"'], body ++ '"' :: rest, done.count '\n', ts, es, r⟩ none
      (.past done (.string body) rest ts es r) := by
  have hcount : (Piece.string body).chars.count '\n' = body.count '\n' := by simp [Piece.chars]
  -- One byte is left out at each end, which is a quote.
  have hlength : (['"'] : List Char).utf8Encode.size = 1 := size_utf8Encode_singleton '"'
  rw [View.past_eq hcount rfl]
  unfold string
  apply (takes_quoted hbody (by simp) (by simp)).bind
  apply takes_atEnd.bind
  apply (takes_advance '"').bind
  apply takes_here.bind
  apply (takes_slice (done ++ ['"']) body ('"' :: rest) _ _ _).bind
  · apply (takes_push _ _).bind
    exact .pure none
  · intro hfits
    rw [← hfits.text_eq]
    simp
  · rw [size_utf8Encode_append, hlength]
    rfl
  · simp only [View.cursor, size_utf8Encode_append, hlength]
    omega

/-- Without a second quote the end is come to, on the line where it is. -/
theorem takes_string_unterminated {body : List Char} (hbody : '"' ∉ body) :
    Takes env (string env) ⟨done, ['"'], body ++ [], done.count '\n', ts, es, r⟩
      (stepAfter done (.unterminated body)).error?
      (.past done (.unterminated body) [] ts es r) := by
  have hcount : (Piece.unterminated body).chars.count '\n' = body.count '\n' := by
    simp [Piece.chars]
  -- The error has the line of the cursor, which is the one where the step ends.
  have hstop : (stepAfter done (.unterminated body)).stop =
      1 + UInt32.ofNat (done.count '\n' + body.count '\n') := by
    rw [← hcount, ← List.count_append]
    exact (Line.advance_append 1 done _).symm
  have herror : (stepAfter done (.unterminated body)).error? =
      some ⟨.unterminatedString, 1 + UInt32.ofNat (done.count '\n' + body.count '\n')⟩ := by
    rw [← hstop]
    rfl
  rw [View.past_of_token?_eq_none hcount rfl, herror]
  unfold string
  apply (takes_quoted hbody (by simp) (by simp)).bind
  apply takes_atEnd.bind
  apply takes_here.bind
  exact .pure _

/-- A fraction is skipped with its point, if no digit follows it. -/
theorem takes_skipFraction {fraction : List Char} (hfraction : ∀ c ∈ fraction, c.isDigit)
    (hstop : ∀ c ∈ rest.head?, ¬ c.isDigit)
    (hpoint : fraction = [] → ∀ d tail, rest = '.' :: d :: tail → ¬ d.isDigit) :
    Takes env (skipFraction env) ⟨done, taken, Numeral.pointed fraction ++ rest, n, ts, es, r⟩ ()
      ⟨done, taken ++ Numeral.pointed fraction, rest, n, ts, es, r⟩ := by
  cases fraction with
  | nil =>
    rw [Numeral.pointed, List.nil_append, List.append_nil]
    unfold skipFraction
    apply takes_peek.bind
    by_cases hhead : rest.head? = some '.'
    · have hnext : rest[1]?.any Char.isDigit = false := by
        rcases List.head?_eq_some_iff.mp hhead with ⟨_ | ⟨d, tail⟩, rfl⟩
        · rfl
        · simpa using hpoint rfl d tail rfl
      rw [if_pos hhead]
      apply takes_peekNext.bind
      rw [hnext]
      exact .pure ()
    · rw [if_neg hhead]
      exact .pure ()
  | cons d ds =>
    have hd : d.isDigit := hfraction d (by simp)
    have hskip : Takes env (skipWhile env Char.isDigit)
        ⟨done, taken ++ ['.'], d :: ds ++ rest, n, ts, es, r⟩ ()
        ⟨done, taken ++ ['.'] ++ d :: ds, rest, n, ts, es, r⟩ :=
      takes_skipWhile hfraction hstop
    rw [List.append_assoc] at hskip
    unfold skipFraction
    apply takes_peek.bind
    rw [if_pos (by rfl)]
    apply takes_peekNext.bind
    rw [if_pos (by simpa [Numeral.pointed] using hd)]
    apply (takes_advance '.').bind
    exact hskip

/-- A numeral is handed on with the number that it denotes. -/
theorem takes_number {m : Numeral} {c : Char} {w : List Char} (hm : m.WellFormed)
    (hstop : m.StopsAt rest) (hchars : m.chars = c :: w) :
    Takes env (number env) ⟨done, [c], w ++ rest, done.count '\n', ts, es, r⟩ none
      (.past done (.number m) rest ts es r) := by
  rcases m with ⟨whole, fraction⟩
  have hdigits := hm.2.1
  have hcount : (Piece.number ⟨whole, fraction⟩).chars.count '\n' = 0 :=
    List.count_eq_zero.mpr (Numeral.not_mem_chars hm (by decide) (by decide))
  have hread : Numeral.read? (c :: w) = some (Numeral.value ⟨whole, fraction⟩) := by
    rw [← hchars, Numeral.read?_chars hm]
  rw [View.past_eq hcount (Scan.Step.token?_number hm _ _), Piece.chars, hchars]
  obtain ⟨tail, rfl⟩ : ∃ tail, whole = c :: tail := by
    rcases List.exists_cons_of_ne_nil hm.1 with ⟨d, tail, rfl⟩
    obtain ⟨rfl, _⟩ := List.cons.inj hchars
    exact ⟨tail, rfl⟩
  obtain rfl : tail ++ Numeral.pointed fraction = w := (List.cons.inj hchars).2
  rw [List.append_assoc]
  unfold number
  apply (takes_skipWhile (fun d hd => hdigits d (by simp [hd])) _).bind
  · apply (takes_skipFraction hm.2.2 hstop.1 hstop.2).bind
    apply takes_lexeme.bind
    simp only [String.toList_ofList, List.cons_append, List.nil_append]
    rw [hread]
    apply (takes_push _ _).bind
    exact .pure none
  · intro d hd
    exact Numeral.not_isDigit_of_mem_head?_pointed hstop.1 hd

/-- A symbol is scanned after its first character. -/
theorem takes_scanAfter_symbol {s : Symbol} {c : Char} {w : List Char}
    (hstop : (Piece.symbol s).StopsAt rest) (hchars : s.chars = c :: w) :
    Takes env (scanAfter env c) ⟨done, [c], w ++ rest, done.count '\n', ts, es, r⟩ none
      (.past done (.symbol s) rest ts es r) := by
  cases s with
  | bang | equal | less | greater =>
    cases hchars
    exact (takes_accept_of_not_mem (hstop '=' rfl)).bind (takes_symbol _)
  | bangEqual | equalEqual | lessEqual | greaterEqual =>
    cases hchars
    exact (takes_accept_cons '=').bind (takes_symbol _)
  | slash =>
    cases hchars
    exact (takes_accept_of_not_mem (hstop '/' rfl)).bind (takes_symbol _)
  | _ =>
    cases hchars
    exact takes_symbol _

/-- A blank is passed, and counted if it is a newline. -/
theorem takes_scanAfter_blank {c : Char} (hc : isBlank c) :
    Takes env (scanAfter env c) ⟨done, [c], rest, done.count '\n', ts, es, r⟩ none
      (.past done (.blank c) rest ts es r) := by
  rw [View.past_of_token?_eq_none rfl rfl]
  rcases isBlank_iff.mp hc with rfl | rfl | rfl | rfl
  · exact .pure none
  · exact .pure none
  · exact .pure none
  · apply Takes.of_fits
    intro hfits
    have hnewlines : done.count '\n' + 1 ≤ env.newlines := by
      rw [hfits.newlines_eq]
      exact Nat.le_add_right _ _
    exact (takes_newline hnewlines).bind (.pure none)

/-- A comment is passed up to the end of the line. -/
theorem takes_scanAfter_comment {body : List Char} (hbody : '\n' ∉ body)
    (hstop : ∀ c ∈ rest.head?, c = '\n') :
    Takes env (scanAfter env '/')
      ⟨done, ['/'], '/' :: body ++ rest, done.count '\n', ts, es, r⟩ none
      (.past done (.comment body) rest ts es r) := by
  have hcount : (Piece.comment body).chars.count '\n' = 0 := by
    simpa [Piece.chars, List.count_eq_zero] using hbody
  rw [View.past_of_token?_eq_none hcount rfl]
  apply (takes_accept_cons '/').bind
  apply (takes_skipWhile (decide_ne_of_mem hbody) (by simpa using hstop)).bind
  exact .pure none

/-- What comes of a character that is no symbol, slash or blank. -/
theorem scanAfter_eq {c : Char} (hsingle : Symbol.single? c = none)
    (hpair : Symbol.equalPair? c = none) (hslash : c ≠ '/') (hblank : ¬ isBlank c) :
    scanAfter env c =
      if c = '"' then string env
      else if c.isDigit then number env
      else do return some ⟨.unexpectedCharacter c, (← here).line⟩ := by
  rw [isBlank_iff, not_or, not_or, not_or] at hblank
  obtain ⟨hspace, hreturn, htab, hnewline⟩ := hblank
  unfold scanAfter
  rw [hsingle, hpair]
  simp only [hslash, hspace, hreturn, htab, hnewline, or_self, if_false]

/-- A character that begins nothing else is an error. -/
theorem takes_scanAfter_unexpected {c : Char} (hc : ¬ isExpected c) :
    Takes env (scanAfter env c) ⟨done, [c], rest, done.count '\n', ts, es, r⟩
      (some ⟨.unexpectedCharacter c, Line.advance 1 done⟩)
      (.past done (.unexpected c) rest ts es r) := by
  rcases not_isExpected_iff.mp hc with ⟨hsingle, hpair, hslash, hblank, hquote, hdigit⟩
  have hcount : (Piece.unexpected c).chars.count '\n' = 0 := by
    rw [List.count_eq_zero, Piece.chars, List.mem_singleton]
    rintro rfl
    exact hblank (by decide)
  rw [View.past_of_token?_eq_none hcount rfl, scanAfter_eq hsingle hpair hslash hblank,
    if_neg hquote, if_neg hdigit]
  apply takes_here.bind
  exact .pure _

/-- A number is scanned after its first digit. -/
theorem scanAfter_of_isDigit {c : Char} (hc : c.isDigit) : scanAfter env c = number env := by
  rcases not_symbol_of_isBlank_or_isDigit (.inr hc) with ⟨hsingle, hpair, hslash⟩
  have hblank : ¬ isBlank c := fun hblank => not_isDigit_of_isBlank hblank hc
  have hquote : c ≠ '"' := by
    rintro rfl
    exact absurd hc (by decide)
  rw [scanAfter_eq hsingle hpair hslash hblank, if_neg hquote, if_pos hc]

/-- A piece is scanned after its first character. -/
theorem takes_scanAfter {p : Piece} {c : Char} {w : List Char} (hp : p.WellFormed)
    (hstop : p.StopsAt rest) (hchars : p.chars = c :: w) :
    Takes env (scanAfter env c) ⟨done, [c], w ++ rest, done.count '\n', ts, es, r⟩
      (stepAfter done p).error? (.past done p rest ts es r) := by
  cases p with
  | blank b =>
    cases hchars
    exact takes_scanAfter_blank hp
  | comment body =>
    cases hchars
    exact takes_scanAfter_comment hp hstop
  | symbol s => exact takes_scanAfter_symbol hstop hchars
  | string body =>
    cases hchars
    rw [List.append_assoc]
    exact takes_string hp
  | number m =>
    have hc : c.isDigit := Numeral.isDigit_of_mem_head?_chars hp (by
      rw [Piece.chars] at hchars
      simp [hchars])
    rw [scanAfter_of_isDigit hc]
    have herror : (stepAfter done (.number m)).error? = none := Scan.Step.error?_number hp _ _
    rw [herror]
    exact takes_number hp hstop hchars
  | unexpected u =>
    cases hchars
    exact takes_scanAfter_unexpected hp
  | unterminated body =>
    cases hchars
    obtain rfl : rest = [] := hstop
    exact takes_string_unterminated hp

/-! ## Rounds -/

/-- An error is reported, if there is one. -/
theorem takes_report (e : Option LexicalError) :
    Takes env (report e) v () { v with errors := v.errors ++ e.toList } := by
  cases e with
  | none =>
    rw [Option.toList_none, List.append_nil]
    exact .pure ()
  | some e =>
    unfold report
    apply takes_modify
    · simp
    · simp
    · simp
    · intro s hs
      simp [hs]

/-- A piece is begun where the cursor is. -/
theorem takes_begin :
    Takes env begin ⟨done, taken, rest, (done ++ taken).count '\n', ts, es, r⟩ ()
      ⟨done ++ taken, [], rest, (done ++ taken).count '\n', ts, es, r⟩ := by
  unfold begin
  apply takes_here.bind
  apply takes_place
  · simp [View.cursor, Line.advance]
  · intro hfits
    refine { hfits with text_eq := ?_, count_le := Nat.le_refl _, rounds_le := ?_ }
    · rw [List.append_nil]
      exact hfits.text_eq
    · rw [List.append_nil]
      exact hfits.rounds_le

/-- The piece that comes next is scanned. -/
theorem takes_scanToken {p : Piece} (hp : p.WellFormed) (hstop : p.StopsAt rest) :
    Takes env (scanToken env) ⟨done, [], p.chars ++ rest, done.count '\n', ts, es, r⟩
      (stepAfter done p).error? (.past done p rest ts es r) := by
  rcases List.exists_cons_of_ne_nil (Piece.chars_ne_nil hp) with ⟨c, w, hchars⟩
  rw [hchars]
  unfold scanToken
  apply (takes_advance c).bind
  exact takes_scanAfter hp hstop hchars

/-- The bytes of a piece are those from the end of one round to the end of the next. -/
theorem sound_round {p : Piece} (hp : p.WellFormed)
    (hfits : (View.past done p rest ts es r).Fits env) :
    (Note.round done.utf8Encode.size (done ++ p.chars).utf8Encode.size).Sound env := by
  rcases List.exists_cons_of_ne_nil (Piece.chars_ne_nil hp) with ⟨c, w, hchars⟩
  have htext : done ++ p.chars ++ rest = env.source.toList := hfits.text_eq
  refine ⟨c, w, ?_⟩
  rw [env.bytes_eq, ← htext, extract_utf8Encode, hchars]

/-- A round takes the piece that comes next. -/
theorem takes_round {p : Piece} (hp : p.WellFormed) (hstop : p.StopsAt rest) :
    Takes env (round env)
      ⟨done, taken, p.chars ++ rest, (done ++ taken).count '\n', ts, es, r⟩ ()
      (.past (done ++ taken) p rest ts (es ++ (stepAfter (done ++ taken) p).error?.toList)
        (r + 1)) := by
  apply Takes.of_fits
  intro hbefore
  have hle : r + 1 ≤ (done ++ taken ++ p.chars).length := by
    have hrounds : r ≤ (done ++ taken).length := hbefore.rounds_le
    have hpos := List.length_pos_iff.mpr (Piece.chars_ne_nil hp)
    rw [List.length_append]
    omega
  unfold round
  apply takes_here.bind
  apply takes_begin.bind
  apply (takes_scanToken hp hstop).bind
  apply (takes_report _).bind
  apply takes_here.bind
  apply Takes.of_fits
  intro hfits
  exact takes_note_round (sound_round hp hfits) hle

/-! ## The whole source -/

/-- The steps that take pieces after a text. -/
def stepsAfter (passed : List Char) (ps : List Piece) : List Scan.Step :=
  Scan.stepsFrom passed.length (Line.advance 1 passed) ps

/-- The steps after the first one are those after the text with its piece. -/
theorem stepsAfter_cons (passed : List Char) (p : Piece) (ps : List Piece) :
    stepsAfter passed (p :: ps) = stepAfter passed p :: stepsAfter (passed ++ p.chars) ps := by
  rw [stepsAfter, stepsAfter, Scan.stepsFrom, Line.advance_append, List.length_append]
  rfl

/-- What comes of a list of steps is what comes of the first one and of the others. -/
theorem toList_append_filterMap {α : Type} (f : Scan.Step → Option α) (s : Scan.Step)
    (ss : List Scan.Step) : (f s).toList ++ ss.filterMap f = (s :: ss).filterMap f := by
  rw [List.filterMap_cons]
  cases f s <;> rfl

/-- The rounds take pieces one after the other, if there may be as many rounds as pieces.
The piece that was taken last is still between the start and the cursor. -/
theorem takes_rounds {ps : List Piece} {limit : Nat} (hfit : Piece.Fit ps)
    (hlimit : ps.length ≤ limit) (done taken : List Char) (ts : List Token)
    (es : List LexicalError) (r : Nat) :
    ∃ done' taken', Takes env
      (loop (return if ← atEnd env then none else some ()) (fun _ => round env) limit)
      ⟨done, taken, ps.flatMap Piece.chars, (done ++ taken).count '\n', ts, es, r⟩ ()
      ⟨done', taken', [], (done' ++ taken').count '\n',
        ts ++ (stepsAfter (done ++ taken) ps).filterMap Scan.Step.token?,
        es ++ (stepsAfter (done ++ taken) ps).filterMap Scan.Step.error?, r + ps.length⟩ := by
  induction ps generalizing done taken ts es r limit with
  | nil =>
    refine ⟨done, taken, ?_⟩
    simp only [stepsAfter, Scan.stepsFrom, List.flatMap_nil, List.filterMap_nil, List.append_nil]
    apply takes_loop_none
    apply takes_atEnd.bind
    exact .pure none
  | cons p ps ih =>
    cases limit with
    | zero => exact absurd hlimit (Nat.not_succ_le_zero _)
    | succ limit =>
      rcases hfit with ⟨hp, hstop, hrest⟩
      rcases ih hrest (Nat.le_of_succ_le_succ hlimit) (done ++ taken) p.chars
          (ts ++ (stepAfter (done ++ taken) p).token?.toList)
          (es ++ (stepAfter (done ++ taken) p).error?.toList) (r + 1) with ⟨done', taken', hloop⟩
      have hrounds : r + (p :: ps).length = r + 1 + ps.length := by
        rw [List.length_cons]
        omega
      refine ⟨done', taken', ?_⟩
      rw [hrounds, stepsAfter_cons, ← toList_append_filterMap, ← toList_append_filterMap,
        ← List.append_assoc, ← List.append_assoc, List.flatMap_cons]
      have hmore : (p.chars ++ ps.flatMap Piece.chars).isEmpty = false := by
        simp [Piece.chars_ne_nil hp]
      refine takes_loop_some (b := ()) ?_ (takes_round hp hstop) hloop
      apply takes_atEnd.bind
      rw [hmore]
      exact .pure _

/-- Pieces that fit together are no more than the characters that they have. -/
theorem length_le_of_fit {ps : List Piece} (hfit : Piece.Fit ps) :
    ps.length ≤ (ps.flatMap Piece.chars).length := by
  induction ps with
  | nil => exact Nat.le_refl _
  | cons p ps ih =>
    rcases hfit with ⟨hp, _, hrest⟩
    have hpos := List.length_pos_iff.mpr (Piece.chars_ne_nil hp)
    have hle := ih hrest
    rw [List.flatMap_cons, List.length_append, List.length_cons]
    omega

/-- The view before a scan. -/
def View.initial (env : Setting) : View :=
  ⟨[], [], env.source.toList, 0, [], [], 0⟩

/-- The whole source is scanned. -/
theorem takes_scanTokens (env : Setting) :
    ∃ v, v.tokens = (tokenize env.source).tokens ∧ v.errors = (tokenize env.source).errors ∧
      Takes env (scanTokens env) (.initial env) () v := by
  have hfit := Piece.fit_ofText env.source.toList
  have htext := Piece.flatMap_chars_ofText env.source.toList
  have hsteps : stepsAfter [] (Piece.ofText env.source.toList) = Scan.steps env.source := by
    simp [stepsAfter, Scan.steps, Line.advance]
  have hlimit : (Piece.ofText env.source.toList).length ≤ env.limit := by
    have hle := length_le_of_fit hfit
    rwa [htext] at hle
  rcases takes_rounds hfit hlimit [] [] [] [] 0 with ⟨done, taken, hloop⟩
  simp only [htext, List.append_nil, List.nil_append, hsteps] at hloop
  refine ⟨⟨done, taken, [], (done ++ taken).count '\n', (tokenize env.source).tokens,
    (tokenize env.source).errors, 0 + (Piece.ofText env.source.toList).length⟩, rfl, rfl, ?_⟩
  rw [tokens_tokenize, errors_tokenize]
  unfold scanTokens
  apply hloop.bind
  apply takes_here.bind
  apply Takes.of_fits
  intro hfits
  have hend : done ++ taken = env.source.toList := by simpa using hfits.text_eq
  apply takes_modify
  · simp
  · simp
  · intro s hs
    simp [hs, View.cursor, hend, Line.advance]
  · intro s hs
    simpa using hs

/-- A scan begins with the view of all the source. -/
theorem shows_initial (env : Setting) : Shows env (.initial env) .initial := by
  have hfits : (View.initial env).Fits env := by
    have hlt : 1 + 0 < UInt32.size := by decide
    exact ⟨rfl, Nat.le_refl _, Nat.zero_le _, fun _ => hlt, Nat.le_refl _⟩
  have hcursor : Cursor.initial = (View.initial env).cursor := by
    simp [Cursor.initial, View.initial, View.cursor, Line.advance]
  refine ⟨hfits, hcursor, rfl, rfl, rfl, ?_⟩
  intro n hn
  obtain rfl := List.mem_singleton.mp hn
  rw [hcursor]
  exact hfits.sound_cursor

end

/-- A scan by byte offsets is safe, and finds what a scan by characters does.  It takes as
many rounds as the source has characters at most, and every round passes one or more whole
characters.  All its cursors and slices are in order and within the source, and cut through
no character, and its lines are in order as far as they can be counted.  It comes to an end,
with the same tokens and errors, unless there are more newlines than can be counted and the
overflow makes it fail; that is the only failure, so no slice is bad, and no loop runs more
often than the source has characters. -/
theorem run_safe (env : Setting) :
    (run env).2.rounds ≤ env.limit ∧
      (∀ n ∈ (run env).2.notes, n.Sound env) ∧
      ((run env).1 = .ok () ∧
          (run env).2.tokens.toList = (tokenize env.source).tokens ∧
          (run env).2.errors.toList = (tokenize env.source).errors ∨
        (run env).1 = .error .lineOverflow ∧ env.checked ∧ UInt32.size - 1 ≤ env.newlines) := by
  rcases takes_scanTokens env with ⟨v, htokens, herrors, htakes⟩
  have hrun := htakes .initial (shows_initial env)
  unfold run
  rcases hexec : exec (scanTokens env) .initial with ⟨e | u, s⟩
  · rw [hexec] at hrun
    obtain ⟨rfl, hchecked, hmany, hrounds, hsound⟩ := hrun
    exact ⟨hrounds, hsound, .inr ⟨rfl, hchecked, hmany⟩⟩
  · rw [hexec] at hrun
    obtain ⟨_, hshows⟩ := hrun
    refine ⟨?_, hshows.sound, .inl ⟨rfl, ?_, ?_⟩⟩
    · rw [hshows.rounds_eq]
      exact hshows.fits.rounds_le_limit
    · rw [hshows.tokens_eq, htokens]
    · rw [hshows.errors_eq, herrors]

/-- The quotes have one byte each, and the character between them has two. -/
example : (run ⟨"\"é\"", true⟩).2.tokens.toList.map Token.lexeme = ["\"é\"", ""] ∧
    (run ⟨"\"é\"", true⟩).2.cursor.current = 4 := by
  decide +kernel

end ByteScan
end LoxScan
