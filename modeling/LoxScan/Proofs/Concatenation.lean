import LoxScan.Proofs.Steps

/-!
# LoxScan - Scanning two texts in a row

Where a step of a scan begins, the scan may be cut in two.  What comes before the
place is scanned as if the source ended there, although a scan looks ahead, and what
comes after it as if the source began there, on a later line.  After a newline there
is always such a place, unless it stands in an open string.

Main definitions:

- `Scan.IsBoundary`, for the offsets where steps begin and the source ends;
- `Token.raise` and `LexicalError.raise`, what was found, so many lines further on.

Main results:

- Theorem `Scan.steps_append`: the steps of two texts in a row are those of the first
  text and, further on, those of the second one.
- Theorem `Scan.isBoundary_of_newline`: a text that ends in a newline and leaves no
  string open ends at a boundary, whatever follows it.
- Theorem `tokenize_append`: the tokens and the errors of two texts in a row.
-/

namespace LoxScan

/-! ## Further on in a text -/

/-- A line, so many lines further on. -/
def Line.raise (k : Nat) (line : UInt32) : UInt32 :=
  line + UInt32.ofNat k

/-- A token, so many lines further on. -/
def Token.raise (k : Nat) (t : Token) : Token :=
  { t with line := Line.raise k t.line }

/-- An error, so many lines further on. -/
def LexicalError.raise (k : Nat) (e : LexicalError) : LexicalError :=
  { e with line := Line.raise k e.line }

/-- An event, so many lines further on. -/
def Event.raise (k : Nat) : Event → Event
  | token t => token (t.raise k)
  | error e => error (e.raise k)

/-- A text that begins further on ends further on. -/
theorem Line.advance_raise (k : Nat) (line : UInt32) (cs : List Char) :
    advance (raise k line) cs = raise k (advance line cs) := by
  rw [advance, advance, raise, raise, UInt32.add_assoc, UInt32.add_assoc,
    UInt32.add_comm (UInt32.ofNat k)]

/-- Passing a text raises the line by the number of its newlines. -/
theorem Line.advance_eq_raise (line : UInt32) (cs : List Char) :
    advance line cs = raise (cs.count '\n') line :=
  rfl

/-- A line that a text reaches is raised without overflow, if there is room for the
newlines of the text and for the lines above it. -/
theorem Line.toNat_raise_advance {k : Nat} {passed text : List Char} (hpassed : passed <+: text)
    (h : k + text.count '\n' < UInt32.size - 1) :
    (raise k (advance 1 passed)).toNat = (advance 1 passed).toNat + k := by
  have hle : passed.count '\n' ≤ text.count '\n' := hpassed.sublist.count_le '\n'
  have hline : (advance 1 passed).toNat = 1 + passed.count '\n' := toNat_advance_one (by omega)
  have hk : (UInt32.ofNat k).toNat = k := UInt32.toNat_ofNat_of_lt' (by omega)
  have hlt : (advance 1 passed).toNat + k < UInt32.size := by omega
  rw [raise, UInt32.toNat_add, hk]
  exact Nat.mod_eq_of_lt hlt

namespace Scan

/-- A step, further on by a number of characters and of lines. -/
def Step.shift (n k : Nat) (s : Step) : Step :=
  ⟨n + s.offset, Line.raise k s.line, s.piece⟩

namespace Step

/-- A step further on gives rise to the same event further on. -/
theorem event?_shift (n k : Nat) (s : Step) :
    (s.shift n k).event? = s.event?.map (Event.raise k) := by
  rcases s with ⟨offset, line, p⟩
  cases p with
  | number m =>
    simp only [shift, event?, Piece.event?]
    cases Numeral.read? m.chars <;> rfl
  | unterminated body =>
    simp [shift, event?, stop, Piece.event?, Line.advance_raise, Event.raise, LexicalError.raise]
  | _ => rfl

/-- A step further on hands on the same token further on. -/
theorem token?_shift (n k : Nat) (s : Step) :
    (s.shift n k).token? = s.token?.map (Token.raise k) := by
  rw [token?, token?, event?_shift]
  rcases s.event? with _ | _ | _ <;> rfl

/-- A step further on hands on the same error further on. -/
theorem error?_shift (n k : Nat) (s : Step) :
    (s.shift n k).error? = s.error?.map (LexicalError.raise k) := by
  rw [error?, error?, event?_shift]
  rcases s.event? with _ | _ | _ <;> rfl

end Step

/-- The steps that take pieces further on are the same steps further on. -/
theorem stepsFrom_shift (n k offset : Nat) (line : UInt32) (ps : List Piece) :
    stepsFrom (n + offset) (Line.raise k line) ps =
      (stepsFrom offset line ps).map (Step.shift n k) := by
  induction ps generalizing offset line with
  | nil => rfl
  | cons p ps ih =>
    rw [stepsFrom, stepsFrom, List.map_cons, Line.advance_raise, Nat.add_assoc, ih]
    rfl

/-! ## Boundaries -/

/-- Whether a step of the scan of a source begins at an offset, or the source ends
there. -/
def IsBoundary (source : String) (offset : Nat) : Prop :=
  (∃ s ∈ steps source, s.offset = offset) ∨ offset = source.toList.length

/-- The boundaries of a source lie between its pieces. -/
theorem isBoundary_iff_exists_append {source : String} {offset : Nat} :
    IsBoundary source offset ↔
      ∃ ps qs, Piece.ofText source.toList = ps ++ qs ∧
        (ps.flatMap Piece.chars).length = offset := by
  constructor
  · rintro (⟨s, hs, rfl⟩ | rfl)
    · rcases exists_append_of_mem_stepsFrom hs with ⟨taken, left, hps, hoffset, _⟩
      exact ⟨taken, s.piece :: left, hps, by simpa using hoffset.symm⟩
    · refine ⟨Piece.ofText source.toList, [], by simp, ?_⟩
      rw [Piece.flatMap_chars_ofText]
  · rintro ⟨ps, qs, hps, rfl⟩
    cases qs with
    | nil =>
      right
      rw [← Piece.flatMap_chars_ofText source.toList, hps, List.append_nil]
    | cons q qs =>
      left
      refine ⟨⟨_, Line.advance 1 (ps.flatMap Piece.chars), q⟩, ?_, rfl⟩
      rw [steps, hps, stepsFrom_append]
      simp [stepsFrom]

/-- The first text of two ends at a boundary exactly if its pieces fit before the
second text. -/
theorem isBoundary_append_iff {a b : String} :
    IsBoundary (a ++ b) a.toList.length ↔
      Piece.FitBefore (Piece.ofText a.toList) b.toList := by
  rw [isBoundary_iff_exists_append]
  constructor
  · rintro ⟨ps, qs, happend, hlength⟩
    -- The pieces up to the boundary make up the first text, and so they are its pieces.
    rcases Piece.ofText_eq_iff.mp happend with ⟨htext, hfit⟩
    rw [List.flatMap_append, String.toList_append] at htext
    rcases List.append_inj htext hlength with ⟨hps, hqs⟩
    have hbefore := (Piece.fit_append_iff.mp hfit).1
    rw [hqs] at hbefore
    rwa [Piece.ofText_eq_iff.mpr ⟨hps, hbefore.fit⟩]
  · intro hbefore
    refine ⟨Piece.ofText a.toList, Piece.ofText b.toList, ?_, ?_⟩
    · rw [String.toList_append, Piece.ofText_append hbefore]
    · rw [Piece.flatMap_chars_ofText]

/-- At a boundary the steps of two texts in a row are those of the first text and,
further on, those of the second one. -/
theorem steps_append {a b : String} (h : IsBoundary (a ++ b) a.toList.length) :
    steps (a ++ b) =
      steps a ++ (steps b).map (Step.shift a.toList.length (a.toList.count '\n')) := by
  rw [steps, steps, steps, String.toList_append,
    Piece.ofText_append (isBoundary_append_iff.mp h), stepsFrom_append, Piece.flatMap_chars_ofText,
    Line.advance_eq_raise, Nat.zero_add, ← stepsFrom_shift, Nat.add_zero]

/-- What is picked from the steps of a scan of two texts in a row, if it is further on with
the step, and the first text ends at a boundary. -/
theorem filterMap_steps_append {α : Type} {f : Step → Option α} {further : Nat → α → α}
    (hf : ∀ n k s, f (s.shift n k) = (f s).map (further k)) {a b : String}
    (h : IsBoundary (a ++ b) a.toList.length) :
    (steps (a ++ b)).filterMap f =
      (steps a).filterMap f ++ ((steps b).filterMap f).map (further (a.toList.count '\n')) := by
  rw [steps_append h, List.filterMap_append, List.filterMap_map, List.map_filterMap]
  congr 1
  exact List.filterMap_congr fun s _ => hf _ _ s

/-- A source without an error about an open string has none among its pieces. -/
theorem unterminated_not_mem_ofText {a : String}
    (hopen : ∀ e ∈ (tokenize a).errors, e.cause ≠ .unterminatedString) (body : List Char) :
    .unterminated body ∉ Piece.ofText a.toList := by
  intro hmem
  have hcause : .unterminatedString ∈ (tokenize a).errors.map LexicalError.cause := by
    rw [causes_tokenize]
    exact List.mem_filterMap.mpr ⟨_, hmem, rfl⟩
  rcases List.mem_map.mp hcause with ⟨e, he, hunterminated⟩
  exact hopen e he hunterminated

/-- A text that ends in a newline and leaves no string open ends at a boundary, whatever
follows it. -/
theorem isBoundary_of_newline {a : String} (hend : a.toList.getLast? = some '\n')
    (hopen : ∀ e ∈ (tokenize a).errors, e.cause ≠ .unterminatedString) (b : String) :
    IsBoundary (a ++ b) a.toList.length := by
  rw [isBoundary_append_iff]
  apply (Piece.fit_ofText a.toList).fitBefore_of_newline (unterminated_not_mem_ofText hopen)
  rwa [Piece.flatMap_chars_ofText]

/-- A text that leaves no string open ends at a boundary if a newline follows it. -/
theorem isBoundary_of_newline_mem_head? {a b : String} (hhead : '\n' ∈ b.toList.head?)
    (hopen : ∀ e ∈ (tokenize a).errors, e.cause ≠ .unterminatedString) :
    IsBoundary (a ++ b) a.toList.length := by
  rcases List.head?_eq_some_iff.mp hhead with ⟨rest, hb⟩
  rw [isBoundary_append_iff, hb]
  exact (Piece.fit_ofText a.toList).fitBefore_newline_cons (unterminated_not_mem_ofText hopen) rest

/-! ## Lines that are reached -/

/-- The line of a step is reached with the text before it, and the line where it stops
with the text up to its end. -/
theorem exists_prefix_of_mem_steps {source : String} {s : Step} (hs : s ∈ steps source) :
    (∃ passed, passed <+: source.toList ∧ s.line = Line.advance 1 passed) ∧
      ∃ passed, passed <+: source.toList ∧ s.stop = Line.advance 1 passed := by
  rcases exists_passed_of_mem_steps hs with ⟨passed, rest, hsource, _, hline, _⟩
  constructor
  · exact ⟨passed, ⟨_, hsource.symm⟩, hline⟩
  · refine ⟨passed ++ s.piece.chars, ⟨rest, by simp [hsource]⟩, ?_⟩
    rw [Step.stop, hline, Line.advance_append]

end Scan

/-- The line of a token is reached with a front of the source. -/
theorem exists_prefix_of_mem_tokens {source : String} {t : Token}
    (ht : t ∈ (tokenize source).tokens) :
    ∃ passed, passed <+: source.toList ∧ t.line = Line.advance 1 passed := by
  rw [tokens_tokenize] at ht
  rcases List.mem_append.mp ht with hproper | hend
  · rcases List.mem_filterMap.mp hproper with ⟨s, hs, htoken⟩
    rcases Scan.Step.spec_of_token? (Scan.wellFormed_of_mem_steps hs) htoken with ⟨_, _, hline⟩
    rw [hline]
    exact (Scan.exists_prefix_of_mem_steps hs).1
  · obtain rfl := List.mem_singleton.mp hend
    exact ⟨source.toList, List.prefix_rfl, rfl⟩

/-- The line of an error is reached with a front of the source. -/
theorem exists_prefix_of_mem_errors {source : String} {e : LexicalError}
    (he : e ∈ (tokenize source).errors) :
    ∃ passed, passed <+: source.toList ∧ e.line = Line.advance 1 passed := by
  rw [errors_tokenize] at he
  rcases List.mem_filterMap.mp he with ⟨s, hs, herror⟩
  rcases Scan.Step.spec_of_error? (Scan.wellFormed_of_mem_steps hs) herror with
    ⟨c, _, rfl⟩ | ⟨body, _, rfl⟩
  · exact (Scan.exists_prefix_of_mem_steps hs).1
  · exact (Scan.exists_prefix_of_mem_steps hs).2

/-! ## Two texts in a row -/

/-- The tokens of two texts in a row, the first of which ends at a boundary. -/
theorem tokens_append {a b : String} (h : Scan.IsBoundary (a ++ b) a.toList.length) :
    (tokenize (a ++ b)).tokens = (tokenize a).proper ++
      (tokenize b).tokens.map (Token.raise (a.toList.count '\n')) := by
  have hlast : Token.eof (Line.advance 1 (a ++ b).toList) =
      (Token.eof (Line.advance 1 b.toList)).raise (a.toList.count '\n') := by
    rw [String.toList_append, Line.advance_append, Line.advance_eq_raise 1 a.toList,
      Line.advance_raise]
    rfl
  rw [tokens_tokenize, tokens_tokenize b, proper_tokenize,
    Scan.filterMap_steps_append Scan.Step.token?_shift h, hlast, List.map_append, List.append_assoc]
  rfl

/-- The errors of two texts in a row, the first of which ends at a boundary. -/
theorem errors_append {a b : String} (h : Scan.IsBoundary (a ++ b) a.toList.length) :
    (tokenize (a ++ b)).errors = (tokenize a).errors ++
      (tokenize b).errors.map (LexicalError.raise (a.toList.count '\n')) := by
  rw [errors_tokenize, errors_tokenize a, errors_tokenize b]
  exact Scan.filterMap_steps_append Scan.Step.error?_shift h

/-- If the first of two texts ends at a boundary, scanning both in a row gives the tokens
of the first one without the one for the end, and then those of the second one with
all lines raised by the newlines of the first, where no line overflows; and the errors
are those of the first text, and those of the second one raised in the same way.  A
text that ends in a newline and leaves no string open always ends at a boundary. -/
theorem tokenize_append (a b : String)
    (hcount : (a ++ b).toList.count '\n' < UInt32.size - 1) :
    (Scan.IsBoundary (a ++ b) a.toList.length →
      (tokenize (a ++ b)).tokens = (tokenize a).proper ++
          (tokenize b).tokens.map (Token.raise (a.toList.count '\n')) ∧
        (tokenize (a ++ b)).errors = (tokenize a).errors ++
          (tokenize b).errors.map (LexicalError.raise (a.toList.count '\n')) ∧
        (∀ t ∈ (tokenize b).tokens,
          (t.raise (a.toList.count '\n')).line.toNat = t.line.toNat + a.toList.count '\n') ∧
        ∀ e ∈ (tokenize b).errors,
          (e.raise (a.toList.count '\n')).line.toNat = e.line.toNat + a.toList.count '\n') ∧
    (a.toList.getLast? = some '\n' →
      (∀ e ∈ (tokenize a).errors, e.cause ≠ .unterminatedString) →
      Scan.IsBoundary (a ++ b) a.toList.length) := by
  rw [String.toList_append, List.count_append] at hcount
  refine ⟨?_, fun hend hopen => Scan.isBoundary_of_newline hend hopen b⟩
  intro hboundary
  refine ⟨tokens_append hboundary, errors_append hboundary, ?_, ?_⟩
  · intro t ht
    rcases exists_prefix_of_mem_tokens ht with ⟨passed, hpassed, hline⟩
    rw [Token.raise, hline]
    exact Line.toNat_raise_advance hpassed hcount
  · intro e he
    rcases exists_prefix_of_mem_errors he with ⟨passed, hpassed, hline⟩
    rw [LexicalError.raise, hline]
    exact Line.toNat_raise_advance hpassed hcount

/-- A string over two lines and an error, before a comment, an error and an open string:
the first text ends in a newline, and the errors of the second one are on the lines
after it. -/
theorem tokenize_append_over_lines :
    ("\"x\ny\" @\n" ++ "// =\n# \"z").toList.count '\n' < UInt32.size - 1 ∧
      Scan.IsBoundary ("\"x\ny\" @\n" ++ "// =\n# \"z") "\"x\ny\" @\n".toList.length ∧
      (tokenize ("\"x\ny\" @\n" ++ "// =\n# \"z")).errors =
        [⟨.unexpectedCharacter '@', 2⟩, ⟨.unexpectedCharacter '#', 4⟩,
          ⟨.unterminatedString, 4⟩] := by
  have hcount : ("\"x\ny\" @\n" ++ "// =\n# \"z").toList.count '\n' < UInt32.size - 1 := by
    decide
  rcases tokenize_append _ _ hcount with ⟨happend, hnewline⟩
  have hboundary := hnewline (by decide) (by decide +kernel)
  refine ⟨hcount, hboundary, ?_⟩
  rw [(happend hboundary).2.1]
  decide +kernel

end LoxScan
