import LoxScan.Proofs.Concatenation
import LoxScan.Proofs.DeliveredLines
import LoxScan.Proofs.Image
import LoxScan.Proofs.LineEndings

/-!
# LoxScan - Scanning line by line

The lines of a text may be scanned one by one, each as a source of its own.  If no line that
ends in a newline leaves a string open, this finds what a scan of the whole text finds: a
newline ends every piece but a string, and with or without a carriage return before it, it
hands on nothing.  Only the lines of the findings differ, as each line is the first one of
its own source.

Main definitions:

- `Token.onLine` and `LexicalError.onLine`, what was found, on another line.

Main results:

- Theorem `Scan.heard_concat_newline`: a line is scanned in the same way with its ending
  and without.
- Theorem `Scan.heard_lines`: a scan of a text finds what is found in its lines, in order.
- Theorems `proper_eq_flatMap_all` and `errors_eq_flatMap_all`: the same for tokens and
  errors, and `map_content_eq_flatMap_all` and `map_cause_eq_flatMap_all`, without lines.
-/

namespace LoxScan

/-! ## On another line -/

/-- A token on another line. -/
def Token.onLine (i : Nat) (t : Token) : Token :=
  { t with line := UInt32.ofNat i }

/-- An error on another line. -/
def LexicalError.onLine (i : Nat) (e : LexicalError) : LexicalError :=
  { e with line := UInt32.ofNat i }

namespace Event

/-- An event on another line. -/
def onLine (i : Nat) : Event → Event
  | token t => token (t.onLine i)
  | error e => error (e.onLine i)

/-- The token of an event on another line. -/
theorem token?_onLine (i : Nat) (e : Event) :
    (e.onLine i).token? = e.token?.map (Token.onLine i) := by
  cases e <;> rfl

/-- The error of an event on another line. -/
theorem error?_onLine (i : Nat) (e : Event) :
    (e.onLine i).error? = e.error?.map (LexicalError.onLine i) := by
  cases e <;> rfl

/-- An event is not moved by no lines. -/
theorem raise_zero (e : Event) : e.raise 0 = e := by
  cases e <;> simp [raise, Token.raise, LexicalError.raise, Line.raise]

/-- Moving an event on twice is moving it on by all the lines at once. -/
theorem raise_raise (k l : Nat) (e : Event) : (e.raise l).raise k = e.raise (k + l) := by
  have hline : ∀ line, Line.raise k (Line.raise l line) = Line.raise (k + l) line := by
    intro line
    rw [Line.raise, Line.raise, Line.raise, UInt32.ofNat_add, UInt32.add_assoc,
      UInt32.add_comm (UInt32.ofNat l)]
  cases e <;> simp [raise, Token.raise, LexicalError.raise, hline]

end Event

/-! ## What a scan finds in a line -/

namespace Scan

/-- What a scan finds, by its steps. -/
theorem heard_eq_filterMap (source : String) :
    heard source = (steps source).filterMap Step.event? :=
  events_eq_filterMap 0 1 _

/-- What a scan of two texts in a row finds, the first of which ends at a boundary. -/
theorem heard_append {a b : String} (h : IsBoundary (a ++ b) a.toList.length) :
    heard (a ++ b) = heard a ++ (heard b).map (Event.raise (a.toList.count '\n')) := by
  rw [heard_eq_filterMap, heard_eq_filterMap, heard_eq_filterMap]
  exact filterMap_steps_append Step.event?_shift h

end Scan

/-- The tokens before the one for the end are those among what a scan finds. -/
theorem proper_eq_filterMap_heard (source : String) :
    (tokenize source).proper = (Scan.heard source).filterMap Event.token? := by
  rw [proper_tokenize, Scan.heard_eq_filterMap, List.filterMap_filterMap]
  rfl

namespace Scan

/-- A token that a scan finds is one of the source. -/
theorem mem_proper_of_mem_heard {source : String} {t : Token} (h : .token t ∈ heard source) :
    t ∈ (tokenize source).proper := by
  rw [proper_eq_filterMap_heard]
  exact List.mem_filterMap.mpr ⟨_, h, rfl⟩

/-- An error that a scan finds is one of the source. -/
theorem mem_errors_of_mem_heard {source : String} {e : LexicalError} (h : .error e ∈ heard source) :
    e ∈ (tokenize source).errors := by
  rw [errors_eq_filterMap_heard]
  exact List.mem_filterMap.mpr ⟨_, h, rfl⟩

end Scan

/-- A token has only characters of its source. -/
theorem mem_toList_of_mem_lexeme {source : String} {t : Token} {c : Char}
    (ht : t ∈ (tokenize source).proper) (hc : c ∈ t.lexeme.toList) : c ∈ source.toList := by
  rw [proper_tokenize] at ht
  rcases List.mem_filterMap.mp ht with ⟨s, hs, htoken⟩
  rcases Scan.exists_passed_of_mem_steps hs with ⟨passed, rest, hsource, _, _, hwell, _⟩
  rcases Scan.Step.spec_of_token? hwell htoken with ⟨_, hlexeme, _⟩
  rw [hlexeme, String.toList_ofList] at hc
  simp [hsource, hc]

/-- In a source of one line everything is on the first line. -/
theorem line_eq_one {source : String} (h : '\n' ∉ source.toList) :
    (∀ t ∈ (tokenize source).tokens, t.line = 1) ∧ ∀ e ∈ (tokenize source).errors, e.line = 1 := by
  have hfirst : ∀ passed, passed <+: source.toList → Line.advance 1 passed = 1 := by
    intro passed hpassed
    have hcount : passed.count '\n' = 0 :=
      List.count_eq_zero.mpr fun hmem => h (hpassed.subset hmem)
    rw [Line.advance, hcount]
    rfl
  constructor
  · intro t ht
    rcases exists_prefix_of_mem_tokens ht with ⟨passed, hpassed, hline⟩
    rw [hline, hfirst passed hpassed]
  · intro e he
    rcases exists_prefix_of_mem_errors he with ⟨passed, hpassed, hline⟩
    rw [hline, hfirst passed hpassed]

/-- In a source of one line everything that is moved on is on the line after those that it
has passed. -/
theorem Scan.raise_eq_onLine {source : String} {e : Event} (h : '\n' ∉ source.toList)
    (he : e ∈ heard source) (k : Nat) : e.raise k = e.onLine (k + 1) := by
  have hline : Line.raise k 1 = UInt32.ofNat (k + 1) := by
    rw [Line.raise, UInt32.ofNat_add, UInt32.add_comm]
    rfl
  cases e with
  | token t =>
    have hproper := mem_proper_of_mem_heard he
    have ht : t.line = 1 := (line_eq_one h).1 t (List.mem_of_mem_filter hproper)
    rw [Event.raise, Event.onLine, Token.raise, Token.onLine, ht, hline]
  | error e =>
    have he : e.line = 1 := (line_eq_one h).2 e (mem_errors_of_mem_heard he)
    rw [Event.raise, Event.onLine, LexicalError.raise, LexicalError.onLine, he, hline]

/-! ## The ending of a line -/

/-- A well-formed token on one line has no line endings to change. -/
theorem Token.unified_eq_self {t : Token} (h : t.WellFormed) (hline : '\n' ∉ t.lexeme.toList) :
    t.unified = t := by
  unfold Token.unified
  split
  · rename_i hkind
    rw [WellFormed, hkind] at h
    rcases h with ⟨s, _, hlexeme, hliteral⟩
    have hs : '\n' ∉ s.toList := fun hmem => hline (by simp [hlexeme, hmem])
    have hsame : ∀ r : String, '\n' ∉ r.toList → LoxScan.unified r = r := by
      intro r hr
      rw [LoxScan.unified, Line.unify_of_not_mem hr, String.ofList_toList]
    rcases t with ⟨kind, lexeme, literal, line⟩
    simp only at hline hliteral
    rw [hliteral]
    simp [hsame _ hline, Literal.unified, hsame _ hs]
  · rfl

/-- Changing line endings leaves a token on as many lines. -/
theorem Token.newline_mem_lexeme_unified {t : Token} (h : '\n' ∈ t.lexeme.toList) :
    '\n' ∈ t.unified.lexeme.toList := by
  unfold Token.unified
  split
  · rw [LoxScan.unified, String.toList_ofList, ← List.count_pos_iff, Line.count_newline_unify,
      List.count_pos_iff]
    exact h
  · exact h

namespace Scan

variable {front : List Char}

/-- A line is scanned in the same way with a newline after it and without. -/
theorem heard_append_newline {line : String}
    (hopen : ∀ e ∈ (tokenize line).errors, e.cause ≠ .unterminatedString) :
    heard (line ++ "\n") = heard line := by
  have hnone : heard "\n" = [] := by decide +kernel
  rw [heard_append (isBoundary_of_newline_mem_head? (by decide) hopen), hnone]
  simp

/-- A line is scanned in the same way with its ending and without, if it leaves no string
open. -/
theorem heard_concat_newline (hfront : '\n' ∉ front)
    (hopen : ∀ e ∈ (tokenize (String.ofList (dropEnd '\r' front))).errors,
      e.cause ≠ .unterminatedString) :
    heard (String.ofList (front ++ ['\n'])) = heard (String.ofList (dropEnd '\r' front)) := by
  -- With the line endings made the same, the carriage return is gone in both.
  have hunified : unified (String.ofList (front ++ ['\n'])) =
      String.ofList (dropEnd '\r' front) ++ "\n" := by
    apply String.toList_inj.mp
    simp [unified, Line.unify_append_of_not_mem hfront, Line.unify]
  have hheard : (heard (String.ofList (front ++ ['\n']))).map Event.unified =
      heard (String.ofList (dropEnd '\r' front)) := by
    rw [← heard_append_newline hopen, ← hunified,
      Piece.rewrites_unified.heard_eq (toList_unified _), List.filterMap_eq_map]
  have hself : ∀ e ∈ heard (String.ofList (front ++ ['\n'])), e.unified = e := by
    intro e he
    cases e with
    | error e => rfl
    | token t =>
      have hmem : .token t.unified ∈ heard (String.ofList (dropEnd '\r' front)) := by
        rw [← hheard]
        exact List.mem_map.mpr ⟨_, he, rfl⟩
      have hline : '\n' ∉ t.lexeme.toList := by
        intro hnewline
        have hsource := mem_toList_of_mem_lexeme (mem_proper_of_mem_heard hmem)
          (Token.newline_mem_lexeme_unified hnewline)
        rw [String.toList_ofList] at hsource
        exact hfront (mem_of_mem_dropEnd hsource)
      have hwell := wellFormed_of_mem_proper (mem_proper_of_mem_heard he)
      rw [Event.unified, Token.unified_eq_self hwell hline]
  rw [← hheard, List.map_congr_left hself, List.map_id']

/-- A line with its ending, and then more text, is scanned as the line without it, and
then the text one line further on. -/
theorem heard_append_newline_cons (hfront : '\n' ∉ front)
    (hopen : ∀ e ∈ (tokenize (String.ofList (dropEnd '\r' front))).errors,
      e.cause ≠ .unterminatedString) (rest : List Char) :
    heard (String.ofList (front ++ '\n' :: rest)) =
      heard (String.ofList (dropEnd '\r' front)) ++
        (heard (String.ofList rest)).map (Event.raise 1) := by
  have hcut : String.ofList (front ++ '\n' :: rest) =
      String.ofList (front ++ ['\n']) ++ String.ofList rest := by
    apply String.toList_inj.mp
    simp
  have hcount : (String.ofList (front ++ ['\n'])).toList.count '\n' = 1 := by
    simp [List.count_eq_zero.mpr hfront]
  have hfirst := heard_concat_newline hfront hopen
  have hclosed : ∀ e ∈ (tokenize (String.ofList (front ++ ['\n']))).errors,
      e.cause ≠ .unterminatedString := by
    rwa [errors_eq_filterMap_heard, hfirst, ← errors_eq_filterMap_heard]
  rw [hcut, heard_append (isBoundary_of_newline (by simp) hclosed _), hfirst, hcount]

/-! ## All lines -/

/-- A scan of a text finds what scans of its lines find, in order, and each of them on the
line from which it comes.  Lines are counted from any number. -/
theorem heard_lines (cs : List Char) (k : Nat)
    (hclosed : ∀ line ∈ (Line.delivered '\n' '\r' cs).take (cs.count '\n'),
      ∀ e ∈ (tokenize (String.ofList line)).errors, e.cause ≠ .unterminatedString) :
    (heard (String.ofList cs)).map (Event.raise k) =
      ((Line.delivered '\n' '\r' cs).zipIdx (k + 1)).flatMap fun x =>
        (heard (String.ofList x.1)).map (Event.onLine x.2) := by
  have honLine : ∀ {w : List Char}, '\n' ∉ w → ∀ k,
      (heard (String.ofList w)).map (Event.raise k) =
        (heard (String.ofList w)).map (Event.onLine (k + 1)) := by
    intro w hw k
    exact List.map_congr_left fun e he => raise_eq_onLine (by simpa using hw) he k
  fun_induction Line.delivered '\n' '\r' cs generalizing k with
  | case1 cs h ih =>
    have hfront : '\n' ∉ before '\n' cs := not_mem_before '\n' cs
    have hline : '\n' ∉ dropEnd '\r' (before '\n' cs) := fun hmem =>
      hfront (mem_of_mem_dropEnd hmem)
    have hcount : cs.count '\n' = (after '\n' cs).count '\n' + 1 := by
      conv_lhs => rw [← before_append_cons_after h]
      simp [List.count_eq_zero.mpr hfront]
    rw [hcount, List.take_succ_cons] at hclosed
    have hcut := heard_append_newline_cons hfront (hclosed _ List.mem_cons_self) (after '\n' cs)
    rw [before_append_cons_after h] at hcut
    have hrest := ih (k + 1) fun line hmem => hclosed line (List.mem_cons_of_mem _ hmem)
    have hraise : Event.raise k ∘ Event.raise 1 = Event.raise (k + 1) :=
      funext (Event.raise_raise k 1)
    rw [hcut, List.map_append, List.map_map, hraise, hrest, honLine hline, List.zipIdx_cons,
      List.flatMap_cons]
  | case2 h => simp [heard, events]
  | case3 cs h hne =>
    rw [honLine h]
    simp

end Scan

/-- What depends on elements only is picked from them without their positions. -/
theorem flatMap_zipIdx {α β : Type} (f : α → List β) (xs : List α) (n : Nat) :
    ((xs.zipIdx n).flatMap fun x => f x.1) = xs.flatMap f := by
  conv_rhs => rw [← List.zipIdx_map_fst n xs, List.flatMap_map]

section Closed

variable {text : String}
  (hclosed : ∀ line ∈ Line.ended text,
    ∀ e ∈ (tokenize line).errors, e.cause ≠ .unterminatedString)
include hclosed

/-- A scan of a text finds what scans of its lines find, each of them on its line. -/
theorem Scan.heard_eq_flatMap_all :
    heard text = ((Line.all text).zipIdx 1).flatMap fun x =>
      (heard x.1).map (Event.onLine x.2) := by
  have hlines := heard_lines text.toList 0 (by
    intro line hmem
    apply hclosed
    rw [Line.ended, Line.all, ← List.map_take]
    exact List.mem_map_of_mem hmem)
  have hraise : (heard text).map (Event.raise 0) = heard text := by
    rw [List.map_congr_left fun e _ => Event.raise_zero e, List.map_id']
  rw [String.ofList_toList, hraise] at hlines
  rw [hlines, Line.all, List.zipIdx_map, List.flatMap_map]
  rfl

/-- What is picked from a scan of a text is picked from scans of its lines, if it is moved
to another line together with the event. -/
theorem Scan.filterMap_heard_eq_flatMap_all {α : Type} {f : Event → Option α} {g : Nat → α → α}
    (hline : ∀ i e, f (e.onLine i) = (f e).map (g i)) :
    (heard text).filterMap f = ((Line.all text).zipIdx 1).flatMap fun x =>
      ((heard x.1).filterMap f).map (g x.2) := by
  rw [heard_eq_flatMap_all hclosed, List.filterMap_flatMap]
  congr 1
  funext x
  rw [List.filterMap_map, List.map_filterMap]
  exact List.filterMap_congr fun e _ => hline x.2 e

/-- The tokens of a text are those of its lines, each on its line. -/
theorem proper_eq_flatMap_all :
    (tokenize text).proper = ((Line.all text).zipIdx 1).flatMap fun x =>
      (tokenize x.1).proper.map (Token.onLine x.2) := by
  simp only [proper_eq_filterMap_heard]
  exact Scan.filterMap_heard_eq_flatMap_all hclosed Event.token?_onLine

/-- The errors of a text are those of its lines, each on its line. -/
theorem errors_eq_flatMap_all :
    (tokenize text).errors = ((Line.all text).zipIdx 1).flatMap fun x =>
      (tokenize x.1).errors.map (LexicalError.onLine x.2) := by
  simp only [errors_eq_filterMap_heard]
  exact Scan.filterMap_heard_eq_flatMap_all hclosed Event.error?_onLine

/-- The contents of the tokens of a text are those of its lines. -/
theorem map_content_eq_flatMap_all :
    (tokenize text).proper.map Token.content =
      (Line.all text).flatMap fun line => (tokenize line).proper.map Token.content := by
  have hcontent : ∀ i, Token.content ∘ Token.onLine i = Token.content := fun _ => rfl
  rw [proper_eq_flatMap_all hclosed, List.map_flatMap]
  simp only [List.map_map, hcontent]
  exact flatMap_zipIdx (fun line => (tokenize line).proper.map Token.content) _ 1

/-- The causes of the errors of a text are those of its lines. -/
theorem map_cause_eq_flatMap_all :
    (tokenize text).errors.map LexicalError.cause =
      (Line.all text).flatMap fun line => (tokenize line).errors.map LexicalError.cause := by
  have hcause : ∀ i, LexicalError.cause ∘ LexicalError.onLine i = LexicalError.cause :=
    fun _ => rfl
  rw [errors_eq_flatMap_all hclosed, List.map_flatMap]
  simp only [List.map_map, hcause]
  exact flatMap_zipIdx (fun line => (tokenize line).errors.map LexicalError.cause) _ 1

end Closed

end LoxScan
