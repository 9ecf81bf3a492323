import LoxScan.Proofs.ByteScanSafety

/-!
# LoxScan - The notes of a scan are complete

A scan by byte offsets is made from a few single actions.  One of them moves the cursor, and
one of them looks at the bytes.  What an action does is the list of these deeds, which is said
here without the notes that the action takes; so it can be compared with them.  The notes turn
out to be just that list: no cursor is placed and no slice is cut without a note.

Main definitions:

- `ByteScan.Trace`, what an action does from a state on;
- `ByteScan.Traced`, the actions that are made from single ones, so that all they do is told.

Main results:

- Theorem `ByteScan.Trace.notes_eq`: an action takes note of what it does, and of nothing else.
- Theorem `ByteScan.Trace.cursor_eq`: only what was done has moved the cursor.
- Theorem `ByteScan.traced_scanTokens`: a scan is made from single actions.
- Theorem `ByteScan.Trace.sound`: all that a scan does is sound.
- Theorem `ByteScan.run_traced`: the notes of a scan are what it has done.
-/

namespace LoxScan
namespace ByteScan

/-! ## What actions do -/

/-- The numbers of bytes and characters of a source, and whether a scan of it fails when the
line number overflows. -/
structure Extent where
  size : Nat
  limit : Nat
  checked : Bool

/-- What is known of a setting without a look at the bytes. -/
def Setting.extent (env : Setting) : Extent :=
  ⟨env.bytes.size, env.limit, env.checked⟩

/-- What an action does from a state on, the latest deed first.  An action is given for all
settings at once: it may use what is known of the setting, and for the bytes it has to cut a
slice.  A deed is written as the note that should be taken of it, whatever notes are taken. -/
inductive Trace (env : Setting) :
    {α : Type} → (Setting → Action α) → State → List Note → Prop
  | pure {α : Type} (a : α) (s : State) : Trace env (fun _ => Pure.pure a) s []
  | throw {α : Type} (e : Failure) (s : State) :
      Trace env (fun _ => (MonadExcept.throw e : Action α)) s []
  | here (s : State) : Trace env (fun _ => here) s []
  | place (k : Cursor) (s : State) : Trace env (fun _ => place k) s [.cursor k]
  | slice (i j : Nat) (s : State) : Trace env (fun env => slice env i j) s [.slice i j]
  | overflow (s : State) : Trace env (fun _ => note .overflow) s [.overflow]
  | round (i j : Nat) (s : State) : Trace env (fun _ => note (.round i j)) s [.round i j]
  | token (t : Token) (s : State) :
      Trace env (fun _ => modify fun s => { s with tokens := s.tokens.push t }) s []
  | error (e : LexicalError) (s : State) :
      Trace env (fun _ => modify fun s => { s with errors := s.errors.push e }) s []
  /-- The sizes and the check of the setting are at hand. -/
  | known {α : Type} {f : Extent → Setting → Action α} {s : State} {deeds : List Note}
      (h : Trace env (f env.extent) s deeds) : Trace env (fun env => f env.extent env) s deeds
  /-- The second action goes on from the state and with the result of the first. -/
  | bind {α β : Type} {m : Setting → Action α} {k : α → Setting → Action β} {s s' : State} {a : α}
      {deeds deeds' : List Note} (hm : Trace env m s deeds) (hexec : exec (m env) s = (.ok a, s'))
      (hk : Trace env (k a) s' deeds') :
      Trace env (fun env => m env >>= (k · env)) s (deeds' ++ deeds)
  /-- There is no second action after a failure. -/
  | fail {α β : Type} {m : Setting → Action α} {k : α → Setting → Action β} {s s' : State}
      {e : Failure} {deeds : List Note} (hm : Trace env m s deeds)
      (hexec : exec (m env) s = (.error e, s')) : Trace env (fun env => m env >>= (k · env)) s deeds

/-! ## Deeds and notes -/

/-- The cursor that a note is about. -/
def Note.cursor? : Note → Option Cursor
  | cursor k => some k
  | _ => none

/-- A slice is noted, and leaves the rest of the state as it was. -/
theorem exec_slice (env : Setting) (i j : Nat) (s : State) :
    (exec (slice env i j) s).2 = { s with notes := .slice i j :: s.notes } := by
  unfold slice note
  rw [exec_bind, exec_modify]
  dsimp only
  split
  · rfl
  · rfl

section
variable {env : Setting} {α β : Type} {m : Setting → Action α} {s : State} {deeds : List Note}

namespace Trace

/-- An action takes note of what it does, and of nothing else. -/
theorem notes_eq (h : Trace env m s deeds) : (exec (m env) s).2.notes = deeds ++ s.notes := by
  induction h with
  | slice i j s =>
    rw [exec_slice]
    rfl
  | known _ ih => exact ih
  | bind _ hexec _ ihm ihk =>
    rw [hexec] at ihm
    rw [exec_bind, hexec, ihk, ihm, List.append_assoc]
  | fail _ hexec ihm =>
    rw [hexec] at ihm
    rw [exec_bind, hexec, ihm]
  | _ => rfl

/-- The cursor is where it was placed last, if it was placed, and otherwise where it was. -/
theorem cursor_eq (h : Trace env m s deeds) :
    (exec (m env) s).2.cursor = (deeds.findSome? Note.cursor?).getD s.cursor := by
  induction h with
  | slice i j s =>
    rw [exec_slice]
    rfl
  | known _ ih => exact ih
  | bind _ hexec _ ihm ihk =>
    rw [hexec] at ihm
    rw [exec_bind, hexec, ihk, ihm, List.findSome?_append, Option.getD_or]
  | fail _ hexec ihm =>
    rw [hexec] at ihm
    rw [exec_bind, hexec, ihm]
  | _ => rfl

end Trace

/-! ## Actions made from single ones -/

/-- Whether all that an action does is told, in every setting and from every state on. -/
def Traced (m : Setting → Action α) : Prop :=
  ∀ env s, ∃ deeds, Trace env m s deeds

namespace Traced

theorem pure (a : α) : Traced fun _ => Pure.pure a :=
  fun _ s => ⟨_, .pure a s⟩

theorem throw (e : Failure) : Traced fun _ => (MonadExcept.throw e : Action α) :=
  fun _ s => ⟨_, .throw e s⟩

theorem here : Traced fun _ => here :=
  fun _ s => ⟨_, .here s⟩

theorem place (k : Cursor) : Traced fun _ => place k :=
  fun _ s => ⟨_, .place k s⟩

theorem slice (i j : Nat) : Traced fun env => slice env i j :=
  fun _ s => ⟨_, .slice i j s⟩

theorem overflow : Traced fun _ => note .overflow :=
  fun _ s => ⟨_, .overflow s⟩

theorem round (i j : Nat) : Traced fun _ => note (.round i j) :=
  fun _ s => ⟨_, .round i j s⟩

theorem token (t : Token) :
    Traced fun _ => modify fun s => { s with tokens := s.tokens.push t } :=
  fun _ s => ⟨_, .token t s⟩

theorem error (e : LexicalError) :
    Traced fun _ => modify fun s => { s with errors := s.errors.push e } :=
  fun _ s => ⟨_, .error e s⟩

/-- What is known of the setting may be used. -/
theorem known {f : Extent → Setting → Action α} (hf : ∀ x, Traced (f x)) :
    Traced fun env => f env.extent env := by
  intro env s
  rcases hf env.extent env s with ⟨deeds, htrace⟩
  exact ⟨deeds, .known htrace⟩

/-- Two actions in a row. -/
theorem bind {k : α → Setting → Action β} (hm : Traced m) (hk : ∀ a, Traced (k a)) :
    Traced fun env => m env >>= (k · env) := by
  intro env s
  rcases hm env s with ⟨deeds, htrace⟩
  rcases hexec : exec (m env) s with ⟨e | a, s'⟩
  · exact ⟨deeds, .fail htrace hexec⟩
  · rcases hk a env s' with ⟨deeds', htrace'⟩
    exact ⟨deeds' ++ deeds, .bind htrace hexec htrace'⟩

/-- A choice by what is known already. -/
theorem ite {c : Prop} [Decidable c] {m' : Setting → Action α} (hm : Traced m)
    (hm' : Traced m') : Traced fun env => if c then m env else m' env := by
  by_cases h : c
  · simpa only [if_pos h] using hm
  · simpa only [if_neg h] using hm'

/-- A loop. -/
theorem loop {next : Setting → Action (Option β)} {body : β → Setting → Action Unit}
    (hnext : Traced next) (hbody : ∀ b, Traced (body b)) (n : Nat) :
    Traced fun env => ByteScan.loop (next env) (body · env) n := by
  induction n with
  | zero =>
    refine .bind hnext fun b? => ?_
    cases b? with
    | some b => exact .throw _
    | none => exact .pure ()
  | succ n ih =>
    refine .bind hnext fun b? => ?_
    cases b? with
    | some b => exact .bind (hbody b) fun _ => ih
    | none => exact .pure ()

/-- A loop that may run once for every character. -/
theorem loop_limit {next : Setting → Action (Option β)} {body : β → Setting → Action Unit}
    (hnext : Traced next) (hbody : ∀ b, Traced (body b)) :
    Traced fun env => ByteScan.loop (next env) (body · env) env.limit :=
  .known (f := fun x env => ByteScan.loop (next env) (body · env) x.limit) fun x =>
    .loop hnext hbody x.limit

/-- A slice up to the end of the source. -/
theorem slice_rest (i : Nat) : Traced fun env => ByteScan.slice env i env.bytes.size :=
  .known (f := fun x env => ByteScan.slice env i x.size) fun x => .slice i x.size

end Traced

end

/-! ## Scans -/

/-- The next character is looked at in a slice. -/
theorem traced_peek : Traced peek :=
  .bind .here fun k => .bind (.slice_rest k.current) fun cs => .pure cs.head?

/-- The character after the next one is looked at in a slice. -/
theorem traced_peekNext : Traced peekNext :=
  .bind .here fun k => .bind (.slice_rest k.current) fun cs => .pure cs[1]?

/-- The end is known without a look at the bytes. -/
theorem traced_atEnd : Traced atEnd :=
  .known (f := fun x _ => here >>= fun k => pure (decide (x.size ≤ k.current))) fun x =>
    .bind .here fun k => .pure (decide (x.size ≤ k.current))

theorem traced_pass (c : Char) : Traced fun _ => pass c :=
  .bind .here fun k => .place { k with current := k.current + c.utf8Size }

theorem traced_advance : Traced advance := by
  refine .bind traced_peek fun c? => ?_
  cases c? with
  | some c => exact .bind (traced_pass c) fun _ => .pure (some c)
  | none => exact .pure none

theorem traced_accept (expected : Char) : Traced (accept · expected) :=
  .bind traced_peek fun _ => .ite (.bind (traced_pass expected) fun _ => .pure true)
    (.pure false)

/-- Whether the scan fails at an overflow is known without a look at the bytes. -/
theorem traced_newline : Traced newline := by
  refine .bind .here fun k => ?_
  have hplace : Traced fun _ => place { k with line := k.line + 1 } := .place _
  refine .ite (.bind .overflow fun _ => ?_) hplace
  refine .known (f := fun x _ => if x.checked then
    throw .lineOverflow >>= fun _ => place { k with line := k.line + 1 }
    else place { k with line := k.line + 1 }) fun x => ?_
  exact .ite (.bind (.throw _) fun _ => hplace) hplace

theorem traced_skipWhile (p : Char → Bool) : Traced (skipWhile · p) :=
  .loop_limit (.bind traced_peek fun c? => .pure (c?.filter p)) fun _ =>
    .bind traced_advance fun _ => .pure ()

theorem traced_lexeme : Traced lexeme :=
  .bind .here fun k => .bind (.slice k.start k.current) fun cs => .pure (String.ofList cs)

theorem traced_push (kind : Kind) (literal : Option Literal) :
    Traced (push · kind literal) :=
  .bind .here fun k => .bind traced_lexeme fun text => .token ⟨kind, text, literal, k.startLine⟩

theorem traced_passQuoted (c : Char) : Traced (passQuoted · c) :=
  .ite (.bind traced_newline fun _ => .bind traced_advance fun _ => .pure ())
    (.bind traced_advance fun _ => .pure ())

theorem traced_string : Traced string := by
  refine .bind (.loop_limit (.bind traced_peek fun c? => .pure _) traced_passQuoted) fun _ => ?_
  refine .bind traced_atEnd fun _ => .ite ?_ ?_
  · exact .bind .here fun k => .pure _
  · refine .bind traced_advance fun _ => .bind .here fun k => ?_
    exact .bind (.slice _ _) fun value => .bind (traced_push _ _) fun _ => .pure none

theorem traced_skipFraction : Traced skipFraction := by
  refine .bind traced_peek fun _ => .ite ?_ (.pure ())
  refine .bind traced_peekNext fun _ => .ite ?_ (.pure ())
  exact .bind traced_advance fun _ => traced_skipWhile Char.isDigit

theorem traced_number : Traced number := by
  refine .bind (traced_skipWhile Char.isDigit) fun _ => .bind traced_skipFraction fun _ => ?_
  refine .bind traced_lexeme fun text => ?_
  cases Numeral.read? text.toList with
  | some value => exact .bind (traced_push _ _) fun _ => .pure none
  | none => exact .bind .here fun k => .pure _

theorem traced_scanAfter (c : Char) : Traced (scanAfter · c) := by
  unfold scanAfter
  rcases Symbol.single? c with _ | s
  · rcases Symbol.equalPair? c with _ | ⟨alone, withEqual⟩
    · refine .ite ?_ (.ite (.pure none) (.ite ?_ (.ite traced_string (.ite traced_number ?_))))
      · refine .bind (traced_accept '/') fun _ => .ite ?_ ?_
        · exact .bind (traced_skipWhile _) fun _ => .pure none
        · exact .bind (traced_push _ _) fun _ => .pure none
      · exact .bind traced_newline fun _ => .pure none
      · exact .bind .here fun k => .pure _
    · exact .bind (traced_accept '=') fun _ => .bind (traced_push _ _) fun _ => .pure none
  · exact .bind (traced_push _ _) fun _ => .pure none

theorem traced_scanToken : Traced scanToken := by
  refine .bind traced_advance fun c? => ?_
  cases c? with
  | some c => exact traced_scanAfter c
  | none => exact .pure none

theorem traced_report (e? : Option LexicalError) : Traced fun _ => report e? := by
  cases e? with
  | some e => exact .error e
  | none => exact .pure ()

theorem traced_round : Traced round := by
  refine .bind .here fun k => .bind ?_ fun _ => .bind traced_scanToken fun e? => ?_
  · exact .bind .here fun k => .place { k with start := k.current, startLine := k.line }
  · refine .bind (traced_report e?) fun _ => .bind .here fun k' => ?_
    exact .round k.current k'.current

/-- A scan of the whole source is made from single actions. -/
theorem traced_scanTokens : Traced scanTokens := by
  refine .bind (.loop_limit (.bind traced_atEnd fun _ => .pure _) fun _ => traced_round) ?_
  exact fun _ => .bind .here fun k => .token (Token.eof k.line)

/-- All that a scan does is sound: every cursor that it places, every slice that it cuts, and
every round that it goes. -/
theorem Trace.sound {env : Setting} {deeds : List Note} (h : Trace env scanTokens .initial deeds) :
    ∀ n ∈ deeds, n.Sound env := by
  have hnotes := h.notes_eq
  rcases takes_scanTokens env with ⟨v, -, -, htakes⟩
  have hrun := htakes .initial (shows_initial env)
  have hsound : ∀ n ∈ (exec (scanTokens env) .initial).2.notes, n.Sound env := by
    rcases hexec : exec (scanTokens env) .initial with ⟨e | u, s⟩ <;> rw [hexec] at hrun
    · exact hrun.2.2.2.2
    · exact hrun.2.sound
  intro n hn
  apply hsound
  rw [hnotes]
  exact List.mem_append_left _ hn

/-- The notes of a scan are what it has done, after the note of the cursor that it began with.
So no cursor is missing, and no slice; and the cursor is the one that was noted last. -/
theorem run_traced (env : Setting) :
    ∃ deeds, Trace env scanTokens .initial deeds ∧
      (run env).2.notes = deeds ++ [.cursor .initial] ∧
      (run env).2.notes.findSome? Note.cursor? = some (run env).2.cursor := by
  rcases traced_scanTokens env .initial with ⟨deeds, htrace⟩
  have hnotes : (run env).2.notes = deeds ++ [.cursor .initial] := htrace.notes_eq
  have hcursor : (run env).2.cursor = (deeds.findSome? Note.cursor?).getD .initial :=
    htrace.cursor_eq
  refine ⟨deeds, htrace, hnotes, ?_⟩
  rw [hnotes, hcursor, List.findSome?_append]
  cases deeds.findSome? Note.cursor? <;> rfl

end ByteScan
end LoxScan
