import Mathlib.Tactic.Common
import LoxScan.Proofs.ByteScan
import LoxScan.Text.Line

/-!
# LoxScan - Rules for a scan by byte offsets

What a scan by byte offsets does is said in characters: what was passed before the current
piece, what was taken of it, and what is left.  There is a rule for each action, which says
to what view it brings a scan from which other one.  A rule also says that all notes are
sound, and it holds for a failure too, of which there is one kind only.

Main definitions:

- `ByteScan.Note.Sound`, what a note should say;
- `ByteScan.View`, the state of a scan in characters, and `ByteScan.Shows`, when a state
  is as a view says;
- `ByteScan.Takes`, for an action that brings a scan from a view to another one.

Main results:

- Theorem `ByteScan.extract_utf8Encode`: a slice between the ends of two texts.
- Theorem `ByteScan.View.Fits.sound_cursor`: the cursor of a view of the source is sound.
- Theorem `ByteScan.takes_slice`: a slice between characters does not fail.
- Theorem `ByteScan.takes_newline`: the line number overflows only if there are too many
  newlines.
- Theorem `ByteScan.takes_loop_peek`: a loop that passes characters ends in time.
-/

namespace LoxScan
namespace ByteScan

/-! ## Encoded texts -/

/-- The bytes of two texts in a row. -/
theorem size_utf8Encode_append (xs ys : List Char) :
    (xs ++ ys).utf8Encode.size = xs.utf8Encode.size + ys.utf8Encode.size := by
  rw [List.utf8Encode_append, ByteArray.size_append]

/-- The bytes of a character. -/
theorem size_utf8Encode_singleton (c : Char) : [c].utf8Encode.size = c.utf8Size := by
  rw [List.utf8Encode_singleton, List.size_toByteArray, String.length_utf8EncodeChar]

/-- A text has bytes if it has characters. -/
theorem size_utf8Encode_cons_pos (c : Char) (cs : List Char) : 0 < (c :: cs).utf8Encode.size := by
  have hpos := c.utf8Size_pos
  rw [← List.singleton_append, size_utf8Encode_append, size_utf8Encode_singleton]
  omega

/-- Bytes stand for the characters that they encode. -/
theorem characters_utf8Encode (cs : List Char) : characters cs.utf8Encode = cs := by
  simp [characters, List.utf8Decode?_utf8Encode]

/-- There is a boundary where one of two texts in a row ends. -/
theorem isBoundary_size_utf8Encode (xs ys : List Char) :
    IsBoundary (xs ++ ys).utf8Encode xs.utf8Encode.size := by
  cases ys with
  | nil => exact .inl (by rw [List.append_nil])
  | cons c ys =>
    right
    have hsize : xs.utf8Encode.size < (xs ++ c :: ys).utf8Encode.size := by
      have hpos := size_utf8Encode_cons_pos c ys
      rw [size_utf8Encode_append]
      omega
    refine ⟨hsize, ?_⟩
    have hbytes : (xs ++ c :: ys).utf8Encode =
        xs.utf8Encode ++ ((String.utf8EncodeChar c).toByteArray ++ ys.utf8Encode) := by
      rw [List.utf8Encode_append, List.utf8Encode_cons, List.utf8Encode_singleton]
    simp only [hbytes, ByteArray.getElem_append_right (Nat.le_refl _), Nat.sub_self]
    exact ByteArray.isUTF8FirstByte_getElem_zero_utf8EncodeChar_append

/-- The second of three texts in a row is the slice between the ends of the first and of
itself. -/
theorem extract_utf8Encode (xs ys zs : List Char) :
    (xs ++ ys ++ zs).utf8Encode.extract xs.utf8Encode.size (xs ++ ys).utf8Encode.size =
      ys.utf8Encode := by
  rw [List.append_assoc, List.utf8Encode_append, List.utf8Encode_append, size_utf8Encode_append]
  have hskip := @ByteArray.extract_append_size_add xs.utf8Encode (ys.utf8Encode ++ zs.utf8Encode)
    0 ys.utf8Encode.size
  rw [Nat.add_zero] at hskip
  rw [hskip, ByteArray.extract_append_eq_left rfl]

/-! ## Running actions -/

section Exec
variable {α β : Type} (s : State)

/-- Two actions in a row. -/
theorem exec_bind (m : Action α) (k : α → Action β) :
    exec (m >>= k) s = match exec m s with
      | (.ok a, s') => exec (k a) s'
      | (.error e, s') => (.error e, s') := by
  simp only [exec, ExceptT.run_bind, StateT.run_bind]
  rcases m.run.run s with ⟨_ | _, _⟩ <;> rfl

/-- A change of the state. -/
theorem exec_modify (f : State → State) : exec (modify f) s = (.ok (), f s) :=
  rfl

/-- A failure leaves the state as it was. -/
theorem exec_throw (e : Failure) : exec (throw e : Action α) s = (.error e, s) :=
  rfl

end Exec

/-! ## Sound notes -/

/-- The number of newlines in the source. -/
def Setting.newlines (env : Setting) : Nat :=
  env.source.toList.count '\n'

/-- What a note of a scan should say.  A cursor lies within the source and between
characters, and its lines are in order, if they can be counted or the scan fails where
they cannot; a slice is in order, within the source and between characters; a line number
overflows only if the source has too many newlines; and a round passes at least one whole
character. -/
def Note.Sound (env : Setting) : Note → Prop
  | cursor k =>
    k.start ≤ k.current ∧ k.current ≤ env.bytes.size ∧
      IsBoundary env.bytes k.start ∧ IsBoundary env.bytes k.current ∧
      (env.checked ∨ env.newlines < UInt32.size - 1 →
        1 ≤ k.startLine.toNat ∧ k.startLine.toNat ≤ k.line.toNat)
  | slice i j =>
    i ≤ j ∧ j ≤ env.bytes.size ∧ IsBoundary env.bytes i ∧ IsBoundary env.bytes j
  | overflow => UInt32.size - 1 ≤ env.newlines
  | round i j => ∃ c cs, env.bytes.extract i j = (c :: cs).utf8Encode

/-- Whether a note is about a round. -/
def Note.isRound : Note → Bool
  | round _ _ => true
  | _ => false

/-- The number of rounds that were gone. -/
def State.rounds (s : State) : Nat :=
  s.notes.countP Note.isRound

/-! ## Views of a scan -/

/-- What a scan has come to, in characters: the text before the start, the text from there
to the cursor, and the text after it; the newlines that were counted; what was handed on;
and the rounds that were gone. -/
structure View where
  done : List Char
  taken : List Char
  rest : List Char
  counted : Nat
  tokens : List Token
  errors : List LexicalError
  rounds : Nat

namespace View

/-- The cursor that a view is about. -/
noncomputable def cursor (v : View) : Cursor where
  start := v.done.utf8Encode.size
  current := (v.done ++ v.taken).utf8Encode.size
  line := 1 + UInt32.ofNat v.counted
  startLine := Line.advance 1 v.done

/-- Whether a view is one of the source, with no more newlines counted than there are and
than can be counted, and no more rounds gone than characters passed. -/
structure Fits (env : Setting) (v : View) : Prop where
  text_eq : v.done ++ v.taken ++ v.rest = env.source.toList
  count_le : v.done.count '\n' ≤ v.counted
  counted_le : v.counted ≤ env.newlines
  counted_lt : env.checked → 1 + v.counted < UInt32.size
  rounds_le : v.rounds ≤ (v.done ++ v.taken).length

end View

/-- Whether a state is as a view says, and all notes so far are sound. -/
structure Shows (env : Setting) (v : View) (s : State) : Prop where
  fits : v.Fits env
  cursor_eq : s.cursor = v.cursor
  tokens_eq : s.tokens.toList = v.tokens
  errors_eq : s.errors.toList = v.errors
  rounds_eq : s.rounds = v.rounds
  sound : ∀ n ∈ s.notes, n.Sound env

section
variable {env : Setting} {α β : Type}

/-- The bytes of the source are those of its characters. -/
theorem Setting.bytes_eq (env : Setting) : env.bytes = env.source.toList.utf8Encode := by
  rw [bytes, String.toUTF8_eq_toByteArray, String.utf8Encode_toList]

/-- The newlines of the source, by the parts of a view. -/
theorem View.Fits.newlines_eq {v : View} (h : v.Fits env) :
    env.newlines = v.done.count '\n' + v.taken.count '\n' + v.rest.count '\n' := by
  rw [Setting.newlines, ← h.text_eq, List.count_append, List.count_append]

/-- A source has at least as many characters as a part of it. -/
theorem View.Fits.length_rest_le {v : View} (h : v.Fits env) : v.rest.length ≤ env.limit := by
  rw [Setting.limit, ← h.text_eq, List.length_append]
  exact Nat.le_add_left _ _

/-- No more rounds are gone than the source has characters. -/
theorem View.Fits.rounds_le_limit {v : View} (h : v.Fits env) : v.rounds ≤ env.limit := by
  have hle := h.rounds_le
  rw [Setting.limit, ← h.text_eq, List.length_append]
  exact Nat.le_add_right_of_le hle

/-- The cursor of a view is sound. -/
theorem View.Fits.sound_cursor {v : View} (h : v.Fits env) : (Note.cursor v.cursor).Sound env := by
  have hbytes : env.bytes = (v.done ++ (v.taken ++ v.rest)).utf8Encode := by
    rw [env.bytes_eq, ← h.text_eq, List.append_assoc]
  have hbytes' : env.bytes = ((v.done ++ v.taken) ++ v.rest).utf8Encode := by
    rw [hbytes, List.append_assoc]
  refine ⟨?_, ?_, ?_, ?_, ?_⟩
  · simp only [View.cursor, size_utf8Encode_append]
    omega
  · rw [hbytes', size_utf8Encode_append]
    exact Nat.le_add_right _ _
  · rw [hbytes]
    exact isBoundary_size_utf8Encode _ _
  · rw [hbytes']
    exact isBoundary_size_utf8Encode _ _
  · intro hlines
    have hle := h.count_le
    have hlt : 1 + v.counted < UInt32.size := by
      rcases hlines with hchecked | hfew
      · exact h.counted_lt hchecked
      · have hcounted := h.counted_le
        omega
    have hstart : (Line.advance 1 v.done).toNat = 1 + v.done.count '\n' :=
      Line.toNat_advance_one (by omega)
    have hline : (1 + UInt32.ofNat v.counted).toNat = 1 + v.counted := by
      rw [UInt32.toNat_add, UInt32.toNat_one, UInt32.toNat_ofNat_of_lt' (by omega)]
      exact Nat.mod_eq_of_lt hlt
    simp only [View.cursor, hstart, hline]
    omega

/-! ## Actions on views -/

/-- Whether an action, in every state that shows a view, comes to a result and to a state
that shows another view.  It may also fail with an overflow of the line number, if the scan
is to do so and there are too many newlines; the notes are sound then as well. -/
def Takes (env : Setting) (m : Action α) (v : View) (a : α) (v' : View) : Prop :=
  ∀ s, Shows env v s →
    match exec m s with
    | (.ok b, s') => b = a ∧ Shows env v' s'
    | (.error e, s') =>
      e = .lineOverflow ∧ env.checked ∧ UInt32.size - 1 ≤ env.newlines ∧
        s'.rounds ≤ env.limit ∧ ∀ n ∈ s'.notes, n.Sound env

namespace Takes

variable {v v' v'' : View} {a : α} {b : β}

/-- Facts on the view may be used. -/
theorem of_fits {m : Action α} (h : v.Fits env → Takes env m v a v') : Takes env m v a v' :=
  fun s hs => h hs.fits s hs

/-- An action that only comes to a result. -/
theorem pure (a : α) : Takes env (Pure.pure a) v a v := by
  intro s hs
  exact ⟨rfl, hs⟩

/-- Two actions in a row. -/
theorem bind {m : Action α} {k : α → Action β} (hm : Takes env m v a v')
    (hk : Takes env (k a) v' b v'') : Takes env (m >>= k) v b v'' := by
  intro s hs
  have hfirst := hm s hs
  rw [exec_bind]
  rcases hexec : exec m s with ⟨_ | c, s'⟩ <;> rw [hexec] at hfirst
  · exact hfirst
  · obtain ⟨rfl, hs'⟩ := hfirst
    exact hk s' hs'

end Takes

/-! ## The single actions -/

variable {done taken rest : List Char} {n : Nat} {ts : List Token} {es : List LexicalError}
  {r : Nat} {v : View}

/-- A sound note changes nothing, if it is not about a round. -/
theorem takes_note {x : Note} (hsound : x.Sound env) (hround : ¬ x.isRound) :
    Takes env (note x) v () v := by
  intro s hs
  have hrounds : ({ s with notes := x :: s.notes } : State).rounds = s.rounds :=
    List.countP_cons_of_neg hround
  refine ⟨rfl, { hs with rounds_eq := ?_, sound := ?_ }⟩
  · exact hrounds.trans hs.rounds_eq
  · exact List.forall_mem_cons.mpr ⟨hsound, hs.sound⟩

/-- A sound note about a round adds to the rounds. -/
theorem takes_note_round {i j : Nat} (hsound : (Note.round i j).Sound env)
    (hle : v.rounds + 1 ≤ (v.done ++ v.taken).length) :
    Takes env (note (.round i j)) v () { v with rounds := v.rounds + 1 } := by
  intro s hs
  have hrounds : ({ s with notes := .round i j :: s.notes } : State).rounds = s.rounds + 1 :=
    List.countP_cons_of_pos rfl
  have hfits := hs.fits
  refine ⟨rfl, { hs with fits := { hfits with rounds_le := hle }, rounds_eq := ?_, sound := ?_ }⟩
  · rw [hrounds, hs.rounds_eq]
  · exact List.forall_mem_cons.mpr ⟨hsound, hs.sound⟩

/-- The cursor is the one of the view. -/
theorem takes_here : Takes env here v v.cursor v := by
  intro s hs
  exact ⟨hs.cursor_eq, hs⟩

/-- Placing the cursor changes the view to one with this cursor. -/
theorem takes_place {k : Cursor}
    (hk : k = View.cursor ⟨done, taken, rest, n, v.tokens, v.errors, v.rounds⟩)
    (hfits : v.Fits env → View.Fits env ⟨done, taken, rest, n, v.tokens, v.errors, v.rounds⟩) :
    Takes env (place k) v () ⟨done, taken, rest, n, v.tokens, v.errors, v.rounds⟩ := by
  subst hk
  intro s hs
  have hfits' := hfits hs.fits
  refine ⟨rfl, hfits', rfl, hs.tokens_eq, hs.errors_eq, ?_, ?_⟩
  · exact (List.countP_cons_of_neg (by simp [Note.isRound])).trans hs.rounds_eq
  · exact List.forall_mem_cons.mpr ⟨hfits'.sound_cursor, hs.sound⟩

/-- The slice between the ends of two texts in a row is the second of them. -/
theorem takes_slice (xs ys zs : List Char) {i j : Nat}
    (htext : v.Fits env → xs ++ ys ++ zs = env.source.toList) (hi : i = xs.utf8Encode.size)
    (hj : j = (xs ++ ys).utf8Encode.size) : Takes env (slice env i j) v ys v := by
  apply Takes.of_fits
  intro hfits
  have hbytes : env.bytes = (xs ++ ys ++ zs).utf8Encode := by rw [env.bytes_eq, htext hfits]
  have hle : i ≤ j := by
    rw [hi, hj, size_utf8Encode_append]
    exact Nat.le_add_right _ _
  have hsize : j ≤ env.bytes.size := by
    rw [hj, hbytes, size_utf8Encode_append (xs ++ ys)]
    exact Nat.le_add_right _ _
  have hfirst : IsBoundary env.bytes i := by
    rw [hi, hbytes, List.append_assoc]
    exact isBoundary_size_utf8Encode _ _
  have hlast : IsBoundary env.bytes j := by
    rw [hj, hbytes]
    exact isBoundary_size_utf8Encode _ _
  have hchars : characters (env.bytes.extract i j) = ys := by
    rw [hbytes, hi, hj, extract_utf8Encode, characters_utf8Encode]
  have hsound : (Note.slice i j).Sound env := ⟨hle, hsize, hfirst, hlast⟩
  refine (takes_note hsound (by simp [Note.isRound])).bind ?_
  rw [if_pos ⟨hle, hfirst, hlast⟩, hchars]
  exact .pure ys

/-- The rest of the source is the slice from the cursor to its end. -/
theorem takes_slice_rest :
    Takes env (slice env (View.cursor v).current env.bytes.size) v v.rest v := by
  apply Takes.of_fits
  intro hfits
  have htext : v.done ++ v.taken ++ v.rest ++ [] = env.source.toList := by
    rw [List.append_nil, hfits.text_eq]
  refine takes_slice _ _ [] (fun _ => htext) rfl ?_
  rw [hfits.text_eq, env.bytes_eq]

/-- The next character is the first one of the rest. -/
theorem takes_peek : Takes env (peek env) v v.rest.head? v := by
  unfold peek
  apply takes_here.bind
  apply takes_slice_rest.bind
  exact .pure _

/-- The character after the next one is the second one of the rest. -/
theorem takes_peekNext : Takes env (peekNext env) v v.rest[1]? v := by
  unfold peekNext
  apply takes_here.bind
  apply takes_slice_rest.bind
  exact .pure _

/-- The end has come if there is no rest. -/
theorem takes_atEnd : Takes env (atEnd env) v v.rest.isEmpty v := by
  apply Takes.of_fits
  intro hfits
  have hbytes : env.bytes = (v.done ++ v.taken ++ v.rest).utf8Encode := by
    rw [env.bytes_eq, hfits.text_eq]
  have hend : decide (env.bytes.size ≤ v.cursor.current) = v.rest.isEmpty := by
    rw [hbytes, size_utf8Encode_append, View.cursor]
    cases hrest : v.rest with
    | nil => simp
    | cons c cs =>
      have hpos := size_utf8Encode_cons_pos c cs
      simp only [List.isEmpty_cons, decide_eq_false_iff_not]
      omega
  unfold atEnd
  apply takes_here.bind
  rw [hend]
  exact .pure _

/-- A character is passed by its bytes. -/
theorem takes_pass (c : Char) :
    Takes env (pass c) ⟨done, taken, c :: rest, n, ts, es, r⟩ ()
      ⟨done, taken ++ [c], rest, n, ts, es, r⟩ := by
  unfold pass
  apply takes_here.bind
  apply takes_place
  · simp only [View.cursor, ← List.append_assoc, size_utf8Encode_append,
      size_utf8Encode_singleton]
  · intro hfits
    have hrounds : r ≤ (done ++ taken).length := hfits.rounds_le
    refine { hfits with text_eq := ?_, rounds_le := ?_ }
    · rw [← hfits.text_eq]
      simp
    · rw [← List.append_assoc, List.length_append]
      exact Nat.le_add_right_of_le hrounds

/-- The next character is taken. -/
theorem takes_advance (c : Char) :
    Takes env (advance env) ⟨done, taken, c :: rest, n, ts, es, r⟩ (some c)
      ⟨done, taken ++ [c], rest, n, ts, es, r⟩ := by
  unfold advance
  apply takes_peek.bind
  apply (takes_pass c).bind
  exact .pure _

/-- The expected character is taken. -/
theorem takes_accept_cons (c : Char) :
    Takes env (accept env c) ⟨done, taken, c :: rest, n, ts, es, r⟩ true
      ⟨done, taken ++ [c], rest, n, ts, es, r⟩ := by
  unfold accept
  apply takes_peek.bind
  rw [if_pos (by rfl)]
  apply (takes_pass c).bind
  exact .pure _

/-- No other character is taken. -/
theorem takes_accept_of_not_mem {c : Char} (h : c ∉ v.rest.head?) :
    Takes env (accept env c) v false v := by
  unfold accept
  apply takes_peek.bind
  have hne : v.rest.head? ≠ some c := h
  rw [if_neg hne]
  exact .pure _

/-- Where the line number overflows, the scan may fail. -/
theorem takes_throw_overflow_bind {v' : View} {k : α → Action β} {b : β}
    (hchecked : env.checked) (hmany : UInt32.size - 1 ≤ env.newlines) :
    Takes env (throw .lineOverflow >>= k) v b v' := by
  intro s hs
  have hrounds : s.rounds ≤ env.limit := by
    rw [hs.rounds_eq]
    exact hs.fits.rounds_le_limit
  rw [exec_bind, exec_throw]
  exact ⟨rfl, hchecked, hmany, hrounds, hs.sound⟩

/-- The next line is the one with one more newline, if there is one that was not counted. -/
theorem takes_newline (h : n + 1 ≤ env.newlines) :
    Takes env (newline env) ⟨done, taken, rest, n, ts, es, r⟩ ()
      ⟨done, taken, rest, n + 1, ts, es, r⟩ := by
  -- The cursor is placed after an overflow too, unless the scan fails with it.
  have hplace : (env.checked → 1 + (n + 1) < UInt32.size) →
      Takes env (place { View.cursor ⟨done, taken, rest, n, ts, es, r⟩ with
        line := (View.cursor ⟨done, taken, rest, n, ts, es, r⟩).line + 1 })
        ⟨done, taken, rest, n, ts, es, r⟩ () ⟨done, taken, rest, n + 1, ts, es, r⟩ := by
    intro hlt
    apply takes_place
    · simp [View.cursor, UInt32.add_assoc]
    · intro hfits
      have hle := hfits.count_le
      exact { hfits with count_le := Nat.le_succ_of_le hle, counted_le := h, counted_lt := hlt }
  apply Takes.of_fits
  intro hfits
  have hline : (View.cursor ⟨done, taken, rest, n, ts, es, r⟩).line.toNat =
      (1 + n) % UInt32.size := by
    simp [View.cursor, UInt32.toNat_add, UInt32.size]
  unfold newline
  apply takes_here.bind
  by_cases hover : (View.cursor ⟨done, taken, rest, n, ts, es, r⟩).line.toNat + 1 = UInt32.size
  · have hmany : UInt32.size - 1 ≤ env.newlines := by
      have hmod := Nat.mod_le (1 + n) UInt32.size
      omega
    have hsound : Note.overflow.Sound env := hmany
    rw [if_pos hover]
    apply (takes_note hsound (by simp [Note.isRound])).bind
    cases hchecked : env.checked
    · exact hplace (by simp [hchecked])
    · exact takes_throw_overflow_bind hchecked hmany
  · rw [if_neg hover]
    apply hplace
    intro hchecked
    have hlt : 1 + n < UInt32.size := hfits.counted_lt hchecked
    rw [hline, Nat.mod_eq_of_lt hlt] at hover
    omega

/-! ## Loops -/

/-- A loop ends where nothing comes next. -/
theorem takes_loop_none {next : Action (Option β)} {body : β → Action Unit}
    (h : Takes env next v none v) (limit : Nat) : Takes env (loop next body limit) v () v := by
  cases limit with
  | zero | succ _ =>
    unfold loop
    apply h.bind
    exact .pure ()

/-- A loop goes on where something comes next, as often as it may. -/
theorem takes_loop_some {next : Action (Option β)} {body : β → Action Unit} {b : β}
    {v' v'' : View} {limit : Nat} (hnext : Takes env next v (some b) v)
    (hbody : Takes env (body b) v () v') (hloop : Takes env (loop next body limit) v' () v'') :
    Takes env (loop next body (limit + 1)) v () v'' := by
  unfold loop
  apply hnext.bind
  apply hbody.bind
  exact hloop

/-- The next character is looked at with a condition. -/
theorem takes_peek_filter {p : Char → Bool} {c? : Option Char} (h : v.rest.head?.filter p = c?) :
    Takes env (return (← peek env).filter p) v c? v := by
  apply takes_peek.bind
  rw [h]
  exact .pure _

/-- A loop passes the characters of a class, if its body passes each of them.  The newlines
that it has counted are a function of what it has passed. -/
theorem takes_loop_peek {p : Char → Bool} {body : Char → Action Unit} {w : List Char}
    (counted : List Char → Nat) (hw : ∀ c ∈ w, p c) (hstop : ∀ c ∈ rest.head?, ¬ p c)
    (hbody : ∀ xs c ys, w = xs ++ c :: ys →
      Takes env (body c) ⟨done, taken ++ xs, c :: (ys ++ rest), counted xs, ts, es, r⟩ ()
        ⟨done, taken ++ xs ++ [c], ys ++ rest, counted (xs ++ [c]), ts, es, r⟩) :
    Takes env (loop (return (← peek env).filter p) body env.limit)
      ⟨done, taken, w ++ rest, counted [], ts, es, r⟩ ()
      ⟨done, taken ++ w, rest, counted w, ts, es, r⟩ := by
  -- The loop is looked at after it has passed some characters and has the others to pass.
  have hloop : ∀ (ys xs : List Char) (limit : Nat), w = xs ++ ys → ys.length ≤ limit →
      Takes env (loop (return (← peek env).filter p) body limit)
        ⟨done, taken ++ xs, ys ++ rest, counted xs, ts, es, r⟩ ()
        ⟨done, taken ++ w, rest, counted w, ts, es, r⟩ := by
    intro ys
    induction ys with
    | nil =>
      intro xs limit hxs _
      rw [List.append_nil] at hxs
      subst hxs
      apply takes_loop_none
      apply takes_peek_filter
      simpa [Option.filter_eq_none_iff] using hstop
    | cons c ys ih =>
      intro xs limit hxs hlimit
      cases limit with
      | zero => exact absurd hlimit (Nat.not_succ_le_zero _)
      | succ limit =>
        have hc : p c := hw c (by simp [hxs])
        have hrest := ih (xs ++ [c]) limit (by simp [hxs]) (Nat.le_of_succ_le_succ hlimit)
        rw [← List.append_assoc] at hrest
        apply takes_loop_some _ (hbody xs c ys hxs) hrest
        apply takes_peek_filter
        simp [hc]
  apply Takes.of_fits
  intro hfits
  have hlimit : w.length ≤ env.limit := by
    have hle := hfits.length_rest_le
    rw [List.length_append] at hle
    omega
  have hall := hloop w [] env.limit (List.nil_append w).symm hlimit
  rwa [List.append_nil] at hall

/-- The characters of a class are skipped. -/
theorem takes_skipWhile {p : Char → Bool} {w : List Char} (hw : ∀ c ∈ w, p c)
    (hstop : ∀ c ∈ rest.head?, ¬ p c) :
    Takes env (skipWhile env p) ⟨done, taken, w ++ rest, n, ts, es, r⟩ ()
      ⟨done, taken ++ w, rest, n, ts, es, r⟩ := by
  unfold skipWhile
  apply takes_loop_peek (fun _ => n) hw hstop
  intro xs c ys _
  apply (takes_advance c).bind
  exact .pure ()

/-! ## Tokens -/

/-- The text between the start and the cursor is what was taken. -/
theorem takes_lexeme : Takes env (lexeme env) v (String.ofList v.taken) v := by
  unfold lexeme
  apply takes_here.bind
  apply (takes_slice _ _ _ (fun hfits => hfits.text_eq) _ _).bind
  · exact .pure _
  · rfl
  · rfl

/-- A change of the tokens and the errors changes nothing else. -/
theorem takes_modify {f : State → State} {ts' : List Token} {es' : List LexicalError}
    (hcursor : ∀ s, (f s).cursor = s.cursor) (hnotes : ∀ s, (f s).notes = s.notes)
    (htokens : ∀ s, s.tokens.toList = v.tokens → (f s).tokens.toList = ts')
    (herrors : ∀ s, s.errors.toList = v.errors → (f s).errors.toList = es') :
    Takes env (modify f) v () { v with tokens := ts', errors := es' } := by
  intro s hs
  rw [exec_modify]
  refine ⟨rfl, { hs.fits with }, ?_, ?_, ?_, ?_, ?_⟩
  · exact (hcursor s).trans hs.cursor_eq
  · exact htokens s hs.tokens_eq
  · exact herrors s hs.errors_eq
  · rw [State.rounds, hnotes]
    exact hs.rounds_eq
  · rw [hnotes]
    exact hs.sound

/-- A token is handed on with the text that was taken, and the line where that begins. -/
theorem takes_push (kind : Kind) (literal : Option Literal) :
    Takes env (push env kind literal) v ()
      { v with
        tokens := v.tokens ++
          [⟨kind, String.ofList v.taken, literal, Line.advance 1 v.done⟩] } := by
  unfold push
  apply takes_here.bind
  apply takes_lexeme.bind
  apply takes_modify
  · simp
  · simp
  · intro s hs
    simp [hs, View.cursor]
  · simp

end
end ByteScan
end LoxScan
