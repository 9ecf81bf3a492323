/-!
# LoxScan - Control sequences

A text may hold sequences of characters that steer a terminal instead of being
shown.  What goes to a stream that is no terminal is written without them, and
without control characters other than white space.

A sequence begins with the escape character.  White space inside of a sequence is
shown, and what follows it up to the next control character too; the sequence goes
on after that.

Main definitions:

- `ControlSequence.State`, the part of a sequence that a character stands in;
- `ControlSequence.removed`, the characters of a text that are shown;
- `ControlSequence.IsPlain`, for texts without control characters other than white space.

Main results:

- `ControlSequence.isPlain_removed`: what is left of a text is plain.
- `ControlSequence.removed_eq_self_iff`: plain texts, and no others, are left as they are.
-/

namespace LoxScan
namespace ControlSequence

/-! ## States -/

/-- The part of a control sequence that the next character belongs to. -/
inductive State
  /-- Outside of sequences. -/
  | ground
  /-- After the escape character. -/
  | escape
  /-- After an intermediate character of an escape sequence. -/
  | intermediate
  /-- In the parameters of a control sequence. -/
  | parameters
  /-- In an operating system command. -/
  | command
  /-- At the start of a device control string. -/
  | device
  | deviceParameters
  | deviceIntermediate
  /-- In a string that only a string terminator ends. -/
  | string
  deriving DecidableEq, Repr

/-- Whether a character lies between two code points, which belong to the range. -/
def between (low high : Nat) (c : Char) : Bool :=
  low ≤ c.toNat && c.toNat ≤ high

/-- Whether the bytes of a character after its first one hold the byte that ends
strings. -/
def holdsTerminator (c : Char) : Bool :=
  (String.singleton c).toUTF8.data.any (· = 0x9C)

/-- The state after a character.  Two characters cancel every sequence, and the
escape character begins a new one. -/
def State.next (s : State) (c : Char) : State :=
  if c = '\x18' ∨ c = '\x1A' then .ground
  else if c = '\x1B' then .escape
  else
    match s with
    | ground => ground
    | escape =>
      if between 0x20 0x2F c then intermediate
      else if c = '[' then parameters
      else if c = ']' then command
      else if c = 'P' then device
      else if c = 'X' ∨ c = '^' ∨ c = '_' then string
      else if between 0x30 0x7E c then ground
      else escape
    | intermediate => if between 0x30 0x7E c then ground else intermediate
    | parameters => if between 0x40 0x7E c then ground else parameters
    | command => if c = '\x07' then ground else command
    | device =>
      if between 0x20 0x2F c then deviceIntermediate
      else if between 0x30 0x3F c then deviceParameters
      else if between 0x40 0x7E c then string
      else device
    | deviceParameters =>
      if between 0x20 0x2F c then deviceIntermediate
      else if between 0x3C 0x7E c then string
      else deviceParameters
    | deviceIntermediate => if between 0x30 0x7E c then string else deviceIntermediate
    | string => if holdsTerminator c then ground else string

/-! ## What is shown -/

/-- Whether a character is a control character that is shown as white space. -/
def isBlankControl (c : Char) : Bool :=
  c = '\t' || c = '\n' || c = '\x0C' || c = '\r'

/-- Whether a character is shown in a state. -/
def State.shows (s : State) (c : Char) : Bool :=
  match s with
  | ground => isBlankControl c || (0x20 ≤ c.toNat && c ≠ '\x7F')
  | escape | intermediate | parameters => isBlankControl c
  | command | device | deviceParameters | deviceIntermediate | string => false

/-- A text that is being shown. -/
structure Screen where
  state : State := .ground
  /-- Whether the last character was shown.  The next one is then shown as if it
  stood outside of sequences. -/
  showing : Bool := false
  /-- The characters that are shown, backwards. -/
  shown : List Char := []

/-- Sends a character.  A character that is shown in a row of others leaves the
state as it is, unless it lies beyond ASCII. -/
def Screen.send (s : Screen) (c : Char) : Screen :=
  if s.showing ∧ State.ground.shows c then
    ⟨if c.toNat < 0x80 then s.state else .ground, true, c :: s.shown⟩
  else if s.state.shows c then
    ⟨s.state.next c, true, c :: s.shown⟩
  else
    ⟨s.state.next c, false, s.shown⟩

/-- Characters that are shown outside of sequences are all shown. -/
theorem shown_foldl_send {s : Screen} {cs : List Char} (hs : s.state = .ground)
    (h : ∀ c ∈ cs, State.ground.shows c) :
    (cs.foldl Screen.send s).shown = cs.reverse ++ s.shown := by
  induction cs generalizing s with
  | nil => simp
  | cons c cs ih =>
    have hc : State.ground.shows c = true := h c (by simp)
    have hcs : ∀ d ∈ cs, State.ground.shows d := fun d hd => h d (by simp [hd])
    have hnext : State.ground.next c = .ground := by
      have hplain : c ≠ '\x18' ∧ c ≠ '\x1A' ∧ c ≠ '\x1B' := by
        refine ⟨?_, ?_, ?_⟩ <;> rintro rfl <;> exact absurd hc (by decide)
      simp [State.next, hplain]
    have hsend : (s.send c).state = .ground ∧ (s.send c).shown = c :: s.shown := by
      rw [Screen.send]
      split
      · simp [hs]
      · simp [hs, hc, hnext]
    rw [List.foldl_cons, ih hsend.1 hcs, hsend.2]
    simp

/-- What is shown in the middle of a sequence is shown outside of sequences too. -/
theorem State.ground_shows_of_shows {s : State} {c : Char} (h : s.shows c) :
    ground.shows c := by
  cases s with
  | ground => exact h
  | escape | intermediate | parameters =>
    have hblank : isBlankControl c := h
    simp [shows, hblank]
  | command | device | deviceParameters | deviceIntermediate | string => cases h

/-- A character is put on a screen only if it is shown outside of sequences. -/
theorem ground_shows_of_mem_foldl_send {s : Screen} {cs : List Char} {c : Char}
    (hs : ∀ d ∈ s.shown, State.ground.shows d) (hc : c ∈ (cs.foldl Screen.send s).shown) :
    State.ground.shows c := by
  induction cs generalizing s with
  | nil => exact hs c hc
  | cons d cs ih =>
    refine ih (s := s.send d) ?_ hc
    rw [Screen.send]
    split
    · rename_i hshowing
      exact List.forall_mem_cons.mpr ⟨hshowing.2, hs⟩
    split
    · rename_i hshows
      exact List.forall_mem_cons.mpr ⟨State.ground_shows_of_shows hshows, hs⟩
    · exact hs

/-- The text that is left of a text when its control sequences are taken out. -/
def removed (text : String) : String :=
  String.ofList (text.toList.foldl Screen.send {}).shown.reverse

/-- Whether a text has no control characters other than white space. -/
def IsPlain (text : String) : Prop :=
  text.toList.all State.ground.shows

/-- The characters of a plain text are shown. -/
theorem isPlain_iff {text : String} : IsPlain text ↔ ∀ c ∈ text.toList, State.ground.shows c :=
  List.all_eq_true

/-- What is left of a text is plain. -/
theorem isPlain_removed (text : String) : IsPlain (removed text) := by
  rw [isPlain_iff]
  intro c hc
  rw [removed, String.toList_ofList, List.mem_reverse] at hc
  exact ground_shows_of_mem_foldl_send (by simp) hc

/-- Plain texts, and no others, are left as they are. -/
theorem removed_eq_self_iff {text : String} : removed text = text ↔ IsPlain text := by
  constructor
  · intro h
    rw [← h]
    exact isPlain_removed text
  · intro h
    rw [removed, shown_foldl_send rfl (isPlain_iff.mp h)]
    simp

/-- A text is plain if its characters are shown; a literal is given by its characters. -/
theorem isPlain_ofList {cs : List Char} (h : cs.all State.ground.shows) :
    IsPlain (String.ofList cs) := by
  rwa [IsPlain, String.toList_ofList]

/-- Two plain texts in a row are a plain text. -/
theorem IsPlain.append {a b : String} (ha : IsPlain a) (hb : IsPlain b) : IsPlain (a ++ b) := by
  rw [IsPlain, String.toList_append, List.all_append, ha, hb]
  rfl

/-- Plain texts with a plain one between each two of them are a plain text. -/
theorem IsPlain.intercalate {separator : String} {texts : List String} (hs : IsPlain separator)
    (h : ∀ text ∈ texts, IsPlain text) : IsPlain (separator.intercalate texts) := by
  induction texts with
  | nil => exact isPlain_ofList rfl
  | cons text rest ih =>
    have htext : IsPlain text := h text (by simp)
    cases rest with
    | nil => rwa [String.intercalate_singleton]
    | cons next rest =>
      rw [String.intercalate_cons_cons]
      exact (htext.append hs).append (ih fun t ht => h t (by simp [ht]))

end ControlSequence
end LoxScan
