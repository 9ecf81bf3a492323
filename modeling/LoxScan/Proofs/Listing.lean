import LoxScan.Proofs.Image
import LoxScan.Proofs.ScriptRun

/-!
# LoxScan - Listings are read back

A listing shows a string twice and does not escape it, so a string of several lines may
look like lines that list other tokens.  Still a listing can be read back token by token.
The name of the kind has no space, and it tells how far the source text goes: a numeral
has no space, and a string goes to the next quote.  The source text fixes the value, and so
the rest of what is shown of the token.

Main definitions:

- `Kind.all`, all kinds of tokens;
- `Token.Scanned`, for the tokens of sources.

Main results:

- Theorem `Kind.name_injective`: no two kinds have the same name.
- Theorem `Token.Scanned.content_eq`: the source text of a token fixes kind and value.
- Theorem `Token.text_append_inj`: the first token of a listing is fixed by the text.
- Theorem `Command.stdout_runScript_eq_iff`: outputs are equal exactly if the tokens have
  the same contents.
-/

namespace LoxScan

/-! ## Names of kinds -/

namespace Kind

/-- All kinds. -/
def all : List Kind :=
  [.symbol .leftParen, .symbol .rightParen, .symbol .leftBrace, .symbol .rightBrace,
    .symbol .comma, .symbol .dot, .symbol .minus, .symbol .plus, .symbol .semicolon,
    .symbol .slash, .symbol .star, .symbol .bang, .symbol .bangEqual, .symbol .equal,
    .symbol .equalEqual, .symbol .greater, .symbol .greaterEqual, .symbol .less,
    .symbol .lessEqual, .string, .number, .eof]

/-- There are no other kinds. -/
theorem mem_all (k : Kind) : k ∈ all := by
  cases k with
  | symbol s => cases s <;> decide
  | string => decide
  | number => decide
  | eof => decide

/-- No two kinds have the same name. -/
theorem name_injective : Function.Injective name := by
  have hnodup : (all.map name).Nodup := by decide +kernel
  intro k l h
  exact List.inj_on_of_nodup_map hnodup (mem_all k) (mem_all l) h

/-- Names have capital letters and underscores only. -/
theorem isUpper_or_eq_of_mem_name {k : Kind} {c : Char} (h : c ∈ k.name.toList) :
    c.isUpper ∨ c = '_' := by
  have hnames : ∀ k ∈ all, k.name.toList.all fun c => c.isUpper || c = '_' := by decide +kernel
  simpa using List.all_eq_true.mp (hnames k (mem_all k)) c h

/-- Names have no blanks. -/
theorem not_mem_name_of_isBlank (k : Kind) {c : Char} (hc : isBlank c) : c ∉ k.name.toList := by
  intro hmem
  rcases isBlank_iff.mp hc with rfl | rfl | rfl | rfl <;>
    exact absurd (isUpper_or_eq_of_mem_name hmem) (by decide)

end Kind

/-! ## One token -/

namespace Token

/-- Whether a token is one of a source: it is well formed, or stands for the end. -/
def Scanned (t : Token) : Prop :=
  t.WellFormed ∨ ∃ line, t = eof line

namespace Scanned

variable {t u : Token}

/-- A token that stands for the end has the content of all such tokens. -/
theorem content_of_kind_eof (h : t.Scanned) (hkind : t.kind = .eof) :
    t.content = (eof 1).content := by
  rcases h with hwell | ⟨line, rfl⟩
  · rw [WellFormed, hkind] at hwell
    exact hwell.elim
  · rfl

/-- A token that does not stand for the end is well formed. -/
theorem wellFormed (h : t.Scanned) (hkind : t.kind ≠ .eof) : t.WellFormed := by
  rcases h with hwell | ⟨line, rfl⟩
  · exact hwell
  · exact (hkind rfl).elim

/-- No well-formed token has the text of the end. -/
theorem lexeme_ne_of_wellFormed (h : t.WellFormed) (line : UInt32) :
    t.lexeme ≠ (eof line).lexeme := by
  intro hlexeme
  have htokens := h.map_content_tokenize_lexeme
  rw [hlexeme, contents_tokenize, eof, String.toList_empty, Piece.ofText_nil] at htokens
  cases htokens

/-- The source text fixes kind and value, as scanning it finds the token again. -/
theorem content_eq (ht : t.Scanned) (hu : u.Scanned) (hlexeme : t.lexeme = u.lexeme) :
    t.content = u.content := by
  rcases ht with ht | ⟨line, rfl⟩
  · rcases hu with hu | ⟨line, rfl⟩
    · have htokens := ht.map_content_tokenize_lexeme
      rw [hlexeme, hu.map_content_tokenize_lexeme] at htokens
      exact (List.cons.inj htokens).1.symm
    · exact absurd hlexeme (lexeme_ne_of_wellFormed ht line)
  · rcases hu with hu | ⟨line', rfl⟩
    · exact absurd hlexeme.symm (lexeme_ne_of_wellFormed hu line)
    · rfl

/-- The kind tells how far the source text of a token goes when a space follows it. -/
theorem lexeme_eq (ht : t.Scanned) (hu : u.Scanned) (hkind : t.kind = u.kind)
    {xs ys : List Char} (h : t.lexeme.toList ++ ' ' :: xs = u.lexeme.toList ++ ' ' :: ys) :
    t.lexeme = u.lexeme := by
  by_cases heof : t.kind = .eof
  · have hcontent := (ht.content_of_kind_eof heof).trans
      (hu.content_of_kind_eof (hkind ▸ heof)).symm
    exact congrArg (fun content => content.2.1) hcontent
  have htwell := ht.wellFormed heof
  have huwell := hu.wellFormed (hkind ▸ heof)
  rw [WellFormed] at htwell huwell
  rw [← hkind] at huwell
  split at htwell
  · rename_i s hs
    rw [hs] at huwell
    rw [htwell.1, huwell.1]
  · -- A string goes to the next quote, as it has none inside.
    rename_i hs
    rw [hs] at huwell
    rcases htwell with ⟨s, hsquote, hslexeme, _⟩
    rcases huwell with ⟨r, hrquote, hrlexeme, _⟩
    rw [hslexeme, hrlexeme] at h
    have hbody : s.toList ++ '"' :: ' ' :: xs = r.toList ++ '"' :: ' ' :: ys := by simpa using h
    have hsr := (append_cons_inj_of_not_mem hsquote hrquote hbody).1
    rw [hslexeme, hrlexeme, String.toList_inj.mp hsr]
  · rename_i hs
    rw [hs] at huwell
    have hspace : ∀ {w : List Char}, IsNumeral w → ' ' ∉ w := by
      intro w hw
      rcases isNumeral_iff.mp hw with ⟨n, hn, rfl⟩
      exact Numeral.not_mem_chars hn (by decide) (by decide)
    have hlexeme := (append_cons_inj_of_not_mem (hspace htwell.1) (hspace huwell.1) h).1
    exact String.toList_inj.mp hlexeme
  · exact htwell.elim

end Scanned

/-- A token as it is listed, in characters: the name of its kind comes first, and a space
after it. -/
theorem toList_text (t : Token) :
    t.text.toList = t.kind.name.toList ++
      ' ' :: (t.lexeme.toList ++ ' ' :: (t.literal.elim "null" Literal.text).toList) := by
  simp [text]

/-- What is listed of a token depends on its content only. -/
theorem text_eq_of_content_eq {t u : Token} (h : t.content = u.content) : t.text = u.text := by
  obtain ⟨hkind, hlexeme, hliteral⟩ := content_eq_iff.mp h
  rw [text, text, hkind, hlexeme, hliteral]

/-- The first token of a listing, apart from its line, and the rest of the listing are
fixed by the text. -/
theorem text_append_inj {t u : Token} (ht : t.Scanned) (hu : u.Scanned) {xs ys : List Char}
    (h : t.text.toList ++ '\n' :: xs = u.text.toList ++ '\n' :: ys) :
    t.content = u.content ∧ xs = ys := by
  have hsplit := h
  rw [toList_text, toList_text] at hsplit
  simp only [List.append_assoc, List.cons_append] at hsplit
  rcases append_cons_inj_of_not_mem (t.kind.not_mem_name_of_isBlank rfl)
    (u.kind.not_mem_name_of_isBlank rfl) hsplit with ⟨hname, hrest⟩
  have hkind : t.kind = u.kind := Kind.name_injective (String.toList_inj.mp hname)
  have hcontent := ht.content_eq hu (ht.lexeme_eq hu hkind hrest)
  refine ⟨hcontent, ?_⟩
  rw [text_eq_of_content_eq hcontent] at h
  exact (List.cons.inj (List.append_cancel_left h)).2

end Token

/-! ## Listings -/

namespace Command

/-- A listing in characters: the tokens, each with a newline after it. -/
theorem toList_listing (ts : List Token) :
    (listing ts).toList = ts.flatMap fun t => t.text.toList ++ ['\n'] := by
  rw [listing_eq_join, String.toList_join, List.flatMap_map]
  simp

/-- The listing of tokens and then of others. -/
theorem listing_append (ts us : List Token) : listing (ts ++ us) = listing ts ++ listing us := by
  apply String.toList_inj.mp
  simp [toList_listing]

/-- Tokens of sources that are listed in the same way have the same contents. -/
theorem map_content_eq_of_listing_eq {ts us : List Token} (hts : ∀ t ∈ ts, t.Scanned)
    (hus : ∀ u ∈ us, u.Scanned) (h : listing ts = listing us) :
    ts.map Token.content = us.map Token.content := by
  have hchars := congrArg String.toList h
  rw [toList_listing, toList_listing] at hchars
  clear h
  induction ts generalizing us with
  | nil =>
    cases us with
    | nil => rfl
    | cons u us => simp at hchars
  | cons t ts ih =>
    cases us with
    | nil => simp at hchars
    | cons u us =>
      rw [List.flatMap_cons, List.flatMap_cons, List.append_assoc, List.append_assoc] at hchars
      rcases Token.text_append_inj (hts t (by simp)) (hus u (by simp)) hchars with
        ⟨hcontent, hrest⟩
      rw [List.map_cons, List.map_cons, hcontent,
        ih (fun t ht => hts t (by simp [ht])) (fun u hu => hus u (by simp [hu])) hrest]

/-- Tokens with the same contents are listed in the same way. -/
theorem listing_eq_of_map_content_eq {ts us : List Token}
    (h : ts.map Token.content = us.map Token.content) : listing ts = listing us := by
  rw [listing_eq_join, listing_eq_join]
  congr 1
  induction ts generalizing us with
  | nil =>
    have hus : us = [] := List.map_eq_nil_iff.mp h.symm
    rw [hus]
  | cons t ts ih =>
    rcases List.map_eq_cons_iff.mp h.symm with ⟨u, us, rfl, hcontent, hrest⟩
    rw [List.map_cons, List.map_cons, Token.text_eq_of_content_eq hcontent, ih hrest.symm]

end Command

/-- The tokens of a source are tokens of a source. -/
theorem scanned_of_mem_tokens {source : String} {t : Token} (h : t ∈ (tokenize source).tokens) :
    t.Scanned := by
  rw [tokens_eq_proper_append] at h
  rcases List.mem_append.mp h with hproper | hend
  · exact .inl (wellFormed_of_mem_proper hproper)
  · exact .inr ⟨_, List.mem_singleton.mp hend⟩

/-- What a run on a file writes on the standard output can be read back: two texts give the
same output exactly if they have as many tokens, and these agree one by one in kind, source
text and value, numbers bit for bit. -/
theorem Command.stdout_runScript_eq_iff (a b path path' : String) :
    (runScript path (.ok a.toUTF8) false).output.stdout =
        (runScript path' (.ok b.toUTF8) false).output.stdout ↔
      (tokenize a).tokens.map Token.content = (tokenize b).tokens.map Token.content := by
  rw [runScript_toUTF8, runScript_toUTF8, scanText_eq, scanText_eq]
  constructor
  · intro h
    exact map_content_eq_of_listing_eq (fun _ => scanned_of_mem_tokens)
      (fun _ => scanned_of_mem_tokens) h
  · intro h
    exact listing_eq_of_map_content_eq h

/-- One token that is listed on four lines, two of which look like lines that list others. -/
example : Command.listing (tokenize "\"\nEOF  null\nDOT . null\n\"").proper =
    "STRING \"\nEOF  null\nDOT . null\n\" \nEOF  null\nDOT . null\n\n" := by
  decide +kernel

end LoxScan
