import LoxScan.Proofs.LineEndings
import LoxScan.Proofs.LineLookup

/-!
# LoxScan - The lines of a source

A source is its lines with newlines between them.  Looking up a line by its number finds
the text that has as many lines before it, and nothing else.  A line is looked up without
its line ending, so all lines put together again are the source without one carriage
return at the end of each line.

Main definitions:

- `Line.SetsApart`, for a text in which a line is set apart by its number.

Main results:

- Theorems `Line.skip?_eq_some_iff` and `Line.skip?_eq_none_iff`: what is left when lines
  are skipped.
- Theorems `Line.nth?_eq_some_iff` and `Line.nth?_eq_none_iff`: the lines that are found.
- Theorem `Line.getElem?_splitOn`: they are the parts between the newlines of the text.
- Theorem `sourceLine?_spec`: the lines of a source by their numbers, and all together.
-/

namespace LoxScan

/-- An element at the end is taken off the last part of a list. -/
theorem dropEnd_append_of_ne_nil {α : Type} [DecidableEq α] {ys : List α} (h : ys ≠ []) (x : α)
    (xs : List α) : dropEnd x (xs ++ ys) = xs ++ dropEnd x ys := by
  rw [dropEnd, dropEnd, List.getLast?_append_of_ne_nil xs h, List.dropLast_append_of_ne_nil h]
  split <;> rfl

namespace Line

/-! ## Skipping lines -/

/-- Nothing is left beyond the last line of a text. -/
theorem skip?_eq_none_iff {n : Nat} {cs : List Char} : skip? n cs = none ↔ cs.count '\n' < n := by
  fun_induction skip? n cs with
  | case1 cs => simp
  | case2 n => simp
  | case3 n cs ih => simpa using ih
  | case4 n c cs hc ih => rw [ih, List.count_cons_of_ne hc]

/-- What is left when lines are skipped is the text behind a front that has as many newlines
and ends in one. -/
theorem skip?_eq_some_iff {n : Nat} {cs rest : List Char} :
    skip? n cs = some rest ↔ ∃ front, cs = front ++ rest ∧ front.count '\n' = n ∧
      ∀ c ∈ front.getLast?, c = '\n' := by
  constructor
  · intro h
    fun_induction skip? n cs with
    | case1 cs => exact ⟨[], Option.some.inj h, rfl, by simp⟩
    | case2 n => cases h
    | case3 n cs ih =>
      rcases ih h with ⟨front, rfl, rfl, hlast⟩
      refine ⟨'\n' :: front, rfl, by simp, ?_⟩
      cases front with
      | nil => simp
      | cons d front => simpa using hlast
    | case4 n c cs hc ih =>
      rcases ih h with ⟨front, rfl, hcount, hlast⟩
      refine ⟨c :: front, rfl, by rw [List.count_cons_of_ne hc, hcount], ?_⟩
      cases front with
      | nil => cases hcount
      | cons d front => simpa using hlast
  · rintro ⟨front, rfl, rfl, hlast⟩
    have htail : tailOf front = [] := by
      rcases front.eq_nil_or_concat with rfl | ⟨front, c, rfl⟩
      · rfl
      · obtain rfl := hlast c (by simp)
        simp [tailOf, before]
    rw [skip?_count_append, htail, List.nil_append]

/-! ## Lines set apart -/

/-- Whether the text `raw` is set apart as the line of a number in the text that it makes up
with what stands before and after it: what stands before it has a newline for each line
before it and ends in the last of them, it has no newline itself, and what stands after it
begins with one. -/
structure SetsApart (line : UInt32) (front raw back : List Char) : Prop where
  toNat_eq : line.toNat = front.count '\n' + 1
  front_ends : ∀ c ∈ front.getLast?, c = '\n'
  not_mem : '\n' ∉ raw
  back_begins : ∀ c ∈ back.head?, c = '\n'

/-- What stands before the first newline is told by what it is followed by. -/
theorem before_append_of_head {raw back : List Char} (hraw : '\n' ∉ raw)
    (hback : ∀ c ∈ back.head?, c = '\n') : before '\n' (raw ++ back) = raw := by
  rw [before, takeWhile_append_of_head (decide_ne_of_mem hraw)]
  intro c hc
  simp [hback c hc]

/-- A line is found without its line ending where it is set apart, and only there. -/
theorem nth?_eq_some_iff {source text : List Char} {line : UInt32} :
    nth? source line = some text ↔ ∃ front raw back, SetsApart line front raw back ∧
      source = front ++ raw ++ back ∧ text = dropEnd '\r' raw := by
  by_cases hzero : line = 0
  · rw [nth?, if_pos hzero]
    constructor
    · intro h
      cases h
    · rintro ⟨front, raw, back, ⟨hline, _, _, _⟩, _⟩
      rw [hzero, UInt32.toNat_zero] at hline
      omega
  · have hpos : line.toNat ≠ 0 := fun h => hzero (UInt32.toNat_inj.mp h)
    rw [nth?, if_neg hzero, Option.map_eq_some_iff]
    constructor
    · rintro ⟨rest, hrest, rfl⟩
      rcases skip?_eq_some_iff.mp hrest with ⟨front, rfl, hcount, hends⟩
      refine ⟨front, before '\n' rest, rest.dropWhile (· ≠ '\n'),
        ⟨by omega, hends, not_mem_before '\n' rest, ?_⟩, ?_, rfl⟩
      · intro c hc
        simpa using not_of_mem_head?_dropWhile hc
      · rw [List.append_assoc, before, List.takeWhile_append_dropWhile]
    · rintro ⟨front, raw, back, ⟨hline, hends, hraw, hback⟩, rfl, rfl⟩
      refine ⟨raw ++ back, skip?_eq_some_iff.mpr ⟨front, ?_, by omega, hends⟩, ?_⟩
      · rw [List.append_assoc]
      · rw [before_append_of_head hraw hback]

/-- There is no line before the first one, and none after the last one. -/
theorem nth?_eq_none_iff {source : List Char} {line : UInt32} :
    nth? source line = none ↔ line = 0 ∨ 1 + source.count '\n' < line.toNat := by
  by_cases hzero : line = 0
  · simp [nth?, hzero]
  · have hpos : line.toNat ≠ 0 := fun h => hzero (UInt32.toNat_inj.mp h)
    rw [nth?, if_neg hzero, Option.map_eq_none_iff, skip?_eq_none_iff, or_iff_right hzero]
    omega

/-! ## All lines of a text -/

/-- An induction over the lines of a text: the last one has no newline, and the others have
one behind them. -/
theorem induction_on_lines {motive : List Char → Prop} (last : ∀ w, '\n' ∉ w → motive w)
    (line : ∀ w rest, '\n' ∉ w → motive rest → motive (w ++ '\n' :: rest)) (cs : List Char) :
    motive cs := by
  by_cases h : '\n' ∈ cs
  · rw [← before_append_cons_after h]
    exact line _ _ (not_mem_before '\n' cs) (induction_on_lines last line (after '\n' cs))
  · exact last cs h
termination_by cs.length
decreasing_by exact length_after_lt h

/-- The lines of a text are the parts that it is split into at its newlines. -/
theorem getElem?_splitOn (cs : List Char) (i : Nat) :
    (cs.splitOn '\n')[i]? = (skip? i cs).map (before '\n') := by
  induction cs using induction_on_lines generalizing i with
  | last w hw =>
    rw [List.splitOn_eq_singleton hw]
    cases i with
    | zero => simp [skip?, before_of_not_mem hw]
    | succ i =>
      have hnone : skip? (i + 1) w = none := by
        rw [skip?_eq_none_iff, List.count_eq_zero.mpr hw]
        exact Nat.succ_pos i
      simp [hnone]
  | line w rest hw ih =>
    rw [List.splitOn_append_cons_self_of_not_mem hw]
    cases i with
    | zero => simp [skip?, before_append_cons hw]
    | succ i =>
      have hskip : skip? (i + 1) (w ++ '\n' :: rest) = skip? i rest := by
        induction w with
        | nil => simp [skip?]
        | cons c w ihw =>
          rw [List.mem_cons, not_or] at hw
          rw [List.cons_append, skip?, if_neg (Ne.symm hw.1), ihw hw.2]
      rw [List.getElem?_cons_succ, ih, hskip]

/-- The lines without their line endings, with newlines between them, are the text with
newlines in place of the pairs, and without a carriage return at its end. -/
theorem intercalate_map_dropEnd_splitOn (cs : List Char) :
    ['\n'].intercalate ((cs.splitOn '\n').map (dropEnd '\r')) = dropEnd '\r' (unify cs) := by
  induction cs using induction_on_lines with
  | last w hw =>
    rw [List.splitOn_eq_singleton hw, unify_of_not_mem hw, List.map_singleton,
      List.intercalate_singleton]
  | line w rest hw ih =>
    have hunify : unify (w ++ '\n' :: rest) = dropEnd '\r' w ++ '\n' :: unify rest := by
      rw [unify_append_of_not_mem hw, if_pos (by simp), unify_cons_of_ne (by decide)]
    have hdrop : dropEnd '\r' (unify (w ++ '\n' :: rest)) =
        dropEnd '\r' w ++ '\n' :: dropEnd '\r' (unify rest) := by
      rw [hunify, dropEnd_append_of_ne_nil (by simp), dropEnd_cons_of_ne (by decide)]
    rw [hdrop, ← ih, List.splitOn_append_cons_self_of_not_mem hw, List.map_cons]
    rcases List.exists_cons_of_ne_nil (List.splitOn_ne_nil '\n' rest) with ⟨v, vs, hrest⟩
    rw [hrest, List.map_cons, List.intercalate_cons_cons, List.append_assoc, List.singleton_append]

/-- Looking up the lines of a text one after the other gives all of them. -/
theorem map_nth?_range {cs : List Char} (h : cs.count '\n' + 1 < UInt32.size) :
    (List.range (cs.count '\n' + 1)).map (fun i => nth? cs (UInt32.ofNat (i + 1))) =
      (cs.splitOn '\n').map fun w => some (dropEnd '\r' w) := by
  apply List.ext_getElem?
  intro i
  rw [List.getElem?_map, List.getElem?_map, getElem?_splitOn]
  by_cases hi : i < cs.count '\n' + 1
  · have hline : (UInt32.ofNat (i + 1)).toNat = i + 1 := UInt32.toNat_ofNat_of_lt' (by omega)
    have hzero : UInt32.ofNat (i + 1) ≠ 0 := by
      intro heq
      rw [heq, UInt32.toNat_zero] at hline
      omega
    obtain ⟨rest, hrest⟩ : ∃ rest, skip? i cs = some rest := by
      rw [← Option.ne_none_iff_exists', Ne, skip?_eq_none_iff]
      omega
    rw [List.getElem?_range hi, Option.map_some, nth?, if_neg hzero, hline, Nat.add_sub_cancel,
      hrest]
    rfl
  · rw [List.getElem?_eq_none (by simpa using hi), skip?_eq_none_iff.mpr (by omega)]
    rfl

end Line

/-- The text of a line of a source is found by its number where the line is set apart, and
without one carriage return at its end.  There is none for zero, and none for a number
greater than that of the last line.  As long as the numbers fit, the texts of all lines with
newlines between them are the source without one carriage return before each newline, and
without one at its end. -/
theorem sourceLine?_spec (source : String) :
    (∀ line text, sourceLine? source line = some text ↔
      ∃ front raw back, Line.SetsApart line front raw back ∧
        source.toList = front ++ raw ++ back ∧ text.toList = dropEnd '\r' raw) ∧
    (∀ line, sourceLine? source line = none ↔
      line = 0 ∨ 1 + source.toList.count '\n' < line.toNat) ∧
    (source.toList.count '\n' + 1 < UInt32.size →
      ∃ texts : List String,
        (List.range (source.toList.count '\n' + 1)).map
          (fun i => sourceLine? source (UInt32.ofNat (i + 1))) = texts.map some ∧
        "\n".intercalate texts = String.ofList (dropEnd '\r' (Line.unify source.toList))) := by
  refine ⟨?_, ?_, ?_⟩
  · intro line text
    have htext : sourceLine? source line = some text ↔
        Line.nth? source.toList line = some text.toList := by
      rw [sourceLine?, Option.map_eq_some_iff]
      constructor
      · rintro ⟨cs, hcs, rfl⟩
        rw [hcs, String.toList_ofList]
      · intro h
        exact ⟨text.toList, h, String.ofList_toList⟩
    rw [htext, Line.nth?_eq_some_iff]
  · intro line
    rw [sourceLine?, Option.map_eq_none_iff, Line.nth?_eq_none_iff]
  · intro hcount
    refine ⟨(source.toList.splitOn '\n').map fun w => String.ofList (dropEnd '\r' w), ?_, ?_⟩
    · have hmap := congrArg (List.map (Option.map String.ofList)) (Line.map_nth?_range hcount)
      simpa [sourceLine?, Function.comp_def] using hmap
    · apply String.toList_inj.mp
      rw [String.toList_intercalate, String.toList_ofList, ← Line.intercalate_map_dropEnd_splitOn,
        List.map_map]
      simp [Function.comp_def]

/-- Lines that end in a newline, with no, one or two carriage returns before it, and a last
line with one at its end. -/
theorem sourceLine?_spec_over_returns :
    "a\nb\r\n\r\r\nc\r".toList.count '\n' + 1 < UInt32.size ∧
      ∃ texts : List String,
        (List.range 4).map (fun i => sourceLine? "a\nb\r\n\r\r\nc\r" (UInt32.ofNat (i + 1))) =
          texts.map some ∧ "\n".intercalate texts = "a\nb\n\r\nc" := by
  have hcount : "a\nb\r\n\r\r\nc\r".toList.count '\n' + 1 < UInt32.size := by decide
  exact ⟨hcount, (sourceLine?_spec "a\nb\r\n\r\r\nc\r").2.2 hcount⟩

end LoxScan
