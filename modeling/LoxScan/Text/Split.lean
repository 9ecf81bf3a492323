/-!
# LoxScan - Splitting a list at an element

What stands before the first occurrence of an element, and what follows it.

Main definitions:

- `before` and `after`, the two parts;
- `dropEnd`, a list without an element at its end.

Main results:

- `before_append_cons_after`: the parts and the element make up the list.
- `before_append_cons` and `after_append_cons`: the parts of a list that is written
  as such.
-/

namespace LoxScan

/-! ## Classes at the front of a text -/

section Front

variable {α : Type} {p : α → Bool} {xs rest : List α}

/-- What is taken while a class lasts ends where something else begins. -/
theorem takeWhile_append_of_head (hall : ∀ x ∈ xs, p x) (hstop : ∀ x ∈ rest.head?, ¬ p x) :
    (xs ++ rest).takeWhile p = xs := by
  rw [List.takeWhile_append_of_pos hall]
  cases rest with
  | nil => simp
  | cons y ys =>
    have hy : ¬ p y := hstop y rfl
    simp [hy]

/-- What is left once a class ends is the text that begins with something else. -/
theorem dropWhile_append_of_head (hall : ∀ x ∈ xs, p x) (hstop : ∀ x ∈ rest.head?, ¬ p x) :
    (xs ++ rest).dropWhile p = rest := by
  rw [List.dropWhile_append_of_pos hall]
  cases rest with
  | nil => simp
  | cons y ys =>
    have hy : ¬ p y := hstop y rfl
    simp [hy]

/-- What is left once a class ends does not begin with a member of the class. -/
theorem not_of_mem_head?_dropWhile {x : α} (h : x ∈ (xs.dropWhile p).head?) : ¬ p x := by
  have hnot := List.head?_dropWhile_not p xs
  rw [Option.mem_def.mp h] at hnot
  simpa using hnot

/-- Members of what is taken while a class lasts are in the class. -/
theorem of_mem_takeWhile {x : α} (h : x ∈ xs.takeWhile p) : p x :=
  List.all_eq_true.mp List.all_takeWhile x h

end Front

/-! ## The first occurrence of an element -/

variable {α : Type} [DecidableEq α]

/-- What stands before the first `x`; everything, if there is none. -/
def before (x : α) (xs : List α) : List α :=
  xs.takeWhile (· ≠ x)

/-- What follows the first `x`; nothing, if there is none. -/
def after (x : α) (xs : List α) : List α :=
  (xs.dropWhile (· ≠ x)).tail

/-- A list without its last element if that is `x`. -/
def dropEnd (x : α) (xs : List α) : List α :=
  if xs.getLast? = some x then xs.dropLast else xs

/-- A list that has an `x` is what stands before the first one, the `x`, and what
follows it. -/
theorem before_append_cons_after {x : α} {xs : List α} (h : x ∈ xs) :
    before x xs ++ x :: after x xs = xs := by
  induction xs with
  | nil => simp at h
  | cons y ys ih =>
    by_cases hy : y = x
    · simp [before, after, hy]
    · have hmem : x ∈ ys := by simpa [Ne.symm hy] using h
      have := ih hmem
      simpa [before, after, List.takeWhile_cons, List.dropWhile_cons, hy] using this

/-- What stands before an element does not have it. -/
theorem not_mem_before (x : α) (xs : List α) : x ∉ before x xs := by
  intro h
  have := of_mem_takeWhile h
  simp at this

/-- The members of a list without `x` differ from `x`. -/
theorem decide_ne_of_mem {x : α} {xs : List α} (h : x ∉ xs) : ∀ y ∈ xs, decide (y ≠ x) := by
  intro y hy
  rw [decide_eq_true_iff]
  rintro rfl
  exact h hy

/-- What stands before the first `x`, when it is written down. -/
theorem before_append_cons {x : α} {xs : List α} (h : x ∉ xs) (rest : List α) :
    before x (xs ++ x :: rest) = xs :=
  takeWhile_append_of_head (decide_ne_of_mem h) (by simp)

/-- A list without `x` stands before the first `x` of what follows it. -/
theorem before_append {x : α} {xs : List α} (h : x ∉ xs) (ys : List α) :
    before x (xs ++ ys) = xs ++ before x ys :=
  List.takeWhile_append_of_pos (decide_ne_of_mem h)

/-- All of a list without `x` stands before the first `x`. -/
theorem before_of_not_mem {x : α} {xs : List α} (h : x ∉ xs) : before x xs = xs := by
  simpa [before] using before_append h []

/-- What follows the first `x`, when it is written down. -/
theorem after_append_cons {x : α} {xs : List α} (h : x ∉ xs) (rest : List α) :
    after x (xs ++ x :: rest) = rest := by
  have hdrop : (xs ++ x :: rest).dropWhile (· ≠ x) = x :: rest :=
    dropWhile_append_of_head (decide_ne_of_mem h) (by simp)
  rw [after, hdrop, List.tail_cons]

/-- Nothing follows the first `x` of a list without `x`. -/
theorem after_of_not_mem {x : α} {xs : List α} (h : x ∉ xs) : after x xs = [] := by
  have hdrop : (xs ++ []).dropWhile (· ≠ x) = [] :=
    dropWhile_append_of_head (decide_ne_of_mem h) (by simp)
  rw [List.append_nil] at hdrop
  rw [after, hdrop, List.tail_nil]

/-- Two lists that are cut at the same element, which neither has before, are cut into the
same parts. -/
theorem append_cons_inj_of_not_mem {x : α} {xs ys xs' ys' : List α} (hxs : x ∉ xs) (hys : x ∉ ys)
    (h : xs ++ x :: xs' = ys ++ x :: ys') : xs = ys ∧ xs' = ys' := by
  have hbefore := congrArg (before x) h
  have hafter := congrArg (after x) h
  rw [before_append_cons hxs, before_append_cons hys] at hbefore
  rw [after_append_cons hxs, after_append_cons hys] at hafter
  exact ⟨hbefore, hafter⟩

/-- A list without an element at its end has no other members. -/
theorem mem_of_mem_dropEnd {x y : α} {xs : List α} (h : y ∈ dropEnd x xs) : y ∈ xs := by
  unfold dropEnd at h
  split at h
  · exact List.dropLast_subset xs h
  · exact h

/-- A list without an element at its end has the others where they were. -/
theorem getElem?_dropEnd {x y : α} {xs : List α} {i : Nat} (h : xs[i]? = some y) (hne : y ≠ x) :
    (dropEnd x xs)[i]? = some y := by
  unfold dropEnd
  split
  · rename_i hlast
    have hlt : i < xs.length := (List.getElem?_eq_some_iff.mp h).1
    rw [List.getElem?_dropLast, if_pos, h]
    apply Decidable.byContradiction
    intro hend
    have hi : xs.length - 1 = i := by omega
    rw [List.getLast?_eq_getElem?, hi, h] at hlast
    exact hne (Option.some.inj hlast)
  · exact h

/-- What follows an element is no longer than the list. -/
theorem length_after_le (x : α) (xs : List α) : (after x xs).length ≤ xs.length :=
  ((List.tail_suffix _).trans (List.dropWhile_suffix _)).length_le

/-- What follows an element is shorter than the list. -/
theorem length_after_lt {x : α} {xs : List α} (h : x ∈ xs) :
    (after x xs).length < xs.length := by
  have happend := congrArg List.length (before_append_cons_after h)
  simp only [List.length_append, List.length_cons] at happend
  omega

end LoxScan
