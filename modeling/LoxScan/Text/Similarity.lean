/-!
# LoxScan - Similarity of words

How much a word is like another one, as a number between zero and one: the mean of
the shares of the characters that both words have in common, and of the share of
these that stand in the same order.

Main definitions:

- `Similarity.common`, the characters that two words have in common;
- `Similarity.score`, the similarity of two words.
-/

namespace LoxScan
namespace Similarity

/-- A character of a word, and whether it has found its partner in another word. -/
structure Slot where
  char : Char
  taken : Bool := false

/-- Takes the first free slot that holds a character, among the slots from `low`
on and before `high`. -/
def take? (x : Char) : (low high : Nat) → List Slot → Option (List Slot)
  | _, _, [] => none
  | _, 0, _ => none
  | low + 1, high + 1, slot :: slots => (take? x low high slots).map (slot :: ·)
  | 0, high + 1, slot :: slots =>
    if slot.char = x ∧ !slot.taken then
      some ({ slot with taken := true } :: slots)
    else
      (take? x 0 high slots).map (slot :: ·)

/-- How far partners may be apart in words of which the longer one has a length. -/
def reach (length : Nat) : Nat :=
  length / 2 - 1

/-- Looks for the partner of a character that stands at a place in its word.  Keeps
the characters that have found one, backwards. -/
def pair (far : Nat) (state : List Char × List Slot) (place : Char × Nat) :
    List Char × List Slot :=
  match take? place.1 (place.2 - far) (place.2 + far + 1) state.2 with
  | some slots => (place.1 :: state.1, slots)
  | none => state

/-- The characters that two words have in common, in the order of the first word
and in the order of the second one. -/
def common (a b : List Char) : List Char × List Char :=
  let (found, slots) :=
    a.zipIdx.foldl (pair (reach (max a.length b.length))) ([], b.map fun c => { char := c })
  (found.reverse, (slots.filter Slot.taken).map Slot.char)

/-- The similarity of two words. -/
def score (a b : List Char) : Float :=
  let (left, right) := common a b
  let matched := left.length
  if matched = 0 then
    if a.isEmpty && b.isEmpty then 1 else 0
  else
    let moved := (left.zip right).countP (fun (x, y) => x ≠ y) / 2
    (matched.toFloat / a.length.toFloat + matched.toFloat / b.length.toFloat +
      (matched - moved).toFloat / matched.toFloat) / 3

end Similarity
end LoxScan
