import LoxScan.Text.ClusterBreak

/-!
# LoxScan - Visible characters

A text is cut into clusters, the characters that a reader sees: a letter with its
marks, a syllable, a flag, a family of pictographs.  The rules are those of
Unicode for extended grapheme clusters.

Main definitions:

- `joins`, whether a character goes on with a cluster;
- `clusters`, the clusters of a text.

Main results:

- `flatten_clusters`: the clusters make up the text.
-/

namespace LoxScan

/-! ## The rules -/

/-- Whether what is given backwards ends in a consonant with a linker after it. -/
def endsInLinkedConsonant (cs : List Char) : Bool :=
  (cs.takeWhile isConjunctPart).any isLinker &&
    (cs.dropWhile isConjunctPart).head?.any (BreakClass.ofChar · = .consonant)

/-- Whether what is given backwards ends in a pictograph, with or without marks. -/
def endsInPictograph (cs : List Char) : Bool :=
  (cs.dropWhile (BreakClass.ofChar · = .extend)).head?.any (BreakClass.ofChar · = .pictograph)

/-- Whether what is given backwards ends in half a flag. -/
def endsInHalfFlag (cs : List Char) : Bool :=
  (cs.takeWhile (BreakClass.ofChar · = .regional)).length % 2 = 1

/-- Whether a character goes on with a cluster, which is given backwards. -/
def joins (cluster : List Char) (c : Char) : Bool :=
  match cluster with
  | [] => true
  | last :: earlier =>
    match BreakClass.ofChar last, BreakClass.ofChar c with
    | .carriageReturn, .newline => true
    | .carriageReturn, _ | .newline, _ | .control, _ => false
    | _, .carriageReturn | _, .newline | _, .control => false
    | _, .extend | _, .joiner | _, .spacingMark => true
    | .prepend, _ => true
    | .leading, .leading | .leading, .vowel => true
    | .leading, .openSyllable | .leading, .closedSyllable => true
    | .openSyllable, .vowel | .openSyllable, .trailing => true
    | .vowel, .vowel | .vowel, .trailing => true
    | .closedSyllable, .trailing | .trailing, .trailing => true
    | _, .consonant => endsInLinkedConsonant cluster
    | .joiner, .pictograph => endsInPictograph earlier
    | .regional, .regional => endsInHalfFlag cluster
    | _, _ => false

/-! ## Cutting a text -/

/-- Adds a character to clusters.  The clusters are given backwards, and so is
each of them. -/
def addChar : List (List Char) → Char → List (List Char)
  | [], c => [[c]]
  | cluster :: earlier, c =>
    if joins cluster c then (c :: cluster) :: earlier else [c] :: cluster :: earlier

/-- The clusters of a text. -/
def clusters (cs : List Char) : List (List Char) :=
  ((cs.foldl addChar []).map List.reverse).reverse

/-- Clusters that are given backwards hold one character more when it is added. -/
theorem flatten_addChar (done : List (List Char)) (c : Char) :
    (addChar done c).flatten = c :: done.flatten := by
  cases done with
  | nil => rfl
  | cons cluster earlier =>
    rw [addChar]
    split <;> simp

/-- Clusters that are given backwards hold a text backwards when its characters
are added. -/
theorem flatten_foldl_addChar (done : List (List Char)) (cs : List Char) :
    (cs.foldl addChar done).flatten = cs.reverse ++ done.flatten := by
  induction cs generalizing done with
  | nil => simp
  | cons c cs ih => simp [ih, flatten_addChar]

/-- The clusters make up the text. -/
theorem flatten_clusters (cs : List Char) : (clusters cs).flatten = cs := by
  have h := congrArg List.reverse (flatten_foldl_addChar [] cs)
  simpa [clusters, List.reverse_flatten] using h

end LoxScan
