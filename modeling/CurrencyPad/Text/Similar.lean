import CurrencyPad.Text.Basic

/-!
# Similar texts

How much two texts have in common is measured by the runs of characters that
they share: the longest one, then the longest ones before and after it, and so
on. The share of the characters that lie in such runs tells which of several
words may be meant by a misspelt one.
-/

namespace CurrencyPad.Text

/-- The number of characters with which two texts start alike. -/
def commonStart : Text → Text → Nat
  | a :: left, b :: right => if a = b then commonStart left right + 1 else 0
  | _, _ => 0

/-- A run of characters that two texts share: where it starts in each of them,
and its length. -/
structure SharedRun where
  left : Nat
  right : Nat
  length : Nat
deriving DecidableEq, Repr

/-- The longer of two runs, or the first if they are of one length. -/
def SharedRun.longer (first second : SharedRun) : SharedRun :=
  if first.length < second.length then second else first

/-- The longer of a run and of those that start at a position in one text and
anywhere in the second one from a position on. -/
def longestAt (left : Nat) (text : Text) (right : Nat) (best : SharedRun) :
    Text → SharedRun
  | [] => best
  | c :: rest =>
    longestAt left text (right + 1)
      (best.longer ⟨left, right, commonStart text (c :: rest)⟩) rest

/-- The longer of a run and of those that start anywhere in a text from a
position on. -/
def longestFrom (other : Text) (left : Nat) (best : SharedRun) : Text → SharedRun
  | [] => best
  | c :: rest =>
    longestFrom other (left + 1) (longestAt left (c :: rest) 0 best other) rest

/-- The longest run that two texts share; of several ones the first. -/
def longestShared (text other : Text) : SharedRun :=
  longestFrom other 0 ⟨0, 0, 0⟩ text

/-- The number of characters that two texts share, the longest run and those
around it, where the first text has at most the given number of characters. -/
def sharedWithin : Nat → Text → Text → Nat
  | 0, _, _ => 0
  | size + 1, text, other =>
    let run := longestShared text other
    if run.length = 0 then 0
    else
      run.length + sharedWithin size (text.take run.left) (other.take run.right) +
        sharedWithin size (text.drop (run.left + run.length))
          (other.drop (run.right + run.length))

/-- The number of characters that two texts share. -/
def shared (text other : Text) : Nat :=
  sharedWithin text.length text other

/-- How similar a text is to a word: the characters that both share, and the
characters that both have. -/
structure Similarity where
  text : Text
  shared : Nat
  size : Nat

namespace Similarity

/-- The similarity of a text to a word. -/
def of (word text : Text) : Similarity :=
  ⟨text, Text.shared text word, text.length + word.length⟩

/-- Whether a text is close to the word: three fifths of all characters are
shared. -/
def isClose (similarity : Similarity) : Bool :=
  3 * similarity.size ≤ 5 * (2 * similarity.shared)

/-- The order by similarity, the greatest first; equally similar texts are in
reverse order. -/
def before (left right : Similarity) : Bool :=
  let first := left.shared * right.size
  let second := right.shared * left.size
  if first = second then Text.le right.text left.text else second < first

end Similarity

/-- The greatest number of words that are proposed for a misspelt one. -/
def proposalLimit : Nat := 3

/-- The texts that are closest to a word, in alphabetical order. -/
def closest (texts : List Text) (word : Text) : List Text :=
  let close := (texts.map (Similarity.of word)).filter (·.isClose)
  (((close.mergeSort Similarity.before).take proposalLimit).map
    (·.text)).mergeSort Text.le

end CurrencyPad.Text
