import CurrencyPad.Journal.Records

/-!
# Where commands run

A command reads and writes files, looks at the clock and makes up names of
sessions. All of it happens in a monad that offers these few actions.
-/

namespace CurrencyPad

inductive PathEntry where
  | nothing
  | file (content : Bytes)
  | directory
  /-- The path is longer than paths may be. -/
  | tooLong
deriving DecidableEq, Repr

inductive DirectoryFault where
  /-- There is a file in its place. -/
  | fileInPlace
  /-- There is a file on the way to it. -/
  | fileOnTheWay
  | tooLong
  /-- The path holds the character with code point zero. -/
  | zeroInPath
deriving DecidableEq, Repr

class Host (m : Type → Type) where
  /-- The directory that relative paths start from. -/
  workingDirectory : m Text
  /-- What is found under a path. -/
  look : Text → m PathEntry
  /-- Makes a directory with those that lead to it, unless it is there. -/
  makeDirectory : Text → m (Except DirectoryFault Unit)
  /-- Adds bytes to the end of a file, at once if so asked, and tells whether
  that was possible. -/
  append : Text → Bytes → Bool → m Bool
  /-- The time as events write it. -/
  now : m Text
  /-- A name for a session that has none. -/
  freshName : m Text

end CurrencyPad
