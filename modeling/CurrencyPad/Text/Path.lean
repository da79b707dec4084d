import CurrencyPad.Text.Bytes

/-!
# Paths

A path names a file or directory by the names that lead to it, with slashes
between them. A path that starts with a slash starts from the root; others start
from the working directory.
-/

namespace CurrencyPad.Path

/-- The names that lead to a path's end. Empty names and single points lead
nowhere. -/
def names (path : Text) : List Text :=
  (Text.splitAt '/' path).filter fun name => !name.isEmpty && name != ['.']

/-- What a path starts with: nothing, one slash, or the two that are kept where
there are just two. -/
def start (path : Text) : Text :=
  match path with
  | '/' :: '/' :: '/' :: _ => ['/']
  | '/' :: '/' :: _ => ['/', '/']
  | '/' :: _ => ['/']
  | _ => []

def plain (path : Text) : Text :=
  match start path ++ Text.join ['/'] (names path) with
  | [] => ['.']
  | shortened => shortened

def below (directory name : Text) : Text :=
  plain (directory ++ '/' :: name)

def nameLimit : Nat := 255

def lengthLimit : Nat := 4095

/-- Whether a path and the names in it are no longer than they may be. -/
def isStorable (path : Text) : Bool :=
  (Text.toBytes path).length ≤ lengthLimit &&
    (Text.splitAt '/' path).all fun name => (Text.toBytes name).length ≤ nameLimit

/-- The names from the root that lead to a path's end, if the path is seen from
a directory. Empty names and single points are kept, because what stands before
them must be a directory. -/
def steps (directory : List Text) (path : Text) : List Text × List Text :=
  match path with
  | '/' :: rest => ([], Text.splitAt '/' rest)
  | _ => (directory, Text.splitAt '/' path)

end CurrencyPad.Path
