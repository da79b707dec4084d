import CurrencyPad.Text.Basic

/-!
# Tables

Values under names. A table either keeps the order in which the names came or is
sorted by them; no name occurs twice in a table that is built with the
operations below.
-/

namespace CurrencyPad

/-- Values under names. -/
abbrev Table (α : Type) := List (Text × α)

namespace Table

variable {α : Type}

def get? (table : Table α) (name : Text) : Option α :=
  (table.find? (·.1 == name)).map (·.2)

def names (table : Table α) : List Text :=
  table.map (·.1)

/-- Values under names of any kind, with a value for one name. The entry of that
name is replaced where it stands; otherwise a new entry is added at the end. -/
def setEntry {Name : Type} [DecidableEq Name] (entries : List (Name × α))
    (name : Name) (value : α) : List (Name × α) :=
  match entries with
  | [] => [(name, value)]
  | (other, old) :: rest =>
    if other = name then (name, value) :: rest
    else (other, old) :: setEntry rest name value

/-- A table in which a name has a value. -/
def set (table : Table α) (name : Text) (value : α) : Table α :=
  setEntry table name value

/-- The table of entries in which a later value of a name replaces an earlier
one. -/
def ofEntries (entries : List (Text × α)) : Table α :=
  entries.foldl (fun table entry => table.set entry.1 entry.2) []

/-- A sorted table with one more entry, which replaces one of the same name. -/
def insert (table : Table α) (name : Text) (value : α) : Table α :=
  match table with
  | [] => [(name, value)]
  | (other, old) :: rest =>
    if other = name then (name, value) :: rest
    else if Text.le name other then (name, value) :: (other, old) :: rest
    else (other, old) :: insert rest name value

def sorted (table : Table α) : Table α :=
  table.mergeSort fun left right => Text.le left.1 right.1

end Table

end CurrencyPad
