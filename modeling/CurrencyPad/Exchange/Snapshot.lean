import CurrencyPad.Money.Currency
import CurrencyPad.Text.Table

/-!
# Rate snapshots

The exchange rates that are known at one time: for a currency the number of
units of other currencies that one unit of it is worth. A snapshot may name a
pivot currency, through which rates can be combined. Codes are kept in normal
form and tables sorted, so equal snapshots have equal tables.
-/

namespace CurrencyPad

/-- The rates known at one time. -/
structure Snapshot where
  pivot : Option Text
  rows : Table (Table Float)
deriving BEq

namespace Snapshot

/-- A row of rates under codes in normal form. Of two codes with one normal form
the later counts. -/
def normalRow (row : Table Float) : Table Float :=
  row.foldl
    (fun table entry => table.insert (Currency.normalize entry.1) entry.2) []

/-- Rows under codes in normal form. Of two codes with one normal form the later
row counts. -/
def normalRows (rows : Table (Table Float)) : Table (Table Float) :=
  rows.foldl
    (fun table entry =>
      table.insert (Currency.normalize entry.1) (normalRow entry.2)) []

/-- The normal form of a pivot; an empty code is no pivot. -/
def normalPivot (pivot : Option Text) : Option Text :=
  match pivot with
  | some [] => none
  | other => other.map Currency.normalize

def ofRows (pivot : Option Text) (rows : Table (Table Float)) : Snapshot :=
  ⟨normalPivot pivot, normalRows rows⟩

/-- The snapshot of a table with the rates of one base currency, which is the
pivot. -/
def ofBaseTable (base : Text) (table : Table Float) : Snapshot :=
  let code := Currency.normalize base
  ofRows (some code) [(code, table)]

/-- The codes of the currencies that have a row, in order. -/
def currencies (snapshot : Snapshot) : List Text :=
  snapshot.rows.names

/-- A rate that can be used: a positive finite number. -/
def usable (rate : Float) : Bool :=
  rate.isFinite && 0 < rate

/-- The usable rate between two codes in normal form, as the table has it. -/
def quote? (snapshot : Snapshot) (source target : Text) : Option Float := do
  let row ← snapshot.rows.get? source
  let rate ← row.get? target
  if usable rate then some rate else none

def rate? (snapshot : Snapshot) (source target : Text) : Option Float :=
  snapshot.quote? (Currency.normalize source) (Currency.normalize target)

end Snapshot

end CurrencyPad
