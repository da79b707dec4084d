import CurrencyPad.Config.Load
import CurrencyPad.Exchange.Snapshot

/-!
# Loading rates

A rates file holds either the rates of one base currency or a table of rates
between pairs of currencies, for which the base currency is an optional pivot.
-/

namespace CurrencyPad

inductive RatesFileError where
  /-- The text is no YAML document, or holds scalars without a value. -/
  | notYaml (error : YamlError)
  | notAMapping (path : Text)
  | noSection (path : Text)
  | noBase
  /-- The base currency of a table is no text. -/
  | baseIsNoText
  /-- The rates of a base currency are no mapping and no list of pairs. -/
  | tableIsNoMapping
  /-- An item of a list of pairs has another length than two. -/
  | itemLength (index length : Nat)
  | invalid (error : ValidationError)

namespace RatesFileError

def message : RatesFileError → String
  | .notYaml error => error.message
  | .notAMapping path =>
    String.ofList path ++ ": expected a mapping at the top level"
  | .noSection path =>
    String.ofList path ++ ": expected a 'rates' or 'pairs' section"
  | .noBase => "'rates' tables need a base_currency"
  | .baseIsNoText => "the base currency is not a text"
  | .tableIsNoMapping => "the rates are not a mapping"
  | .itemLength index length =>
    "dictionary update sequence element #" ++ toString index ++
      " has length " ++ toString length ++
      "; 2 is required"
  | .invalid error => error.headline

/-- Whether an error is about what the file says, so that it is told to the user
as it is. -/
def isAboutContent : RatesFileError → Bool
  | .notYaml error => error.isAboutValue
  | .baseIsNoText => false
  | .tableIsNoMapping => false
  | _ => true

end RatesFileError

namespace Snapshot

def codeKey (key : Yaml) : Checked Text :=
  match key.datum.asText with
  | .ok code => .ok code
  | .error fault => .error [⟨[key.keyName, "[key]".toList], fault⟩]

def rateField (key value : Yaml) : Checked Float :=
  match value.datum.asFloat with
  | .ok rate => .ok rate
  | .error fault => .error [⟨[key.keyName], fault⟩]

def rateEntry (entry : Yaml × Yaml) : Checked (Text × Float) :=
  let checked : Checked _ := .ok Prod.mk
  (checked.apply (codeKey entry.1)).apply (rateField entry.1 entry.2)

def rateRow (row : Yaml) : Checked (Table Float) :=
  match row with
  | .mapping entries => Checked.collect (entries.map rateEntry)
  | _ => .error [⟨[], .dictType⟩]

def rowEntry (entry : Yaml × Yaml) : Checked (Text × Table Float) :=
  let checked : Checked _ := .ok Prod.mk
  (checked.apply (codeKey entry.1)).apply
    ((rateRow entry.2).inside entry.1.keyName)

def rowTable (rows : Yaml) : Checked (Table (Table Float)) :=
  match rows with
  | .mapping entries => Checked.collect (entries.map rowEntry)
  | _ => .error [⟨[], .dictType⟩]

def pivotField (pivot : Yaml) : Checked (Option Text) :=
  match pivot.datum.asOptionalText with
  | .ok pivot => .ok pivot
  | .error fault => Checked.fail "base_currency" fault

/-- The snapshot with a pivot and a table of rows that are both still to be
checked. -/
def ofYaml (pivot rows : Yaml) : Except ValidationError Snapshot :=
  let checked : Checked _ := .ok ofRows
  Checked.report "ExchangeRateSnapshot"
    ((checked.apply (pivotField pivot)).apply
      ((rowTable rows).inside "rates".toList))

/-- The parts of a value that has several in a row. -/
def parts? : Yaml → Option (List Yaml)
  | .string text => some (text.map fun c => .string [c])
  | .broken points => some (points.map fun point => Yaml.ofPoints [point])
  | .bytes content => some (content.map fun byte => .integer byte.toNat)
  | .pair key value => some [key, value]
  | .sequence items => some items
  | .set items => some items
  | .mapping entries => some (entries.map (·.1))
  | _ => none

def pairItem (index : Nat) (item : Yaml) : Except RatesFileError (Yaml × Yaml) :=
  match parts? item with
  | none => .error .tableIsNoMapping
  | some [key, value] =>
    if key.isKey then .ok (key, value) else .error .tableIsNoMapping
  | some parts => .error (.itemLength index parts.length)

/-- The entries of a list of pairs, the first of which has the given number. -/
def pairItems (index : Nat) :
    List Yaml → Except RatesFileError (List (Yaml × Yaml))
  | [] => .ok []
  | item :: rest => do
    let entry ← pairItem index item
    let others ← pairItems (index + 1) rest
    return entry :: others

def tableEntries (table : Yaml) : Except RatesFileError (List (Yaml × Yaml)) :=
  match table, parts? table with
  | .mapping entries, _ => .ok entries
  | _, none => .error .tableIsNoMapping
  | _, some items =>
    (pairItems 0 items).map fun entries =>
      entries.foldl (fun table entry => Yaml.setEntry table entry.1 entry.2) []

/-- The bytes of a currency code without blanks around them and with capital
letters. -/
def byteCode (content : List UInt8) : List UInt8 :=
  let isBlank := fun byte : UInt8 => byte == 0x20 || (0x09 ≤ byte && byte ≤ 0x0D)
  let body := ((content.dropWhile isBlank).reverse.dropWhile isBlank).reverse
  body.map fun byte => if 0x61 ≤ byte && byte ≤ 0x7A then byte - 0x20 else byte

/-- The code of a base currency in its usual form, if it is a text or the bytes
of one. -/
def baseCode? : Yaml → Option Yaml
  | .string code => some (.string (Currency.normalize code))
  | .broken points => some (.broken points)
  | .bytes content => some (.bytes (byteCode content))
  | _ => none

def ofBaseYaml (base table : Yaml) : Except RatesFileError Snapshot :=
  if base.isFalsy then .error .noBase
  else
    match baseCode? base with
    | some code => do
      let row ← tableEntries table
      (ofYaml code (.mapping [(code, .mapping row)])).mapError .invalid
    | none => .error .baseIsNoText

def ofEntries (path : Text) (entries : List (Yaml × Yaml)) :
    Except RatesFileError Snapshot :=
  let base := (Yaml.entry? entries "base_currency").getD .null
  match Yaml.entry? entries "rates", Yaml.entry? entries "pairs" with
  | none, none => .error (.noSection path)
  | some table, _ => ofBaseYaml base table
  | none, some pairs => (ofYaml base pairs).mapError .invalid

def ofFile (path text : Text) : Except RatesFileError Snapshot :=
  match Yaml.ofText text with
  | .error error => .error (.notYaml error)
  | .ok document =>
    match document.entriesOfDocument? with
    | none => .error (.notAMapping path)
    | some entries => ofEntries path entries

end Snapshot

end CurrencyPad
