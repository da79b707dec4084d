import CurrencyPad.Config.Check
import CurrencyPad.Yaml.Document

/-!
# Loading a configuration

A configuration file holds a mapping of settings, which replace the settings
that hold otherwise. A missing or empty file changes nothing. Unknown settings
are reported together, before any value is looked at.
-/

namespace CurrencyPad

inductive ConfigFileError where
  /-- The text is no YAML document, or holds scalars without a value. -/
  | notYaml (error : YamlError)
  | notAMapping (path : Text)
  | unknownKeys (path : Text) (keys : List Yaml)
  /-- There are unknown keys that have no order among them. -/
  | unorderedKeys
  | invalid (error : ValidationError)

namespace ConfigFileError

def message : ConfigFileError → String
  | .notYaml error => error.message
  | .notAMapping path =>
    String.ofList path ++ ": expected a mapping at the top level"
  | .unknownKeys path keys =>
    "Unknown config keys in " ++ String.ofList path ++ ": " ++
      String.ofList (Yaml.shownKeys keys)
  | .unorderedKeys => "the unknown keys are of different kinds"
  | .invalid error => error.headline

/-- Whether an error is about what the file says, so that it is told to the user
as it is. -/
def isAboutContent : ConfigFileError → Bool
  | .notYaml error => error.isAboutValue
  | .unorderedKeys => false
  | _ => true

end ConfigFileError

namespace Yaml

/-- The entries of a document's mapping; a document that stands for nothing has
none. -/
def entriesOfDocument? : Yaml → Option (List (Yaml × Yaml))
  | .null => some []
  | .mapping entries => some entries
  | _ => none

end Yaml

namespace Config

def defaultFields : Fields :=
  [ ("decimal_separator", .string ['.']), ("grouping_separator", .string [',']),
    ("shorten_threshold", .integer 10000), ("fiat_decimals", .integer 2),
    ("crypto_decimals", .integer 9), ("number_max_fraction_digits", .integer 12),
    ("log_dir", .null), ("logging_fsync", .boolean false) ].map
    fun field : String × Datum => (field.1.toList, field.2)

def isSetting (key : Yaml) : Bool :=
  fieldNames.any fun name => key.sameKey (.string name.toList)

def settingFields (entries : List (Yaml × Yaml)) : Fields :=
  entries.filterMap fun entry =>
    match entry.1 with
    | .string name => some (name, entry.2.datum)
    | _ => none

/-- The fields that hold once the settings of a file replace others. Without a
grouping separator of its own, a file with a decimal comma groups with
points. -/
def mergeFields (settings : Fields) : Fields :=
  let merged : Fields :=
    settings.foldl (fun fields field => Table.set fields field.1 field.2)
      defaultFields
  match settings.get? "grouping_separator", merged.get? "decimal_separator" with
  | none, some (.string [',']) =>
    Table.set merged "grouping_separator".toList (.string ['.'])
  | _, _ => merged

def ofEntries (path : Text) (entries : List (Yaml × Yaml)) :
    Except ConfigFileError Config :=
  let unknown := (entries.map (·.1)).filter fun key => !isSetting key
  if unknown.isEmpty then
    (ofFields (mergeFields (settingFields entries))).mapError .invalid
  else
    match Yaml.sortKeys? unknown with
    | some keys => .error (.unknownKeys path keys)
    | none => .error .unorderedKeys

def ofFile (path text : Text) : Except ConfigFileError Config :=
  match Yaml.ofText text with
  | .error error => .error (.notYaml error)
  | .ok document =>
    match document.entriesOfDocument? with
    | none => .error (.notAMapping path)
    | some entries => ofEntries path entries

def load (path : Text) (text : Option Text) : Except ConfigFileError Config :=
  match text with
  | none => (ofFields defaultFields).mapError .invalid
  | some text => ofFile path text

def fileName : String := "amountpad.yaml"

end Config

end CurrencyPad
