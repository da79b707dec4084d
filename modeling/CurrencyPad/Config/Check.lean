import CurrencyPad.Config.Basic
import CurrencyPad.Validation.Datum

/-!
# Checking a configuration

A configuration is made from named fields. Each field has a type and limits of
its own, and unknown fields are refused. A grouping separator that is not given
is a point where the decimal separator is a comma. The separators are checked
together once all fields are sound.
-/

namespace CurrencyPad.Config

def fieldNames : List String :=
  [ "decimal_separator", "grouping_separator", "shorten_threshold",
    "fiat_decimals", "crypto_decimals", "number_max_fraction_digits", "log_dir",
    "logging_fsync" ]

def places (limit : Nat) (datum : Datum) :
    Except FieldFault { n : Nat // n ≤ limit } :=
  match datum.asInteger with
  | .error fault => .error fault
  | .ok value =>
    if value < 0 then .error .greaterThanEqual
    else if bound : value.toNat ≤ limit then .ok ⟨value.toNat, bound⟩
    else .error .lessThanEqual

def threshold (datum : Datum) : Except FieldFault { x : Float // 0 < x } :=
  match datum.asFloat with
  | .error fault => .error fault
  | .ok value =>
    if positive : 0 < value then .ok ⟨value, positive⟩ else .error .greaterThan

/-- The grouping separator that goes with a decimal separator where none is
given. -/
def groupingFor (decimal : Option Datum) : Text :=
  match decimal with
  | some (.string [',']) => ['.']
  | _ => [',']

def extraFields (fields : Fields) : List FieldError :=
  (fields.filter fun field =>
    !(fieldNames.map String.toList).contains field.1).map
      fun field => ⟨[field.1], .extraForbidden⟩

/-- The configuration with sound fields, if its separators go together. -/
def assemble (decimal grouping : Text) (threshold : { x : Float // 0 < x })
    (fiat : { n : Nat // n ≤ 12 }) (crypto result : { n : Nat // n ≤ 18 })
    (directory : Option Text) (sync : Bool) : Except LocaleError Config :=
  (Locale.ofTexts decimal grouping).map fun locale =>
    { locale
      shortenThreshold := threshold.val
      fiatDecimals := fiat.val
      cryptoDecimals := crypto.val
      resultDecimals := result.val
      logDirectory := directory
      logSync := sync
      thresholdPositive := threshold.property
      fiatDecimalsBound := fiat.property
      cryptoDecimalsBound := crypto.property
      resultDecimalsBound := result.property }

def checkFields (fields : Fields) : Checked (Except LocaleError Config) :=
  let checked : Checked _ := .ok assemble
  let checked :=
    checked.apply (fields.optional "decimal_separator" ['.'] Datum.asText)
  let checked := checked.apply
    (fields.optional "grouping_separator"
      (groupingFor (fields.get? "decimal_separator")) Datum.asText)
  let checked := checked.apply
    (fields.optional "shorten_threshold" ⟨_, Config.default.thresholdPositive⟩
      threshold)
  let checked := checked.apply
    (fields.optional "fiat_decimals" ⟨_, Config.default.fiatDecimalsBound⟩
      (places 12))
  let checked := checked.apply
    (fields.optional "crypto_decimals" ⟨_, Config.default.cryptoDecimalsBound⟩
      (places 18))
  let checked := checked.apply
    (fields.optional "number_max_fraction_digits"
      ⟨_, Config.default.resultDecimalsBound⟩
      (places 18))
  let checked :=
    checked.apply (fields.optional "log_dir" none Datum.asOptionalText)
  checked.apply (fields.optional "logging_fsync" false Datum.asBoolean)

/-- The faults of unknown fields beside those of the known ones. -/
def refuseExtra {α : Type} (extra : List FieldError) (checked : Checked α) :
    Checked α :=
  match checked, extra with
  | .ok value, [] => .ok value
  | .ok _, errors => .error errors
  | .error errors, more => .error (errors ++ more)

def ofFields (fields : Fields) : Except ValidationError Config :=
  Checked.report "PadConfig"
    (match refuseExtra (extraFields fields) (checkFields fields) with
    | .error errors => .error errors
    | .ok (.ok config) => .ok config
    | .ok (.error error) => .error [⟨[], .value error.message⟩])

end CurrencyPad.Config
