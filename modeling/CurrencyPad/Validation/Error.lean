import CurrencyPad.Text.Basic

/-!
# Validation errors

A record that is read from outside is checked field by field. Every fault is
reported with the place of the field and its cause; faults are listed in the
order of place and cause.
-/

namespace CurrencyPad

/-- What is wrong with a field, or with a record as a whole. -/
inductive FieldFault where
  | missing
  | extraForbidden
  | stringType
  /-- A string holds what is no character. -/
  | stringUnicode
  | dictType
  | modelType
  /-- There is no record in which fields could be looked up. -/
  | modelAttributesType
  | floatType
  | intType
  | boolType
  | floatParsing
  | intParsing
  | intParsingSize
  | boolParsing
  | intFromFloat
  | finiteNumber
  | enumeration
  | greaterThan
  | greaterThanEqual
  | lessThanEqual
  | unionTagNotFound
  | unionTagInvalid
  /-- The value breaks a rule of its own, which the reason states. -/
  | value (reason : String)
deriving DecidableEq, Repr

namespace FieldFault

def code : FieldFault → String
  | .missing => "missing"
  | .extraForbidden => "extra_forbidden"
  | .stringType => "string_type"
  | .stringUnicode => "string_unicode"
  | .dictType => "dict_type"
  | .modelType => "model_type"
  | .modelAttributesType => "model_attributes_type"
  | .floatType => "float_type"
  | .intType => "int_type"
  | .boolType => "bool_type"
  | .floatParsing => "float_parsing"
  | .intParsing => "int_parsing"
  | .intParsingSize => "int_parsing_size"
  | .boolParsing => "bool_parsing"
  | .intFromFloat => "int_from_float"
  | .finiteNumber => "finite_number"
  | .enumeration => "enum"
  | .greaterThan => "greater_than"
  | .greaterThanEqual => "greater_than_equal"
  | .lessThanEqual => "less_than_equal"
  | .unionTagNotFound => "union_tag_not_found"
  | .unionTagInvalid => "union_tag_invalid"
  | .value _ => "value_error"

/-- The wording of a broken rule; other faults are told by their names alone. -/
def message? : FieldFault → Option String
  | .value reason => some ("Value error, " ++ reason)
  | _ => none

end FieldFault

/-- A fault and the names that lead to its field from the outside in; none for a
whole record. -/
structure FieldError where
  location : List Text
  fault : FieldFault
deriving DecidableEq, Repr

namespace FieldError

/-- The place of the fault: the names joined by points. -/
def path (error : FieldError) : Text :=
  Text.join ['.'] error.location

def le (left right : FieldError) : Bool :=
  if left.path = right.path then
    Text.le left.fault.code.toList right.fault.code.toList
  else Text.le left.path right.path

/-- The same fault seen from a record that holds the checked one under a name. -/
def inside (name : Text) (error : FieldError) : FieldError :=
  { error with location := name :: error.location }

end FieldError

/-- A value, or all faults that were found. -/
abbrev Checked (α : Type) := Except (List FieldError) α

namespace Checked

/-- A single fault of the field with the given name. -/
def fail {α : Type} (name : String) (fault : FieldFault) : Checked α :=
  .error [⟨[name.toList], fault⟩]

/-- Applies a checked function to a checked argument; the faults of both are
kept. -/
def apply {α β : Type} : Checked (α → β) → Checked α → Checked β
  | .ok function, .ok argument => .ok (function argument)
  | .ok _, .error errors => .error errors
  | .error errors, .ok _ => .error errors
  | .error errors, .error more => .error (errors ++ more)

/-- The values of checks that all succeed, or the faults of all that do not. -/
def collect {α : Type} : List (Checked α) → Checked (List α)
  | [] => .ok []
  | first :: rest => apply (apply (.ok List.cons) first) (collect rest)

/-- Places the faults of a nested record under the name of its field. -/
def inside {α : Type} (name : Text) (checked : Checked α) : Checked α :=
  checked.mapError fun errors => errors.map (FieldError.inside name)

end Checked

structure ValidationError where
  /-- The kind of the record. -/
  title : String
  errors : List FieldError
deriving DecidableEq, Repr

namespace ValidationError

/-- The first line of the report: how many faults there are in what kind of
record. -/
def headline (error : ValidationError) : String :=
  let count := error.errors.length
  toString count ++
    (if count = 1 then " validation error for " else " validation errors for ") ++
    error.title

end ValidationError

namespace Checked

/-- The outcome of checking a record of the given kind, with its faults in
order. -/
def report {α : Type} (title : String) (checked : Checked α) :
    Except ValidationError α :=
  checked.mapError fun errors => ⟨title, errors.mergeSort FieldError.le⟩

end Checked

end CurrencyPad
