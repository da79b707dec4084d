import CurrencyPad.Expression.Edit
import CurrencyPad.Money.Amount
import CurrencyPad.Validation.Datum

/-!
# Events of the pad

What a user does on the pad: keys, a choice of another currency, and the amount
that the pad starts with. An event is read from a record whose kind tells which
fields it has.
-/

namespace CurrencyPad

inductive Event where
  | backspace
  | separator
  | operator (key : Operator)
  | digit (key : Digit)
  | clear
  | equals
  /-- Another currency is chosen; its code is in normal form. -/
  | currency (code : Text)
  /-- The pad starts with an amount, or with none. -/
  | initial (value : Option Money)

namespace Money

def finiteAmount (datum : Datum) : Except FieldFault Binary64.Finite :=
  match datum.asFloat with
  | .error fault => .error fault
  | .ok x =>
    match Binary64.Finite.ofFloat? x with
    | some amount => .ok amount
    | none => .error (.value "amount must be a finite number")

def ofFields (fields : Fields) : Checked Money :=
  let checked : Checked _ := .ok Money.of
  let checked := checked.apply (fields.required "amount" finiteAmount)
  checked.apply (fields.required "currency" Datum.asText)

end Money

namespace Event

def kind : Event → String
  | .backspace => "backspace"
  | .separator => "decimal_separator"
  | .operator _ => "operator"
  | .digit _ => "number"
  | .clear => "clear"
  | .equals => "equals"
  | .currency _ => "currency_change"
  | .initial _ => "initial"

def chooseCurrency (code : Text) : Event :=
  .currency (Currency.normalize code)

def operatorField (datum : Datum) : Except FieldFault Operator :=
  match datum.asText with
  | .error fault => .error fault
  | .ok spelling =>
    (Operator.ofText spelling).mapError fun error => .value error.message

def digitField (datum : Datum) : Except FieldFault Digit :=
  match datum.asText with
  | .error fault => .error fault
  | .ok text => (Digit.ofText text).mapError fun error => .value error.message

def initialField (fields : List (Text × Json)) : Checked (Option Money) :=
  match Table.get? fields "value".toList with
  | none => .ok none
  | some .null => .ok none
  | some value =>
    match value.fields? with
    | some money =>
      ((Money.ofFields (.ofRecord money)).inside "value".toList).map some
    | none => Checked.fail "value" .modelType

/-- The event of a kind with the given fields; none if there is no such kind. -/
def ofKind? (kind : Text) (fields : List (Text × Json)) :
    Option (Checked Event) :=
  if kind = "backspace".toList then some (.ok .backspace)
  else if kind = "decimal_separator".toList then some (.ok .separator)
  else if kind = "operator".toList then
    some (((Fields.ofRecord fields).required "operator" operatorField).map
      .operator)
  else if kind = "number".toList then
    some (((Fields.ofRecord fields).required "digit" digitField).map .digit)
  else if kind = "clear".toList then some (.ok .clear)
  else if kind = "equals".toList then some (.ok .equals)
  else if kind = "currency_change".toList then
    some (((Fields.ofRecord fields).required "currency" Datum.asText).map
      chooseCurrency)
  else if kind = "initial".toList then some ((initialField fields).map .initial)
  else none

def ofRecord (fields : List (Text × Json)) : Checked Event :=
  match Table.get? fields "kind".toList with
  | none => .error [⟨[], .unionTagNotFound⟩]
  | some (.string kind) =>
    match ofKind? kind fields with
    | some event => event.inside kind
    | none => .error [⟨[], .unionTagInvalid⟩]
  | some _ => .error [⟨[], .unionTagInvalid⟩]

/-- The event that a JSON value describes, which must be a record. -/
def ofJson (value : Json) : Checked Event :=
  match value.fields? with
  | some fields => ofRecord fields
  | none => .error [⟨[], .modelAttributesType⟩]

end Event

end CurrencyPad
