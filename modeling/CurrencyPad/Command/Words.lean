import CurrencyPad.Binary64.Text
import CurrencyPad.Command.Usage
import CurrencyPad.Text.Integer
import CurrencyPad.Text.Similar
import CurrencyPad.Text.Table

/-!
# Words of a command line

The words after a command are options, which start with a minus sign, their
values, and arguments. First the words are sorted; then every parameter is read.
Of several faults in the parameters the one is told that comes first: options in
the order in which they are given, then arguments, then options that are
missing.
-/

namespace CurrencyPad

structure OptionForm where
  name : String
  takesValue : Bool

structure Words where
  /-- The options in the order of their first occurrence, each with the value
  that was given last; options that take no value have none. -/
  options : Table (Option Text)
  arguments : List Text

namespace Words

def none : Words :=
  ⟨[], []⟩

def addOption (words : Words) (name : Text) (value : Option Text) : Words :=
  { words with options := words.options.set name value }

def addArguments (words : Words) (more : List Text) : Words :=
  { words with arguments := words.arguments ++ more }

/-- A word that starts an option: it has a minus sign in front and more after
it. -/
def isOption (word : Text) : Bool :=
  word.head? = some '-' && 1 < word.length

/-- The name of an option in a word that may also hold its value. -/
def optionName (word : Text) : Text :=
  word.takeWhile (· != '=')

/-- The value that a word holds together with the name of its option. -/
def attachedValue? (word : Text) : Option Text :=
  if word.contains '=' then some ((word.dropWhile (· != '=')).drop 1)
  else Option.none

/-- Why a word is no option. With a single minus sign its name has one letter;
with two the options that are close to it are told. -/
def unknownOption (forms : List OptionForm) (word : Text) : UsageError :=
  if word.take 2 = ['-', '-'] then
    let name := optionName word
    .noSuchOption name (Text.closest (forms.map (·.name.toList)) name)
  else .noSuchOption (word.take 2) []

/-- Sorts words. After `--` all words are arguments; where options and arguments
do not mix, so are all words from the first argument on. -/
def sortInto (forms : List OptionForm) (mixed : Bool) (found : Words) :
    List Text → Except UsageError Words
  | [] => .ok found
  | word :: rest =>
    if word = ['-', '-'] then .ok (found.addArguments rest)
    else if isOption word then
      let name := optionName word
      match forms.find? (·.name.toList == name) with
      | Option.none => .error (unknownOption forms word)
      | some form =>
        match form.takesValue, attachedValue? word, rest with
        | false, Option.none, rest =>
          sortInto forms mixed (found.addOption name Option.none) rest
        | false, some _, _ => .error (.valueUnexpected name)
        | true, some value, rest =>
          sortInto forms mixed (found.addOption name (some value)) rest
        | true, Option.none, value :: rest =>
          sortInto forms mixed (found.addOption name (some value)) rest
        | true, Option.none, [] => .error (.valueExpected name)
    else if mixed then sortInto forms mixed (found.addArguments [word]) rest
    else .ok (found.addArguments (word :: rest))

def ofTexts (forms : List OptionForm) (mixed : Bool) (texts : List Text) :
    Except UsageError Words :=
  sortInto forms mixed none texts

def has (words : Words) (name : String) : Bool :=
  (words.options.get? name.toList).isSome

def value? (words : Words) (name : String) : Option Text :=
  (words.options.get? name.toList).join

def values (words : Words) : List Text :=
  words.options.filterMap (·.2) ++ words.arguments

end Words

/-- Where a parameter stands in the order in which faults are told. -/
inductive ParameterPlace where
  | option (index : Nat)
  | argument (index : Nat)
  | missing (index : Nat)
  | surplus
deriving DecidableEq, Repr

namespace ParameterPlace

/-- The place as a pair of numbers, of which the first counts more. -/
def rank : ParameterPlace → Nat × Nat
  | .option index => (0, index)
  | .argument index => (1, index)
  | .missing index => (2, index)
  | .surplus => (3, 0)

/-- Whether a fault at one place is told before a fault at another. -/
def before (left right : ParameterPlace) : Bool :=
  left.rank.1 < right.rank.1 ||
    (left.rank.1 = right.rank.1 && left.rank.2 < right.rank.2)

end ParameterPlace

/-- What was read from parameters, or the fault that is told. -/
abbrev Parameter (α : Type) := Except (ParameterPlace × UsageError) α

namespace Parameter

/-- Applies what was read from some parameters to what was read from another
one. -/
def apply {α β : Type} : Parameter (α → β) → Parameter α → Parameter β
  | .ok function, .ok argument => .ok (function argument)
  | .ok _, .error fault => .error fault
  | .error fault, .ok _ => .error fault
  | .error fault, .error other =>
    .error (if other.1.before fault.1 then other else fault)

def ofWord {α : Type} (place : ParameterPlace) (name : String)
    (read : Text → Except ValueFault α) (word : Text) : Parameter α :=
  (read word).mapError fun fault => (place, .invalidValue name fault)

def argument {α : Type} (words : Words) (index : Nat) (name : String)
    (read : Text → Except ValueFault α) : Parameter α :=
  match words.arguments[index]? with
  | some word => ofWord (.argument index) name read word
  | none => .error (.argument index, .missingArgument name)

/-- The value of an option, or a default where it is not given. -/
def option {α : Type} (words : Words) (name : String) (default : α)
    (read : Text → Except ValueFault α) : Parameter α :=
  match words.value? name with
  | some word =>
    ofWord (.option (words.options.names.idxOf name.toList)) name read word
  | none => .ok default

/-- The value of an option that must be given; the index is its position among
such options. -/
def needed {α : Type} (words : Words) (index : Nat) (name : String)
    (read : Text → Except ValueFault α) : Parameter α :=
  match words.value? name with
  | some word =>
    ofWord (.option (words.options.names.idxOf name.toList)) name read word
  | none => .error (.missing index, .missingOption name)

/-- Checks that there are no more arguments than a command takes. -/
def closed {α : Type} (words : Words) (count : Nat) (parameter : Parameter α) :
    Parameter α :=
  match parameter, words.arguments.drop count with
  | .ok value, [] => .ok value
  | .ok _, more => .error (.surplus, .unexpectedWords more)
  | .error fault, _ => .error fault

def text (word : Text) : Except ValueFault Text :=
  .ok word

def number (word : Text) : Except ValueFault Float :=
  match Binary64.read? word with
  | some value => .ok value
  | none => .error (.notANumber word)

def wholeNumber (word : Text) : Except ValueFault Int :=
  match Integer.read? word with
  | some value => .ok value
  | none => .error (.notAWholeNumber word)

def path (present : List Text) (word : Text) : Except ValueFault Text :=
  if word.contains '\x00' then .error .zeroInPath
  else if present.contains word then .ok word
  else .error (.noSuchPath word)

def choice (choices : List String) (word : Text) : Except ValueFault Text :=
  if (choices.map String.toList).contains word then .ok word
  else .error (.noSuchChoice word choices)

end Parameter

end CurrencyPad
