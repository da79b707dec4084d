import CurrencyPad.Pad.Keys
import CurrencyPad.Text.Quoted

/-!
# Wrong usage

What can be wrong with the words of a command line.
-/

namespace CurrencyPad

/-- Why a word is no value for its place. -/
inductive ValueFault where
  | notANumber (word : Text)
  | notAWholeNumber (word : Text)
  | noSuchPath (word : Text)
  /-- A path holds the character with code point zero. -/
  | zeroInPath
  | noSuchChoice (word : Text) (choices : List String)
deriving Repr

namespace ValueFault

def message : ValueFault → String
  | .notANumber word =>
    String.ofList (Text.quoted word) ++ " is not a valid float."
  | .notAWholeNumber word =>
    String.ofList (Text.quoted word) ++ " is not a valid integer."
  | .noSuchPath word =>
    "Path " ++ String.ofList (Text.quoted word) ++ " does not exist."
  | .zeroInPath => "embedded null byte"
  | .noSuchChoice word choices =>
    String.ofList (Text.quoted word) ++ " is not one of " ++
      ", ".intercalate (choices.map fun choice => "'" ++ choice ++ "'") ++ "."

end ValueFault

inductive UsageError where
  /-- There is no such option; the words that may be meant are told too. -/
  | noSuchOption (name : Text) (close : List Text)
  | noSuchCommand (name : Text) (close : List Text)
  /-- There are options but no command. -/
  | missingCommand
  | missingArgument (name : String)
  | missingOption (name : String)
  | valueExpected (option : Text)
  | valueUnexpected (option : Text)
  | unexpectedWords (words : List Text)
  | invalidValue (parameter : String) (fault : ValueFault)
  | unknownKey (error : Keys.UnknownKey)
deriving Repr

namespace UsageError

/-- The question whether one of some words is meant. -/
def proposal (close : List Text) : String :=
  match close.map fun word => String.ofList (Text.quoted word) with
  | [] => ""
  | [word] => " Did you mean " ++ word ++ "?"
  | words => " (Did you mean one of: " ++ ", ".intercalate words ++ "?)"

def message : UsageError → String
  | .noSuchOption name close =>
    "No such option " ++ String.ofList (Text.quoted name) ++ "." ++ proposal close
  | .noSuchCommand name close =>
    "No such command " ++ String.ofList (Text.quoted name) ++ "." ++
      proposal close
  | .missingCommand => "Missing command."
  | .missingArgument name => "Missing argument '" ++ name ++ "'."
  | .missingOption name => "Missing option '" ++ name ++ "'."
  | .valueExpected option =>
    "Option " ++ String.ofList (Text.quoted option) ++ " requires an argument."
  | .valueUnexpected option =>
    "Option " ++ String.ofList (Text.quoted option) ++ " does not take a value."
  | .unexpectedWords words =>
    "Got unexpected extra argument" ++
      (if words.length = 1 then " (" else "s (") ++
      " ".intercalate (words.map String.ofList) ++ ")"
  | .invalidValue parameter fault =>
    "Invalid value for '" ++ parameter ++ "': " ++ fault.message
  | .unknownKey error => error.message

end UsageError

end CurrencyPad
