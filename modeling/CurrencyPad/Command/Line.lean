import CurrencyPad.Command.Run

/-!
# Command lines

A whole command line: options of the program, the name of a command, and its
words.
-/

namespace CurrencyPad.CommandLine

open Command

variable {m : Type → Type} [Monad m] [Host m]

/-- What the words before the name of a command say. -/
inductive Opening where
  /-- They ask for a text that is told at once. -/
  | told (text : Text)
  /-- A path of a configuration, if one is given, and the words from the command
  on. -/
  | command (config : Option Text) (words : List Text)

def options : List OptionForm :=
  [⟨"--version", false⟩, ⟨"--config", true⟩, ⟨"--help", false⟩]

def told? (option : Text) : Option Text :=
  if option = "--version".toList then some versionText
  else if option = "--help".toList then some helpText
  else none

def sortWords (forms : List OptionForm) (mixed : Bool) (words : List Text) :
    ExceptT CommandFailure m Words :=
  liftExcept ((Words.ofTexts forms mixed words).mapError CommandFailure.usage)

def isThere (path : Text) : ExceptT CommandFailure m Bool := do
  match ← look path with
  | .nothing => return false
  | .tooLong => return false
  | _ => return true

def opening (words : List Text) : ExceptT CommandFailure m Opening := do
  let words ← sortWords options false words
  match words.options.names.findSome? told? with
  | some text => return .told text
  | none =>
    match words.value? "--config" with
    | none => return .command none words.arguments
    | some path =>
      let present ← [path].filterM isThere
      match
        Parameter.ofWord (.option 0) "--config" (Parameter.path present) path
      with
      | .ok path => return .command (some path) words.arguments
      | .error (_, error) => throw (.ofUsage error)

/-- Fails because a word names no command. A word that is an option is taken for
one of the program. -/
def refuseName (name : Text) (words : List Text) :
    ExceptT CommandFailure m Text := do
  if Words.isOption name then
    match ← opening (name :: words) with
    | .told text => return text
    | .command _ _ => throw (.usage (Name.unknown name))
  else throw (.usage (Name.unknown name))

def runNamed (config : Config) (name : Name) (words : List Text) :
    ExceptT CommandFailure m Text := do
  let words ← sortWords name.options true words
  if words.has "--help" then return name.helpText
  let present ← words.values.filterM isThere
  match ofWords present words name with
  | .ok command => command.run config
  | .error (_, error) => throw (.ofUsage error)

/-- Loads a configuration, by default from the working directory, and opens its
log. -/
def configure (path : Option Text) : ExceptT CommandFailure m Config := do
  let path ←
    match path with
    | some path => pure path
    | none => (Host.workingDirectory : m Text)
  let config ← loadConfig path
  match config.logDirectory with
  | some (c :: directory) => openLog (c :: directory)
  | _ => pure ()
  return config

def runWords (words : List Text) : ExceptT CommandFailure m Text := do
  if words.isEmpty then throw .noWords
  match ← opening words with
  | .told text => return text
  | .command _ [] => throw (.usage .missingCommand)
  | .command config (word :: rest) =>
    match Name.ofWord? word with
    | none => refuseName word rest
    | some name => do runNamed (← configure config) name rest

/-- Runs a command line. The result is the output, which has no control
sequences, or why there is none. -/
def run (words : List Text) : ExceptT CommandFailure m Text := do
  return Text.dropControls (← runWords words)

end CurrencyPad.CommandLine
