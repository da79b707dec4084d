import CurrencyPad.Command.Line
import CurrencyPad.Journal.Time
import CurrencyPad.Text.Quoted
import Std.Time.DateTime.Timestamp

/-!
# The program

The command line on the files and the clock of the computer.
-/

namespace CurrencyPad.Program

/-- What is found under a path. What is no directory and cannot be read counts
as nothing. -/
def look (path : String) : IO PathEntry := do
  let place := (← IO.currentDir) / path
  if path.isEmpty then return .nothing
  else if ← place.isDir then return .directory
  else
    try
      return .file (← IO.FS.readBinFile place).toList
    catch _ => return .nothing

/-- Makes a directory with those that lead to it. What cannot be made is taken
to have a file in its place. -/
def makeDirectory (path : String) : IO (Except DirectoryFault Unit) := do
  try
    IO.FS.createDirAll path
    return .ok ()
  catch _ => return .error .fileInPlace

/-- Adds bytes to the end of a file, and tells whether that was possible. -/
def append (path : String) (content : Bytes) (atOnce : Bool) : IO Bool := do
  try
    let handle ← IO.FS.Handle.mk path .append
    handle.write ⟨content.toArray⟩
    if atOnce then handle.flush
    return true
  catch _ => return false

/-- The microseconds since the first of January 1970. -/
def microseconds : IO Nat := do
  let now ← Std.Time.Timestamp.now
  return (now.toNanosecondsSinceUnixEpoch.val / 1000).toNat

/-- Twelve hexadecimal digits by chance. -/
def freshName : IO Text := do
  return Text.hexDigits 12 (← IO.rand 0 0xFFFFFFFFFFFF)

instance : Host IO where
  workingDirectory := do return (← IO.currentDir).toString.toList
  look path := look (String.ofList path)
  makeDirectory path := makeDirectory (String.ofList path)
  append path content atOnce := append (String.ofList path) content atOnce
  now := do return Time.text (← microseconds)
  freshName := freshName

/-- What is told of a fault that a command does not expect. -/
def breakdownText : Breakdown → String
  | .config error => error.message
  | .rates error => error.message
  | .records fault => fault.message
  | .money error => error.headline
  | .directoryForFile path => String.ofList path ++ " is not a file"
  | .noDirectory path _ => String.ofList path ++ " is not a directory"
  | .zeroInPath => "a path holds a character with code point zero"

def failureText (failure : CommandFailure) : String :=
  match failure.message?, failure with
  | some message, _ => "Error: " ++ String.ofList message
  | none, .broken breakdown => breakdownText breakdown
  | none, _ => String.ofList Command.helpText

end CurrencyPad.Program

def main (words : List String) : IO UInt32 := do
  let outcome ← (CurrencyPad.CommandLine.run (words.map String.toList) :
    ExceptT CurrencyPad.CommandFailure IO CurrencyPad.Text).run
  match outcome with
  | .ok output =>
    IO.print (String.ofList output)
    return 0
  | .error failure =>
    IO.eprintln (CurrencyPad.Program.failureText failure)
    return failure.status.toUInt32
