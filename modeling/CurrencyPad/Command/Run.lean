import CurrencyPad.Command.Basic
import CurrencyPad.Command.Host
import CurrencyPad.Config.Load
import CurrencyPad.Exchange.Load
import CurrencyPad.Journal.Basic
import CurrencyPad.Journal.Summary
import CurrencyPad.Pad.Engine.Settle
import CurrencyPad.Text.Control
import CurrencyPad.Text.Path

/-!
# Running commands

A command line is run in three steps: the words before the command are read, the
configuration is loaded and its log opened, and then the words of the command
are read and the command is run.
-/

namespace CurrencyPad

inductive Breakdown where
  | config (error : ConfigFileError)
  | rates (error : RatesFileError)
  | records (fault : Records.Fault)
  | money (error : ValidationError)
  /-- There is a directory where a file is read. -/
  | directoryForFile (path : Text)
  | noDirectory (path : Text) (fault : DirectoryFault)
  /-- A path that is given holds the character with code point zero. -/
  | zeroInPath

inductive CommandFailure where
  | usage (error : UsageError)
  /-- There are no words at all. -/
  | noWords
  /-- The command cannot do what it is asked for. -/
  | refused (reason : String)
  | broken (breakdown : Breakdown)

namespace CommandFailure

def ofUsage (error : UsageError) : CommandFailure :=
  match error with
  | .invalidValue _ .zeroInPath => .broken .zeroInPath
  | error => .usage error

def status : CommandFailure → UInt8
  | .usage _ => 2
  | .noWords => 2
  | .refused _ => 1
  | .broken _ => 1

/-- The wording of the faults that are told to the user, without control
sequences. -/
def message? (failure : CommandFailure) : Option Text :=
  match failure with
  | .usage error => some (Text.dropControls error.message.toList)
  | .refused reason => some (Text.dropControls reason.toList)
  | _ => none

end CommandFailure

namespace Command

def programName : String := "amountpad"

def versionText : Text :=
  (programName ++ ", version 0.3.0\n").toList

def helpText : Text :=
  (("Usage: " ++ programName ++ " [--version] [--config PATH] COMMAND ...\n") ++
    String.join (Name.all.map fun name =>
      "  " ++ name.word ++ " " ++ name.usage ++ "\n")).toList

def Name.helpText (name : Name) : Text :=
  ("Usage: " ++ programName ++ " " ++ name.word ++ " " ++ name.usage ++
    "\n").toList

def line (text : Text) : Text :=
  text ++ ['\n']

def runEvaluate (config : Config) (expression : Text) :
    Except CommandFailure Text :=
  match Expression.evaluate config.locale expression with
  | .error error => .error (.refused error.message)
  | .ok value =>
    .ok (line (Number.groupedText config.locale config.resultDecimals
      value.value))

def money (amount : Float) (code : Text) : Except ValidationError Money :=
  Checked.report "MonetaryValue"
    (Money.ofFields [("amount".toList, .real amount),
      ("currency".toList, .string code)])

def displayLine (config : Config) (short : Bool) (amount : Money) : Text :=
  line (Money.format config short amount).display

def runFormat (config : Config) (amount : Float) (code : Text) (short : Bool) :
    Except CommandFailure Text :=
  match money amount code with
  | .ok amount => .ok (displayLine config short amount)
  | .error error => .error (.refused error.headline)

def runConvert (config : Config) (rates : Snapshot) (amount : Float)
    (source target : Text) (short : Bool) : Except CommandFailure Text :=
  match rates.convert source target amount with
  | .ok converted => .ok (displayLine config short (Money.of converted target))
  | .error error => .error (.refused error.message)

variable {m : Type → Type} [Monad m] [Host m]

def look (path : Text) : ExceptT CommandFailure m PathEntry :=
  liftM (n := ExceptT CommandFailure m) (Host.look path : m PathEntry)

/-- The configuration of a file, or of a file with the usual name in a
directory. -/
def loadConfig (path : Text) : ExceptT CommandFailure m Config := do
  let file :=
    match ← look path with
    | .directory => Path.below path Config.fileName.toList
    | _ => Path.plain path
  let text ←
    match ← look file with
    | .nothing => pure none
    | .file content => pure (some (Text.ofBytes content))
    | .directory => throw (.broken (.directoryForFile file))
    | .tooLong => pure none
  match Config.load file text with
  | .ok config => return config
  | .error error =>
    throw
      (if error.isAboutContent then .refused error.message
        else .broken (.config error))

def loadRates (path : Text) : ExceptT CommandFailure m Snapshot := do
  let file := Path.plain path
  match ← look file with
  | .file content =>
    match Snapshot.ofFile file (Text.ofBytes content) with
    | .ok rates => return rates
    | .error error =>
      throw
        (if error.isAboutContent then .refused error.message
          else .broken (.rates error))
  | _ => throw (.broken (.directoryForFile file))

def openLog (directory : Text) : ExceptT CommandFailure m Unit := do
  for path in
      [Path.plain directory, Path.below directory Journal.sessionDirectory] do
    match ← (Host.makeDirectory path : m (Except DirectoryFault Unit)) with
    | .ok () => pure ()
    | .error fault => throw (.broken (.noDirectory path fault))

/-- Adds bytes to the end of several files, up to the first that cannot be
written. -/
def appendAll (content : Bytes) (sync : Bool) : List Text → m Unit
  | [] => pure ()
  | path :: rest => do
    if ← Host.append path content sync then appendAll content sync rest

def record (directory session : Text) (sync : Bool) (notice : Notice) :
    m Unit := do
  let event := (notice.stamped (← Host.now)).inSession (some session)
  appendAll (Text.toBytes (Journal.lineOf event)) sync
    ((Journal.filesFor (some session)).map (Path.below directory))

/-- Writes the notices of a session to the log, if there is one. -/
def recordAll (config : Config) (session : Option Text)
    (notices : List Notice) : m Unit := do
  match config.logDirectory with
  | some (c :: directory) =>
    let session ←
      match session with
      | some (c :: name) => pure (c :: name)
      | _ => Host.freshName
    for notice in notices do
      record (c :: directory) session config.logSync notice
  | _ => return

/-- Goes on with what was read of a log. -/
def readable {α : Type} (read : Except Records.Fault α) :
    ExceptT CommandFailure m α :=
  liftExcept (read.mapError fun fault => CommandFailure.broken (.records fault))

def recordsIn (directory file : Text) : ExceptT CommandFailure m (List Json) := do
  let path := Path.below directory file
  match ← look path with
  | .nothing => return []
  | .file content => readable (Records.ofFile Journal.defaultReadLimit content)
  | .directory => throw (.broken (.directoryForFile path))
  | .tooLong => throw (.broken (.records .unreadable))

def runSession (config : Config) (keys : List Text) (rates : Snapshot)
    (base : Text) (currency : Option Text) (initial : Float)
    (session : Option Text) :
    ExceptT CommandFailure m Text := do
  let pressed ←
    match Keys.ofTexts keys with
    | .ok pressed => pure pressed
    | .error error => throw (.usage (.unknownKey error))
  let code := (currency.filter (!·.isEmpty)).getD base
  match money initial code with
  | .error error => throw (.broken (.money error))
  | .ok amount =>
    let engine := Engine.replay config rates base amount pressed
    (recordAll config session engine.dispose.notices.reverse : m Unit)
    return line engine.shown.toJson.toIndented

/-- The events of a log, those of one session from its own file. -/
def runEvents (directory level topic session : Text) (limit : Int) :
    ExceptT CommandFailure m Text := do
  openLog directory
  let answer ←
    if session.isEmpty then
      let query : LogQuery := ⟨level, topic, [], min limit Journal.answerLimit⟩
      pure (query.latest (← recordsIn directory Journal.mainFile))
    else if Journal.isFileName session then
      let query : LogQuery := ⟨level, topic, [], limit⟩
      pure (query.latest (← recordsIn directory (Journal.sessionFile session)))
    else pure (.ok [])
  readable (answer.bind Records.summaries)

def run (config : Config) : Command → ExceptT CommandFailure m Text
  | .evaluate expression => liftExcept (runEvaluate config expression)
  | .format amount currency short =>
    liftExcept (runFormat config amount currency short)
  | .convert amount source target rates short => do
    liftExcept (runConvert config (← loadRates rates) amount source target short)
  | .session keys rates base currency initial name => do
    runSession config keys (← loadRates rates) base currency initial name
  | .events directory level topic name limit =>
    runEvents directory level topic name limit

end Command

end CurrencyPad
