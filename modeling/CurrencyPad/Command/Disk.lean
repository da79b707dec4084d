import CurrencyPad.Command.Line

/-!
# A disk in memory

Files and directories as values, with a clock that stands still. Commands run on
it as they do on a real disk.
-/

namespace CurrencyPad

/-- A place on a disk: the names that lead to it from the root. -/
abbrev Place := List Text

structure Disk where
  workingDirectory : Place
  files : List (Place × Bytes)
  directories : List Place
  /-- The time on the clock. -/
  time : Text
  /-- The number of names that were made up. -/
  namesMade : Nat

namespace Disk

def content? (disk : Disk) (place : Place) : Option Bytes :=
  (disk.files.find? (·.1 == place)).map (·.2)

/-- Whether a place is a directory: the root, one that was made, or one that
leads to something. -/
def isDirectory (disk : Disk) (place : Place) : Bool :=
  place.isEmpty || disk.directories.contains place ||
    (disk.directories ++ disk.files.map (·.1)).any fun other =>
      place.isPrefixOf other && other != place

def entryAt (disk : Disk) (place : Place) : PathEntry :=
  match disk.content? place with
  | some content => .file content
  | none => if disk.isDirectory place then .directory else .nothing

inductive Destination where
  /-- To a place, at which something may be or not. -/
  | place (place : Place)
  /-- Nowhere, because a directory on the way is missing. -/
  | missing
  /-- Nowhere, because a file is on the way. -/
  | blocked
deriving DecidableEq, Repr

/-- Follows names from a place on. Two points lead back, and every name must be
one in a directory. -/
def follow (disk : Disk) (place : Place) : List Text → Destination
  | [] => .place place
  | name :: rest =>
    match disk.entryAt place with
    | .nothing => .missing
    | .directory =>
      disk.follow
        (if name.isEmpty || name == ['.'] then place
        else if name == ['.', '.'] then place.dropLast
        else place ++ [name])
        rest
    | _ => .blocked

def destination (disk : Disk) (path : Text) : Destination :=
  let (start, names) := Path.steps disk.workingDirectory path
  disk.follow start names

/-- A disk with texts in files, whose paths are seen from the working
directory. -/
def ofTexts (workingDirectory time : Text) (texts : Table Text) : Disk where
  workingDirectory := Path.names workingDirectory
  files := texts.map fun entry =>
    (Path.names workingDirectory ++ Path.names entry.1, Text.toBytes entry.2)
  directories := [Path.names workingDirectory]
  time
  namesMade := 0

def look (disk : Disk) (path : Text) : PathEntry :=
  if path.isEmpty then .nothing
  else if !Path.isStorable path then .tooLong
  else
    match disk.destination path with
    | .place place => disk.entryAt place
    | _ => .nothing

/-- Makes a directory in a directory; one that is there may stay. -/
def makeAt (disk : Disk) (place : Place) : Except DirectoryFault Unit × Disk :=
  match disk.entryAt place with
  | .nothing => (.ok (), { disk with directories := place :: disk.directories })
  | .directory => (.ok (), disk)
  | _ => (.error .fileInPlace, disk)

/-- Makes the directory that names lead to from a place. Where the directory
around it is missing, that one is made first, even if the names lead out of it
again. The number bounds the number of names. -/
def makeSteps : Nat → Disk → Place → List Text → Except DirectoryFault Unit × Disk
  | 0, disk, place, _ => disk.makeAt place
  | size + 1, disk, start, names =>
    match disk.follow start names with
    | .place place => disk.makeAt place
    | .blocked => (.error .fileOnTheWay, disk)
    | .missing =>
      match makeSteps size disk start names.dropLast with
      | (.error fault, disk) => (.error fault, disk)
      | (.ok (), disk) =>
        match disk.follow start names with
        | .place place => disk.makeAt place
        | _ => (.error .fileOnTheWay, disk)

/-- Makes a directory with those that lead to it. -/
def makeDirectory (disk : Disk) (path : Text) :
    Except DirectoryFault Unit × Disk :=
  if path.contains '\x00' then (.error .zeroInPath, disk)
  else if !Path.isStorable path then (.error .tooLong, disk)
  else
    let (start, names) := Path.steps disk.workingDirectory path
    makeSteps names.length disk start names

def setContent (files : List (Place × Bytes)) (place : Place) (content : Bytes) :
    List (Place × Bytes) :=
  match files with
  | [] => [(place, content)]
  | (other, old) :: rest =>
    if other = place then (place, content) :: rest
    else (other, old) :: setContent rest place content

/-- Adds bytes to a file that is there or can be made. -/
def append (disk : Disk) (path : Text) (content : Bytes) : Bool × Disk :=
  match Path.isStorable path, disk.destination path with
  | true, .place place =>
    match disk.entryAt place, disk.entryAt place.dropLast with
    | .file old, _ =>
      (true,
        { disk with files := setContent disk.files place (old ++ content) })
    | .nothing, .directory =>
      (true, { disk with files := setContent disk.files place content })
    | _, _ => (false, disk)
  | _, _ => (false, disk)

def freshName (disk : Disk) : Text × Disk :=
  (Text.hexDigits 12 disk.namesMade,
    { disk with namesMade := disk.namesMade + 1 })

instance : Host (StateM Disk) where
  workingDirectory := do return '/' :: Text.join ['/'] (← get).workingDirectory
  look path := do return (← get).look path
  makeDirectory path := modifyGet fun disk => disk.makeDirectory path
  append path content _ := modifyGet fun disk => disk.append path content
  now := do return (← get).time
  freshName := modifyGet freshName

def run (disk : Disk) (words : List Text) : Except CommandFailure Text × Disk :=
  ((CommandLine.run words : ExceptT CommandFailure (StateM Disk) Text).run).run
    disk

end Disk

end CurrencyPad
