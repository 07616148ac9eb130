import TrainingCollar.Files.Tree
import TrainingCollar.Log
import TrainingCollar.Text.UpperCase

/-! # Where records go

Logging is set up with the name of a level and perhaps with a file. Records of at least that level are
shown, each on a line with its time, and added to the file.
-/

namespace TrainingCollar

/-- An entry for the log from any source, at any level. -/
structure LogEntry where
  level : Int
  logger : String
  message : String
deriving DecidableEq

namespace LogEntry

/-- The names of levels, with the numbers they stand for. -/
def levelNames : List (String × Int) :=
  [("CRITICAL", 50), ("ERROR", 40), ("WARNING", 30), ("INFO", 20), ("DEBUG", 10), ("NOTSET", 0),
    ("FATAL", 50), ("WARN", 30)]

/-- The number that the name of a level stands for. -/
def levelNumber? (name : String) : Option Int := (levelNames.find? (·.1 == name)).map Prod.snd

/-- The name of a level. -/
def levelName (number : Int) : String :=
  match levelNames.find? (·.2 == number) with
  | some (name, _) => name
  | none => "Level " ++ toString number

/-- An entry for a record of the program. -/
def ofRecord (r : Record) : LogEntry := ⟨r.level.number, r.source.logger, r.message⟩

/-- A text filled up with spaces. -/
def padded (width : Nat) (s : String) : String :=
  s ++ String.ofList (List.replicate (width - s.length) ' ')

/-- The line for an entry. -/
def line (e : LogEntry) (time : String) : String :=
  let logger := if e.logger.isEmpty then "root" else e.logger
  time ++ " | " ++ padded 8 (levelName e.level) ++ " | " ++ logger ++ " | " ++ e.message

end LogEntry

/-- How logging is set up. -/
structure Logging where
  /-- The least level that is shown. -/
  level : Int
  /-- The file that lines are added to, besides being shown. -/
  file : Option Path

namespace Logging

/-- Whether an entry is shown. Entries need a level above zero. -/
def shows (setup : Logging) (e : LogEntry) : Bool := 0 < e.level && setup.level ≤ e.level

/-- The record of logging being set up. -/
def configuredRecord (level : String) : Record :=
  ⟨.config, .debug, "Logging configured at " ++ level⟩

/-- The file to log to, if one is given, and the files once it has been opened. -/
def openFile (files : FileTree) (file : Value) : Except Fault (Option Path × FileTree) :=
  if !file.isGiven then .ok (none, files)
  else
    match file with
    | .text name => do
      let path := (Path.ofText name).collapsed
      let files ← files.append path ""
      return (some path, files)
    | _ => .error .wrongKind

/-- Sets up logging with the name of a level in any letter case. -/
def configure (files : FileTree) (level file : Value) : Except Fault (Logging × FileTree × Record) :=
  match level with
  | .text name =>
    match LogEntry.levelNumber? (Text.upper name) with
    | none => .error (.unknownLevel name)
    | some number => do
      let (file, files) ← openFile files file
      return (⟨number, file⟩, files, configuredRecord name)
  | _ => .error .noPart

/-- The lines shown for entries. -/
def lines (setup : Logging) (time : String) (entries : List LogEntry) : List String :=
  (entries.filter setup.shows).map (·.line time)

/-- The files after lines have been shown. -/
def keep (setup : Logging) (files : FileTree) (lines : List String) : Except Fault FileTree :=
  match setup.file with
  | none => .ok files
  | some path => files.append path (String.join (lines.map (· ++ "\n")))

end Logging

end TrainingCollar
