import Std.Time.DateTime.Timestamp
import TrainingCollar.CommandLine

/-! # The program

Reads the arguments, carries out the request on a picture of the files that its path touches, and
applies what has changed in the picture.
-/

namespace TrainingCollar.CommandLine

/-- The text of a location from the root. -/
def pathOf (location : Location) : String := "/" ++ "/".intercalate location

/-- The locations on the way along the parts of a path. -/
def waypoints (location : Location) : List String → List Location
  | [] => [location]
  | part :: rest =>
    location :: waypoints (if part = ".." then location.dropLast else location ++ [part]) rest

/-- The path that a command works on. -/
def Command.path : Command → Path
  | .show file => .ofText (file.getD "")
  | .validate file => .ofText file
  | .init file _ => .ofText file

/-- What is at a location whose parent is a directory. -/
def probe (location : Location) : IO (Option Entry) := do
  if location.isEmpty then return some .directory
  try
    let bytes ← IO.FS.readBinFile (pathOf location)
    match String.fromUTF8? bytes with
    | some text => return some (.file (.text text))
    | none => return some (.file (.bytes bytes.toList))
  catch
    | .noFileOrDirectory .. => return none
    | _ => return some .directory

/-- The picture of what is at some locations, each after its parent. -/
def picture (files : FileTree) : List Location → IO FileTree
  | [] => return files
  | location :: rest => do
    if files.at? location.dropLast == some .directory then
      match ← probe location with
      | some entry => picture (files.put location entry) rest
      | none => picture files rest
    else picture files rest

/-- Makes the directories and writes the files that have changed. -/
def applyChanges (before after : FileTree) : IO Unit :=
  for (location, entry) in after.entries do
    if before.at? location != some entry then
      match entry with
      | .directory => IO.FS.createDirAll (pathOf location)
      | .file (.text text) => IO.FS.writeFile (pathOf location) text
      | .file (.bytes bytes) => IO.FS.writeBinFile (pathOf location) ⟨bytes.toArray⟩

/-- A number with two digits. -/
def twoDigits (n : Nat) : String := if n < 10 then "0" ++ toString n else toString n

/-- The time of day. -/
def timeOfDay : IO String := do
  let now ← Std.Time.Timestamp.now
  let seconds := now.toSecondsSinceUnixEpoch.toInt.toNat % 86400
  return twoDigits (seconds / 3600) ++ ":" ++ twoDigits (seconds / 60 % 60) ++ ":" ++
    twoDigits (seconds % 60)

/-- How the program is used. -/
def usage : String :=
  "usage: acoustic_collar [-h] [-v] show [-h] [-s FILE]\n" ++
  "       acoustic_collar [-h] [-v] validate [-h] FILE\n" ++
  "       acoustic_collar [-h] [-v] init [-h] [--force] FILE"

/-- Carries out a request on the files there are. -/
def perform (request : Request) : IO UInt32 := do
  let path := request.command.path
  let working := (Path.ofText (← IO.currentDir).toString).parts
  let start : FileTree := ⟨working, [([], .directory)]⟩
  let origin := if path.isAbsolute then [] else working
  let before ← picture start (waypoints [] working ++ waypoints origin path.parts)
  let result := request.run before
  applyChanges before result.files
  let time ← timeOfDay
  for line in request.logLines time result do IO.eprintln line
  IO.print result.output
  match result.ending with
  | .ok code => return UInt32.ofNat code
  | .error fault => do
    IO.eprintln fault.message
    return 1

end TrainingCollar.CommandLine

open TrainingCollar CommandLine in
/-- The program. -/
def main (args : List String) : IO UInt32 := do
  match read args with
  | .ok request => perform request
  | .error .help => do
    IO.println usage
    return 0
  | .error .usage => do
    IO.eprintln usage
    return 2
