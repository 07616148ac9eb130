import TrainingCollar.Coercion
import TrainingCollar.Files.Tree
import TrainingCollar.Log
import TrainingCollar.Validation
import TrainingCollar.Yaml.Content
import TrainingCollar.Yaml.Printer

/-! # Configurations in files

A configuration is kept in a file as a document that maps the names of its fields to their contents.
`Settings.load` accepts a file only if its content, completed with the defaults, is a valid
configuration. `Settings.save` empties the file before it knows what to write, so one that fails leaves
an empty file behind.
-/

namespace TrainingCollar.Settings

/-- The configuration that the content of a document describes. Nothing, or what counts as nothing,
describes the defaults. -/
def ofDocument (path : Path) (content : Value) : Except Fault Settings := do
  let content := if content.isGiven then content else .map []
  if content.entries?.isNone then refuse (.noMapping path.text)
  else
    let settings ← read content
    settings.validate
    return settings

/-- The configuration in a file. -/
def readFrom (files : FileTree) (path : Path) : Except Fault Settings := do
  if ← files.exists? path then
    let text ← files.read path
    ofDocument path (← Yaml.readDocument text.toList)
  else .error (.missingFile .settings path.text)

/-- How many steps a sequence has. -/
def stepCount (s : Settings) (which : Sequence) : Nat := ((s.sequence which).items?.getD []).length

/-- The record of a configuration that was loaded. -/
def loadedRecord (path : Path) (s : Settings) : Record :=
  ⟨.persistence, .info, "Loaded settings from " ++ path.text ++ " (" ++
    toString (s.stepCount .corrections) ++ " correction, " ++
    toString (s.stepCount .affirmations) ++ " affirmation step(s))"⟩

/-- What loading a configuration comes to. -/
structure Loading where
  records : List Record
  outcome : Except Fault Settings

/-- Tries to load the configuration in a file. -/
def load (files : FileTree) (path : Path) : Loading :=
  match readFrom files path with
  | .ok settings => ⟨[.passed, loadedRecord path settings], .ok settings⟩
  | .error fault => ⟨[], .error fault⟩

/-- The text of the document that holds a configuration. -/
def document (s : Settings) : Except Fault String := do
  let text ← Yaml.writeDocument (← s.toMap)
  return String.ofList text

/-- The record of a configuration that was saved. -/
def savedRecord (path : Path) : Record := ⟨.persistence, .info, "Saved settings to " ++ path.text⟩

/-- The files after a configuration is saved to a file, and whether that succeeded. The directories
above the file are made. -/
def save (files : FileTree) (path : Path) (s : Settings) : FileTree × Except Fault Record :=
  match files.makeDirectories path.parent with
  | .error fault => (files, .error fault)
  | .ok made =>
    match made.write path "" with
    | .error fault => (made, .error fault)
    | .ok emptied =>
      match s.document with
      | .error fault => (emptied, .error fault)
      | .ok text =>
        match emptied.write path text with
        | .error fault => (emptied, .error fault)
        | .ok written => (written, .ok (savedRecord path))

end TrainingCollar.Settings
