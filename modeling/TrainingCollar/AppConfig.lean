import TrainingCollar.Files.Tree
import TrainingCollar.Text.UpperCase
import TrainingCollar.Value.Order
import TrainingCollar.Value.Text
import TrainingCollar.Yaml.Content

/-! # The configuration of the program

A document says how logging is set up and where the settings file is. What it leaves out has a default;
a relative path is one from the directory of the document.
-/

namespace TrainingCollar

/-- How the program is set up. -/
structure AppConfig where
  logLevel : String
  /-- The file to log to, unchecked. -/
  logFile : Value
  settingsFile : Path

namespace AppConfig

/-- The level of logging unless one is given. -/
def defaultLevel : String := "INFO"

/-- The settings file unless one is given. -/
def defaultFile : String := "config/appSettings.yaml"

/-- The set-up without a document. -/
def default : AppConfig := ⟨defaultLevel, .null, .ofText defaultFile⟩

/-- The entries of a mapping; other values have no entries to look up. -/
def entriesIn (value : Value) : Except Fault (List (Value × Value)) :=
  match value.entries? with
  | some entries => .ok entries
  | none => .error .noPart

/-- The value under a name, if there is one. -/
def named? (entries : List (Value × Value)) (name : String) : Option Value :=
  Value.lookup? entries (.text name)

/-- What is given, or an empty mapping. -/
def orEmpty (value : Value) : Value := if value.isGiven then value else .map []

/-- The set-up that a document at a path describes. -/
def ofDocument (path : Path) (content : Value) : Except Fault AppConfig := do
  let entries ← entriesIn (orEmpty content)
  let logging ← entriesIn (orEmpty ((named? entries "system").getD .null))
  let level := (named? logging "log_level").getD (.text defaultLevel)
  if !level.hasText then .error .badValue
  else
    match (named? entries "settings_file").getD (.text defaultFile) with
    | .text file =>
      return {
        logLevel := Text.upper level.plain
        logFile := (named? logging "log_file").getD .null
        settingsFile := path.parent.join (.ofText file) }
    | _ => .error .wrongKind

/-- The set-up that a file describes. -/
def load (files : FileTree) (path : Path) : Except Fault AppConfig := do
  if ← files.exists? path then
    let text ← files.read path
    ofDocument path (← Yaml.readDocument text.toList)
  else .error (.missingFile .configuration path.text)

end AppConfig

end TrainingCollar
