import TrainingCollar.Text.Quoted
import TrainingCollar.Value.Basic

/-! # Values in messages

`literal` writes a value out in full, with texts in quotes; `plain` writes a text, a choice, a date
or a moment as it is and everything else as `literal` does. A collection inside itself is shown by
dots. Integers have a text only up to `digitLimit` digits; `hasText` says whether every integer that
is shown keeps within it.
-/

namespace TrainingCollar.Value

/-- Parts joined by commas. -/
def commas (parts : List String) : String := ", ".intercalate parts

mutual

/-- A value written out in full. -/
def literal : Value → String
  | .null => "None"
  | .bool b => if b then "True" else "False"
  | .int n => toString n
  | .float x => x.text
  | .text s => Text.quoted s
  | .bytes content => Text.quotedBytes content
  | .date d => d.literal
  | .moment m => m.literal
  | .choice c => c.literal
  | .list items => "[" ++ commas (literals items) ++ "]"
  | .tuple [item] => "(" ++ literal item ++ ",)"
  | .tuple items => "(" ++ commas (literals items) ++ ")"
  | .set [] => "set()"
  | .set items => "\x7b" ++ commas (literals items) ++ "\x7d"
  | .map entries => "\x7b" ++ commas (entryLiterals entries) ++ "\x7d"
  | .step s => stepLiteral s
  | .settings s => settingsLiteral s
  | .knot _ body => literal body
  | .again _ mapping => if mapping then "\x7b...\x7d" else "[...]"

/-- Each item written out. -/
def literals : List Value → List String
  | [] => []
  | item :: rest => literal item :: literals rest

/-- Each entry written out. -/
def entryLiterals : List (Value × Value) → List String
  | [] => []
  | entry :: rest => entryLiteral entry :: entryLiterals rest

/-- Key and value written out. -/
def entryLiteral : Value × Value → String
  | (key, value) => literal key ++ ": " ++ literal value

/-- A step written out with the names of its fields. -/
def stepLiteral : StepOf Value → String
  | ⟨a, b, c, d, e, f, g⟩ =>
    let parts := [literal a, literal b, literal c, literal d, literal e, literal f, literal g]
    "EventStep(" ++ commas (List.zipWith (fun field part => field.name ++ "=" ++ part)
      StepField.all parts) ++ ")"

/-- A configuration written out with the names of its fields. -/
def settingsLiteral : SettingsOf Value → String
  | ⟨a, b, c, d, e, f, g, h, i, j, k, l, m, n, _⟩ =>
    let parts := [literal a, literal b, literal c, literal d, literal e, literal f, literal g,
      literal h, literal i, literal j, literal k, literal l, literal m, literal n]
    "AppSettings(" ++ commas (List.zipWith (fun field part => field.name ++ "=" ++ part)
      SettingField.all parts) ++ ")"

end

/-- A value as it stands in a sentence. -/
def plain : Value → String
  | .text s => s
  | .date d => d.text
  | .moment m => m.text
  | .choice c => c.text
  | v => v.literal

/-- The most decimal digits an integer may have to be shown or read. -/
def digitLimit : Nat := 4300

/-- Whether an integer keeps within the limit. -/
def fits (n : Int) : Bool := decide (n.natAbs < Nat.pow 10 digitLimit)

mutual

/-- Whether a value can be shown. -/
def hasText : Value → Bool
  | .int n => fits n
  | .list items | .tuple items | .set items => allHaveText items
  | .map entries => entriesHaveText entries
  | .step s => stepHasText s
  | .settings s => settingsHaveText s
  | .knot _ body => hasText body
  | _ => true

/-- Whether each item can be shown. -/
def allHaveText : List Value → Bool
  | [] => true
  | item :: rest => hasText item && allHaveText rest

/-- Whether each entry can be shown. -/
def entriesHaveText : List (Value × Value) → Bool
  | [] => true
  | entry :: rest => entryHasText entry && entriesHaveText rest

/-- Whether key and value can be shown. -/
def entryHasText : Value × Value → Bool
  | (key, value) => hasText key && hasText value

/-- Whether each field of a step can be shown. -/
def stepHasText : StepOf Value → Bool
  | ⟨a, b, c, d, e, f, g⟩ =>
    hasText a && hasText b && hasText c && hasText d && hasText e && hasText f && hasText g

/-- Whether each field of a configuration can be shown. -/
def settingsHaveText : SettingsOf Value → Bool
  | ⟨a, b, c, d, e, f, g, h, i, j, k, l, m, n, _⟩ =>
    hasText a && hasText b && hasText c && hasText d && hasText e && hasText f && hasText g &&
      hasText h && hasText i && hasText j && hasText k && hasText l && hasText m && hasText n

end

end TrainingCollar.Value
