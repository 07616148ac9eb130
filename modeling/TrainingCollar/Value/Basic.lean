import TrainingCollar.Calendar
import TrainingCollar.Choice
import TrainingCollar.Field
import TrainingCollar.Number.Basic

/-! # Values

Whatever a form, a document or a caller may hand in as the content of a field is a `Value`. Fields of
steps and configurations hold values too, since nothing stops a caller from assigning to them.

A document may hold a collection that contains itself. Such a value is a `knot`, whose body mentions
it by `again`; `exposed` unties one turn of it.
-/

namespace TrainingCollar

/-- Any value. -/
inductive Value where
  | null
  | bool (b : Bool)
  | int (n : Int)
  | float (x : Binary64)
  | text (s : String)
  | bytes (content : List UInt8)
  | date (d : Date)
  | moment (m : Moment)
  | choice (c : Choice)
  | list (items : List Value)
  | tuple (items : List Value)
  | set (items : List Value)
  | map (entries : List (Value × Value))
  | step (s : StepOf Value)
  | settings (s : SettingsOf Value)
  /-- A collection, named by an anchor, that contains itself. -/
  | knot (anchor : String) (body : Value)
  /-- The collection named by an anchor, inside itself. -/
  | again (anchor : String) (mapping : Bool)

/-- A step whose fields may hold anything. -/
abbrev Step := StepOf Value

/-- A configuration whose fields may hold anything. -/
abbrev Settings := SettingsOf Value

namespace Value

mutual

/-- The value with `other` in place of each mention of an anchor. -/
def replace (anchor : String) (other : Value) : Value → Value
  | .again name mapping => if name = anchor then other else .again name mapping
  | .knot name body => if name = anchor then .knot name body else .knot name (replace anchor other body)
  | .list items => .list (replaceAll anchor other items)
  | .tuple items => .tuple (replaceAll anchor other items)
  | .set items => .set (replaceAll anchor other items)
  | .map entries => .map (replaceEntries anchor other entries)
  | v => v

/-- `replace` in each item. -/
def replaceAll (anchor : String) (other : Value) : List Value → List Value
  | [] => []
  | item :: rest => replace anchor other item :: replaceAll anchor other rest

/-- `replace` in each entry. -/
def replaceEntries (anchor : String) (other : Value) : List (Value × Value) → List (Value × Value)
  | [] => []
  | entry :: rest => replaceEntry anchor other entry :: replaceEntries anchor other rest

/-- `replace` in key and value. -/
def replaceEntry (anchor : String) (other : Value) : Value × Value → Value × Value
  | (key, value) => (replace anchor other key, replace anchor other value)

end

mutual

/-- Whether the value mentions an anchor. -/
def mentions (anchor : String) : Value → Bool
  | .again name _ => name == anchor
  | .knot name body => name != anchor && mentions anchor body
  | .list items => anyMentions anchor items
  | .tuple items => anyMentions anchor items
  | .set items => anyMentions anchor items
  | .map entries => anyEntryMentions anchor entries
  | _ => false

/-- Whether one of the items mentions an anchor. -/
def anyMentions (anchor : String) : List Value → Bool
  | [] => false
  | item :: rest => mentions anchor item || anyMentions anchor rest

/-- Whether one of the entries mentions an anchor. -/
def anyEntryMentions (anchor : String) : List (Value × Value) → Bool
  | [] => false
  | entry :: rest => entryMentions anchor entry || anyEntryMentions anchor rest

/-- Whether key or value mentions an anchor. -/
def entryMentions (anchor : String) : Value × Value → Bool
  | (key, value) => mentions anchor key || mentions anchor value

end

/-- The value with the outermost knot untied once. -/
def exposed : Value → Value
  | .knot anchor body => replace anchor (.knot anchor body) body
  | v => v

/-- The value with another one in the place that positions lead to, each of them in the collection, step
or configuration that the ones before it lead to. -/
def plant (planted : Value) : List Nat → Value → Value
  | [], _ => planted
  | position :: path, .list items => .list (items.modify position (plant planted path))
  | position :: path, .tuple items => .tuple (items.modify position (plant planted path))
  | position :: path, .map entries =>
    .map (entries.modify position fun (key, value) => (key, plant planted path value))
  | position :: path, .step s =>
    match StepField.all[position]? with
    | some field => .step (s.set field (plant planted path (s.get field)))
    | none => .step s
  | position :: path, .settings s =>
    match SettingField.all[position]? with
    | some field => .settings (s.set field (plant planted path (s.get field)))
    | none => .settings s
  | _ :: _, v => v

/-- A mapping with another value in a place inside one of its entries. -/
def plantInEntry (planted : Value) (niche : Niche) : Value → Value
  | .map entries =>
    .map (entries.modify niche.entry fun (key, value) => (key, plant planted niche.path value))
  | v => v

/-- The number that a value is; the truth values count as one and zero. -/
def number? : Value → Option Number
  | .bool b => some (.int (if b then 1 else 0))
  | .int n => some (.int n)
  | .float x => some (.float x)
  | _ => none

/-- A number as a value. -/
def ofNumber : Number → Value
  | .int n => .int n
  | .float x => .float x

@[simp] theorem number?_ofNumber (n : Number) : (ofNumber n).number? = some n := by
  cases n <;> rfl

/-- The names of the kinds of values in messages. -/
def kindName : Value → String
  | .null => "NoneType"
  | .bool _ => "bool"
  | .int _ => "int"
  | .float _ => "float"
  | .text _ => "str"
  | .bytes _ => "bytes"
  | .date _ => "date"
  | .moment _ => "datetime"
  | .choice c => c.family.title
  | .list _ => "list"
  | .tuple _ => "tuple"
  | .set _ => "set"
  | .map _ => "dict"
  | .step _ => "EventStep"
  | .settings _ => "AppSettings"
  | .knot _ body => body.kindName
  | .again _ mapping => if mapping then "dict" else "list"

/-- Whether a value can be the key of an entry: collections that may change, steps and configurations
cannot. -/
def isKey : Value → Bool
  | .list _ | .set _ | .map _ | .step _ | .settings _ | .knot .. | .again .. => false
  | .tuple items => allKeys items
  | _ => true
where
  /-- Whether each item can be a key. -/
  allKeys : List Value → Bool
    | [] => true
    | item :: rest => isKey item && allKeys rest

/-- Whether a value counts as given: nothing, zero and what is empty do not. -/
def isGiven : Value → Bool
  | .null => false
  | .bool b => b
  | .int n => n != 0
  | .float x => match x with
    | .finite _ mantissa _ _ => mantissa != 0
    | _ => true
  | .text s => !s.isEmpty
  | .bytes content => !content.isEmpty
  | .list items | .tuple items | .set items => !items.isEmpty
  | .map entries => !entries.isEmpty
  | _ => true

/-- The items that a value runs through: those of a sequence or set, the characters of a text, the
keys of a mapping. -/
def items? (v : Value) : Option (List Value) :=
  match v.exposed with
  | .list items | .tuple items | .set items => some items
  | .text s => some (s.toList.map fun c => .text (String.singleton c))
  | .bytes content => some (content.map fun byte => .int byte.toNat)
  | .map entries => some (entries.map Prod.fst)
  | _ => none

/-- The entries of a mapping. -/
def entries? (v : Value) : Option (List (Value × Value)) :=
  match v.exposed with
  | .map entries => some entries
  | _ => none

/-- The items of a sequence. -/
def sequence? (v : Value) : Option (List Value) :=
  match v.exposed with
  | .list items | .tuple items => some items
  | _ => none

@[simp] theorem items?_list (items : List Value) : (Value.list items).items? = some items := rfl

@[simp] theorem items?_tuple (items : List Value) : (Value.tuple items).items? = some items := rfl

@[simp] theorem sequence?_list (items : List Value) : (Value.list items).sequence? = some items := rfl

@[simp] theorem sequence?_tuple (items : List Value) : (Value.tuple items).sequence? = some items := rfl

@[simp] theorem entries?_map (entries : List (Value × Value)) :
    (Value.map entries).entries? = some entries := rfl

end Value

end TrainingCollar
