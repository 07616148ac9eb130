import TrainingCollar.Value.Basic

/-! # Equality and order of values

`same` is equality across kinds: numbers are equal when their exact values are, mappings when they
have equal entries in any order, moments when they are the same instant, and a NaN equals nothing.
`le?` is the order of numbers, of texts, of bytes, of dates, of moments with or without a zone, of sets
by inclusion and, item by item, of sequences of the same kind; other values are not ordered.
-/

namespace TrainingCollar.Value

mutual

/-- Whether two values are equal. -/
def same : Value → Value → Bool
  | .null, .null => true
  | .text s, .text t => s == t
  | .bytes a, .bytes b => a == b
  | .date a, .date b => a == b
  | .moment a, .moment b => a.same b
  | .choice a, .choice b => a == b
  | .list a, .list b => sameItems a b
  | .tuple a, .tuple b => sameItems a b
  | .set a, .set b => a.length == b.length && allAmong a b
  | .map a, .map b => a.length == b.length && entriesAmong a b
  | .step a, .step b => sameStep a b
  | .settings a, .settings b => sameSettings a b
  | .knot a x, .knot b y => a == b && same x y
  | .again a _, .again b _ => a == b
  | v, w => match v.number?, w.number? with
    | some a, some b => a.same b
    | _, _ => false

/-- Whether two lists are equal item by item. -/
def sameItems : List Value → List Value → Bool
  | [], [] => true
  | a :: as, b :: bs => same a b && sameItems as bs
  | _, _ => false

/-- Whether each item of the first list is equal to one of the second. -/
def allAmong : List Value → List Value → Bool
  | [], _ => true
  | a :: as, bs => bs.any (same a) && allAmong as bs

/-- Whether each entry of the first mapping is equal to one of the second. -/
def entriesAmong : List (Value × Value) → List (Value × Value) → Bool
  | [], _ => true
  | a :: as, bs => entryAmong a bs && entriesAmong as bs

/-- Whether an entry is equal to one of a mapping. -/
def entryAmong : Value × Value → List (Value × Value) → Bool
  | (key, value), bs => bs.any fun (otherKey, other) => same key otherKey && same value other

/-- Whether two steps are equal field by field. -/
def sameStep : StepOf Value → StepOf Value → Bool
  | ⟨a, b, c, d, e, f, g⟩, t =>
    same a t.kind && same b t.startDelay && same c t.endDelay && same d t.timeMode &&
      same e t.time && same f t.strengthMode && same g t.strength

/-- Whether two configurations are equal field by field, whatever lists they share. -/
def sameSettings : SettingsOf Value → SettingsOf Value → Bool
  | ⟨a, b, c, d, e, f, g, h, i, j, k, l, m, n, _⟩, t =>
    same a t.idleMin && same b t.idleMax && same c t.actionMin && same d t.actionMax &&
      same e t.decibelMin && same f t.decibelMax && same g t.microphone && same h t.alert &&
      same i t.shockMin && same j t.shockMax && same k t.vibeMin && same l t.vibeMax &&
      same m t.corrections && same n t.affirmations

end

mutual

/-- Whether the first value is at most the second; nothing if they are not ordered. -/
def le? : Value → Value → Option Bool
  | .text s, .text t => some (!decide (t < s))
  | .bytes a, .bytes b => some (!decide (b < a))
  | .date a, .date b => some (decide (a.count ≤ b.count))
  | .moment a, .moment b => a.le? b
  | .list a, .list b => leItems? a b
  | .tuple a, .tuple b => leItems? a b
  | .set a, .set b => some (allAmong a b)
  | v, w => match v.number?, w.number? with
    | some a, some b => some (a.le b)
    | _, _ => none

/-- The order of the first items that differ, or of the lengths. -/
def leItems? : List Value → List Value → Option Bool
  | [], _ => some true
  | _ :: _, [] => some false
  | a :: as, b :: bs => if same a b then leItems? as bs else le? a b

end

/-- The value of a key in a list of entries. -/
def lookup? (entries : List (Value × Value)) (key : Value) : Option Value :=
  (entries.find? fun (other, _) => same other key).map Prod.snd

/-- The entries with a value under a key: a key that is present keeps its place and its form. -/
def insert (entries : List (Value × Value)) (key value : Value) : List (Value × Value) :=
  if entries.any fun (other, _) => same other key then
    entries.map fun (other, old) => if same other key then (other, value) else (other, old)
  else entries ++ [(key, value)]

/-- The mapping that results from entering pairs one after the other, if all keys can be keys. -/
def ofPairs? (pairs : List (Value × Value)) : Option (List (Value × Value)) :=
  if pairs.all fun (key, _) => isKey key then
    some (pairs.foldl (fun entries (key, value) => insert entries key value) [])
  else none

theorem le?_ofNumber (a b : Number) : le? (ofNumber a) (ofNumber b) = some (a.le b) := by
  cases a <;> cases b <;> rfl

end TrainingCollar.Value
