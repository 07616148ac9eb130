import TrainingCollar.Coercion
import TrainingCollar.Log
import TrainingCollar.Validation

/-! # Mutations

The four ways to change a configuration. A mutation is attempted on the configuration in force. It may
put another one in its place, leave records, and fail. Updates and replacements work on a configuration
of their own and put it in force at the end; steps are appended to and removed from the configuration
in force itself, and only then does the record of it say which step that was. If that step cannot be
written out, the attempt fails with the edit done.
-/

namespace TrainingCollar

/-- A change of the configuration in force. -/
inductive Mutation where
  /-- Merges changes, and named fields after them. -/
  | update (changes : Value) (fields : List (String × Value))
  /-- Puts another configuration in place. -/
  | replace (settings : Value)
  /-- Appends a step to the sequence that a key names. -/
  | add (key step : Value)
  /-- Removes the step at a position of the sequence that a key names. -/
  | remove (key index : Value)

/-- The update that a call with changes and named fields asks for. Two names stand for the store itself
and for the changes and cannot be given as fields besides them. -/
def Mutation.ofCall (changes : Option Value) (fields : List (String × Value)) :
    Except Fault Mutation :=
  if fields.any (·.1 == "self") then .error .wrongKind
  else
    match changes, fields.find? (·.1 == "partial") with
    | some _, some _ => .error .wrongKind
    | some changes, none => .ok (.update changes fields)
    | none, some (_, changes) => .ok (.update changes (fields.filter (·.1 != "partial")))
    | none, none => .ok (.update .null fields)

/-- What trying to change a configuration comes to. -/
structure Attempt where
  records : List Record
  /-- The configuration in force afterwards, also if the attempt fails. -/
  live : Settings
  outcome : Except Fault Unit

namespace Attempt

/-- Nothing but a fault, with a configuration in force. -/
def failed (live : Settings) (fault : Fault) : Attempt := ⟨[], live, .error fault⟩

/-- Another configuration in force, with records of what was done. -/
def accepted (records : List Record) (live : Settings) : Attempt := ⟨records, live, .ok ()⟩

/-- A fault, with a warning if it is a violation. -/
def rejected (live : Settings) (warning : Fault → String) (fault : Fault) : Attempt :=
  match fault with
  | .invalid _ => ⟨[⟨.store, .warning, warning fault⟩], live, .error fault⟩
  | _ => failed live fault

/-- A configuration that was edited in place, with a record of what the text says, if there is one. -/
def edited (live : Settings) (record : String → String) (text : Except Fault String) : Attempt :=
  match text with
  | .ok text => accepted [⟨.store, .info, record text⟩] live
  | .error fault => failed live fault

/-- A rejection leaves the configuration in force as it is, -/
@[simp] theorem live_rejected (live : Settings) (warning : Fault → String) (fault : Fault) :
    (rejected live warning fault).live = live := by
  unfold rejected
  split <;> rfl

/-- and an edit is done whether or not there is a text about it. -/
@[simp] theorem live_edited (live : Settings) (record : String → String) (text : Except Fault String) :
    (edited live record text).live = live := by
  unfold edited
  split <;> rfl

end Attempt

/-- An item as a pair of a key and a value: it has exactly two items. -/
def pairOf (item : Value) : Except Fault (Value × Value) :=
  match item.items? with
  | none => .error .wrongKind
  | some [key, value] => if key.isKey then .ok (key, value) else .error .wrongKind
  | some _ => .error .badValue

/-- Each item as a pair. -/
def pairsOf : List Value → Except Fault (List (Value × Value))
  | [] => .ok []
  | item :: rest => do
    let pair ← pairOf item
    let pairs ← pairsOf rest
    return pair :: pairs

/-- The entries of a mapping, or of pairs; nothing given is no entry. -/
def entriesOf (changes : Value) : Except Fault (List (Value × Value)) :=
  if !changes.isGiven then .ok []
  else
    match changes.entries?, changes.items? with
    | some entries, _ => .ok entries
    | none, some items => do
      let pairs ← pairsOf items
      return pairs.foldl (fun entries (key, value) => Value.insert entries key value) []
    | none, none => .error .wrongKind

/-! ## Edits in place -/

/-- A change of a list of steps. -/
inductive Edit where
  | append (step : Step)
  | erase (position : Nat)

/-- The items that an edit makes of the items of a list. -/
def Edit.items : Edit → List Value → List Value
  | append step, items => items ++ [.step step]
  | erase position, items => items.eraseIdx position

/-- Where the lists stand after an edit of the list of a sequence. A step that is appended is a copy, in
which no list of the configuration stands. -/
def Edit.sharing (which : Sequence) (sharing : Sharing) : Edit → Sharing
  | append _ => sharing
  | erase position => sharing.without which position

/-- A step with a list in a place inside it. -/
def Step.fill (list : Value) (s : Step) (niche : Niche) : Step :=
  if niche.inStrength then { s with strength := Value.plantInEntry list niche s.strength }
  else { s with time := Value.plantInEntry list niche s.time }

/-- The step at a position of a sequence with a list in the places there. -/
def Step.fillAll (list : Value) (niches : List Niche) (position : Nat) (s : Step) : Step :=
  (niches.filter (·.position == position)).foldl (Step.fill list) s

/-- What is at a position of a sequence, with a list in the places there if it is a step. -/
def Value.fillAt (list : Value) (niches : List Niche) (position : Nat) : Value → Value
  | .step s => .step (Step.fillAll list niches position s)
  | v => v

/-- A sequence of steps with a list in places inside these. -/
def Value.filled (list : Value) (niches : List Niche) : Value → Value
  | .list items => .list (items.mapIdx (fillAt list niches))
  | .tuple items => .tuple (items.mapIdx (fillAt list niches))
  | v => v

/-- Without places nothing is filled in. -/
theorem Value.filled_nil (list content : Value) : filled list [] content = content := by
  have nothing (position : Nat) : fillAt list [] position = id := by
    funext v
    cases v <;> rfl
  have same (items : List Value) : items.mapIdx (fillAt list []) = items := by
    apply List.ext_getElem?
    intro position
    rw [List.getElem?_mapIdx, nothing, Option.map_id, id]
  cases content with
  | list items | tuple items => rw [filled, same]
  | _ => rfl

namespace Settings

/-- The configuration with changes merged in. All fields are coerced again, and the result has to be
valid. -/
def merged (live : Settings) (entries : List (Value × Value)) :
    Except Fault (List SettingField × Settings) := do
  let contents ← readFields (.map entries)
  let candidate ← build (live.withFields contents)
  candidate.validate
  return (contents.map Prod.fst, candidate)

/-- Tries to merge changes. -/
def attemptUpdate (live : Settings) (changes : Value) (fields : List (String × Value)) : Attempt :=
  match entriesOf changes with
  | .error fault => .failed live fault
  | .ok entries =>
    let entries := fields.foldl (fun entries (name, value) =>
      Value.insert entries (.text name) value) entries
    match live.merged entries with
    | .ok (changed, candidate) =>
      let names := sortedNames (changed.map SettingField.name)
      let list := if names.isEmpty then "(no fields)" else Value.commas names
      .accepted [.passed, ⟨.store, .info, "Settings updated: " ++ list⟩] candidate
    | .error fault =>
      match allTexts? (entries.map Prod.fst) with
      | some names =>
        let list := (Value.list ((sortedNames names).map .text)).literal
        .rejected live (fun fault => "Rejected settings update " ++ list ++ ": " ++ fault.message) fault
      | none => .failed live .wrongKind

/-- Tries to put another configuration in place. -/
def attemptReplace (live : Settings) (replacement : Value) : Attempt :=
  match replacement with
  | .settings candidate =>
    match Settings.validate candidate with
    | .ok () => .accepted [.passed, ⟨.store, .info, "Settings replaced"⟩] candidate
    | .error fault =>
      .rejected live (fun fault => "Rejected settings replacement: " ++ fault.message) fault
  | _ => .failed live .noPart

/-- What a field holds after lists have changed, given the places where they stand in it. -/
def shown (lists : Sequence → Value) (places : List (Sequence × List Nat)) (content : Value) : Value :=
  places.foldl (fun content (owner, path) => Value.plant (lists owner) path content) content

/-- What a sequence holds after the list of a sequence has come to hold other items. -/
def shownIn (s : Settings) (which : Sequence) (list : Value) (owner : Sequence) : Value :=
  if s.sharing.areOne which owner then list
  else Value.filled list (s.sharing.niches owner) (s.sequence owner)

/-- The configuration after the list of a sequence, with these items, was edited. It shows the edit
wherever the list stands. -/
def withList (s : Settings) (which : Sequence) (edit : Edit) (items : List Value) : Settings :=
  let lists := s.shownIn which (.list (edit.items items))
  { s with
    decibelMin := shown lists s.sharing.decibelMin s.decibelMin
    decibelMax := shown lists s.sharing.decibelMax s.decibelMax
    corrections := lists .corrections
    affirmations := lists .affirmations
    sharing := edit.sharing which s.sharing }

/-- A list that stands in its own field only is edited by editing that field. -/
theorem withList_of_alone {s : Settings} (alone : s.sharing = .none) (which : Sequence) (edit : Edit)
    (items : List Value) : s.withList which edit items = s.set (.steps which) (.list (edit.items items)) := by
  have unfilled (content : Value) : Value.filled (.list (edit.items items)) [] content = content :=
    Value.filled_nil ..
  obtain ⟨_, _, _, _, _, _, _, _, _, _, _, _, _, _, sharing⟩ := s
  obtain rfl : sharing = .none := alone
  cases which <;> cases edit <;> simp [withList, shownIn, shown, Sharing.none, Sharing.areOne, Sharing.niches,
    unfilled, Edit.sharing, Sharing.without, SettingsOf.set, SettingsOf.get, sequence]

/-- The configuration whose list of a sequence was edited; only a list can be edited. -/
def withSteps (live : Settings) (which : Sequence) (edit : Edit) : Except Fault Settings :=
  match live.sequence which with
  | .list items => .ok (live.withList which edit items)
  | _ => .error .noPart

/-- The sequence that a key names, a step, and how many steps the sequence has. -/
def prepareAdd (live : Settings) (key step : Value) : Except Fault (Sequence × Step × Nat) := do
  let which ← sequenceOf key
  let step ← Step.read step
  let size ← sizeOfValue (live.sequence which)
  return (which, step, size)

/-- Tries to append a step. -/
def attemptAdd (live : Settings) (key step : Value) : Attempt :=
  match live.prepareAdd key step with
  | .error fault => .failed live fault
  | .ok (which, step, size) =>
    let label := Violation.label which.name size
    match validateStep step (fun kind => .ok (live.strengthBounds kind)) label with
    | .error fault =>
      .rejected live
        (fun fault => "Rejected event step for " ++ which.name ++ ": " ++ fault.message) fault
    | .ok () =>
      match live.withSteps which (.append step) with
      | .error fault => .failed live fault
      | .ok changed => .edited changed (fun brief => "Added " ++ brief ++ " as " ++ label) step.brief

/-- The position that an index names among a number of steps. -/
def positionOf (name : String) (index : Value) (size : Nat) : Except Fault Nat :=
  match index with
  | .int n =>
    if 0 ≤ n ∧ n < size then .ok n.toNat
    else if Value.fits n then .error (.badIndex (.outOfRange name n size))
    else .error .badValue
  | _ =>
    if index.hasText then .error (.badIndex (.notInteger name index)) else .error .badValue

/-- The sequence that a key names, the position that an index names in it, and what is there. -/
def prepareRemove (live : Settings) (key index : Value) :
    Except Fault (Sequence × Nat × Value) := do
  let which ← sequenceOf key
  let items ← itemsOf (live.sequence which)
  let position ← positionOf which.name index items.length
  return (which, position, items.getD position .null)

/-- Tries to remove a step. -/
def attemptRemove (live : Settings) (key index : Value) : Attempt :=
  match live.prepareRemove key index with
  | .error fault => .failed live fault
  | .ok (which, position, removed) =>
    match live.withSteps which (.erase position) with
    | .error fault => .failed live fault
    | .ok changed =>
      .edited changed
        (fun brief => "Removed " ++ brief ++ " from " ++ Violation.label which.name position)
        (stepOf removed >>= Step.brief)

end Settings

/-- Tries a mutation on the configuration in force. -/
def Mutation.attempt (live : Settings) : Mutation → Attempt
  | update changes fields => live.attemptUpdate changes fields
  | replace settings => live.attemptReplace settings
  | add key step => live.attemptAdd key step
  | remove key index => live.attemptRemove key index

end TrainingCollar
