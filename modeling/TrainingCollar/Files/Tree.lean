import TrainingCollar.Fault
import TrainingCollar.Files.Path

/-! # File trees

A tree assigns directories and files to *locations*, which are lists of names from the root. Paths are
resolved against the directories that exist, so `a/..` is somewhere only if `a` is a directory.
Operations answer with a new tree or with the refusal of the file system.
-/

namespace TrainingCollar

/-- What a file holds: text, or bytes that are no text. -/
inductive Content where
  | text (s : String)
  | bytes (b : List UInt8)
deriving DecidableEq

/-- What is at a location. -/
inductive Entry where
  | directory
  | file (content : Content)
deriving DecidableEq

/-- A place in a tree, as the names on the way from the root. -/
abbrev Location := List String

/-- Directories and files, and the location of the working directory. -/
structure FileTree where
  working : Location
  entries : List (Location × Entry)

/-- Line ends of every kind as line feeds. -/
def unifyLineEnds : List Char → List Char
  | '\r' :: '\n' :: rest => '\n' :: unifyLineEnds rest
  | '\r' :: rest => '\n' :: unifyLineEnds rest
  | c :: rest => c :: unifyLineEnds rest
  | [] => []

namespace FileTree

/-- The tree with nothing but a working directory below the root. -/
def empty (working : Location) : FileTree where
  working := working
  entries := (List.range (working.length + 1)).map fun n => (working.take n, .directory)

/-- What is at a location, if anything. -/
def at? (t : FileTree) (location : Location) : Option Entry :=
  (t.entries.find? (·.1 == location)).map Prod.snd

/-- The tree with an entry at a location, in place of any other. -/
def put (t : FileTree) (location : Location) (entry : Entry) : FileTree :=
  { t with
    entries :=
      if t.entries.any (·.1 == location) then
        t.entries.map fun (other, old) => if other == location then (other, entry) else (other, old)
      else t.entries ++ [(location, entry)] }

/-- The tree without the entry at a location. -/
def remove (t : FileTree) (location : Location) : FileTree :=
  { t with entries := t.entries.filter (·.1 != location) }

@[simp] theorem at?_put_self (t : FileTree) (location : Location) (entry : Entry) :
    (t.put location entry).at? location = some entry := by
  obtain ⟨working, entries⟩ := t
  simp only [put, at?]
  split
  case isTrue known =>
    induction entries with
    | nil => simp at known
    | cons head rest ih =>
      by_cases here : head.1 = location
      · simp [here]
      · have known : rest.any (·.1 == location) = true := by simpa [here] using known
        simpa [here] using ih known
  case isFalse unknown =>
    have missing : entries.find? (·.1 == location) = none := by
      rw [List.find?_eq_none]
      intro pair member equal
      exact unknown (List.any_eq_true.mpr ⟨pair, member, equal⟩)
    simp [List.find?_append, missing]

theorem at?_put_of_ne (t : FileTree) {location other : Location} (entry : Entry)
    (h : other ≠ location) : (t.put location entry).at? other = t.at? other := by
  obtain ⟨working, entries⟩ := t
  simp only [put, at?]
  split
  case isTrue known =>
    clear known
    induction entries with
    | nil => rfl
    | cons head rest ih =>
      by_cases here : head.1 = location
      · simpa [here, h.symm] using ih
      · by_cases found : head.1 = other
        · simp [found, h]
        · simpa [here, found] using ih
  case isFalse unknown => simp [List.find?_append, h.symm]

/-- The longest name a file system takes, in bytes. -/
def nameLimit : Nat := 255

/-- The longest path a file system takes, in bytes. -/
def pathLimit : Nat := 4095

/-- Follows one part of a path from a location, which has to be a directory. -/
def step (t : FileTree) (location : Location) (part : String) : Except FileFault Location :=
  match t.at? location with
  | none => .error .notFound
  | some (.file _) => .error .notDirectory
  | some .directory =>
    if part = ".." then .ok location.dropLast
    else if nameLimit < part.utf8ByteSize then .error .nameTooLong
    else .ok (location ++ [part])

/-- Follows the parts of a path from a location. -/
def follow (t : FileTree) (location : Location) : List String → Except FileFault Location
  | [] => .ok location
  | part :: rest => do follow t (← t.step location part) rest

/-- The location that a path names; nothing needs to be there. -/
def locate (t : FileTree) (p : Path) : Except FileFault Location :=
  if p.text.contains (Char.ofNat 0) then .error .badName
  else if pathLimit < p.text.utf8ByteSize then .error .nameTooLong
  else t.follow (if p.isAbsolute then [] else t.working) p.parts

/-- What a path names, if anything. -/
def lookup? (t : FileTree) (p : Path) : Option Entry :=
  match t.locate p with
  | .ok location => t.at? location
  | .error _ => none

/-- A refusal concerning a path. -/
def refused {α : Type} (p : Path) (cause : FileFault) : Except Fault α := .error (.file cause p.text)

/-- Whether a path names something. A path that cannot be followed names nothing. -/
def exists? (t : FileTree) (p : Path) : Except Fault Bool :=
  match t.locate p with
  | .ok location => .ok (t.at? location).isSome
  | .error .nameTooLong => refused p .nameTooLong
  | .error _ => .ok false

/-- Whether a path names a directory. -/
def isDirectory (t : FileTree) (p : Path) : Bool := t.lookup? p == some .directory

/-- The text of a file, with every line end as a line feed. -/
def read (t : FileTree) (p : Path) : Except Fault String :=
  match t.locate p with
  | .error cause => refused p cause
  | .ok location =>
    match t.at? location with
    | none => refused p .notFound
    | some .directory => refused p .isDirectory
    | some (.file (.bytes _)) => .error .notText
    | some (.file (.text s)) => .ok (String.ofList (unifyLineEnds s.toList))

/-- The tree with a text written to a file, which is made if it does not exist. -/
def write (t : FileTree) (p : Path) (s : String) : Except Fault FileTree :=
  match t.locate p with
  | .error cause => refused p cause
  | .ok location =>
    match t.at? location with
    | some .directory => refused p .isDirectory
    | _ => .ok (t.put location (.file (.text s)))

/-- The tree with a text added at the end of a file, which is made if it does not exist. -/
def append (t : FileTree) (p : Path) (s : String) : Except Fault FileTree :=
  match t.locate p with
  | .error cause => refused p cause
  | .ok location =>
    match t.at? location with
    | some .directory => refused p .isDirectory
    | some (.file (.text old)) => .ok (t.put location (.file (.text (old ++ s))))
    | some (.file (.bytes old)) => .ok (t.put location (.file (.bytes (old ++ s.toUTF8.toList))))
    | none => .ok (t.put location (.file (.text s)))

/-- The tree with a new directory. -/
def makeDirectory (t : FileTree) (p : Path) : Except FileFault FileTree :=
  match t.locate p with
  | .error cause => .error cause
  | .ok location =>
    match t.at? location with
    | some _ => .error .alreadyExists
    | none => .ok (t.put location .directory)

/-- The tree with a directory and those above it; directories may exist already. -/
def makeDirectories (t : FileTree) (p : Path) : Except Fault FileTree :=
  match t.makeDirectory p with
  | .ok made => .ok made
  | .error .notFound =>
    if _h : p.parts = [] then refused p .notFound
    else do
      let above ← t.makeDirectories p.parent
      match above.makeDirectory p with
      | .ok made => .ok made
      | .error cause =>
        if cause ≠ .notFound ∧ above.isDirectory p then .ok above else refused p cause
  | .error cause => if t.isDirectory p then .ok t else refused p cause
termination_by p.parts.length
decreasing_by
  simp only [Path.parent, List.length_dropLast]
  have := List.length_pos_iff.mpr _h
  omega

/-- The text files and other files under the working directory, by their paths from there. -/
def listing (t : FileTree) : List (String × Content) :=
  t.entries.filterMap fun (location, entry) =>
    match entry with
    | .file content =>
      if t.working.isPrefixOf location then
        some ("/".intercalate (location.drop t.working.length), content)
      else none
    | .directory => none

end FileTree

end TrainingCollar
