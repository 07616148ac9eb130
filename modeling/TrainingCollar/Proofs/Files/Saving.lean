import TrainingCollar.Proofs.SettingsFile

/-! # Saving among other files

Saving makes the directories above a file and then writes the file. Nothing that exists gets lost when
directories are made (`FileTree.grows_of_makeDirectories`), so that saving changes at most the file that
the path names in the end (`Settings.spares_save`). Over a file that exists there are no directories to
be made, and saving succeeds exactly if there is a document to write (`Settings.save_over`), so that
saving the same once more changes nothing (`Settings.save_again`).
-/

namespace TrainingCollar

/-! ## Above a file -/

namespace Path

theorem intercalate_dropLast_prefix {α : Type} (separator : List α) (parts : List (List α)) :
    separator.intercalate parts.dropLast <+: separator.intercalate parts := by
  induction parts with
  | nil => exact List.prefix_rfl
  | cons part rest ih =>
    cases rest with
    | nil => exact List.nil_prefix
    | cons next others =>
      cases others with
      | nil => simp [List.intercalate]
      | cons last others =>
        simpa [List.intercalate, List.dropLast] using ih

/-- The text of what is above a path starts the text of the path, unless it is a dot. -/
theorem text_parent (p : Path) : p.parent.text = "." ∨ ∃ rest, p.text = p.parent.text ++ rest := by
  by_cases bare : p.root = "" ∧ p.parts.dropLast = []
  · exact .inl (if_pos bare)
  · right
    have something : ¬(p.root = "" ∧ p.parts = []) := fun nothing =>
      bare ⟨nothing.1, by rw [nothing.2, List.dropLast_nil]⟩
    obtain ⟨rest, same⟩ := intercalate_dropLast_prefix ['/'] (p.parts.map String.toList)
    have whole : p.text = p.root ++ "/".intercalate p.parts := if_neg something
    have above : p.parent.text = p.root ++ "/".intercalate p.parts.dropLast := if_neg bare
    refine ⟨.ofList rest, String.toList_injective ?_⟩
    rw [whole, above]
    simp only [String.toList_append, String.toList_intercalate, String.toList_ofList,
      List.map_dropLast, List.append_assoc]
    exact congrArg _ same.symm

/-- A path whose text a file system takes. -/
structure Usable (p : Path) : Prop where
  noNull : Char.ofNat 0 ∉ p.text.toList
  short : p.text.utf8ByteSize ≤ FileTree.pathLimit

theorem Usable.parent {p : Path} (usable : p.Usable) : p.parent.Usable := by
  rcases text_parent p with isDot | ⟨rest, same⟩
  · constructor
    · rw [isDot]
      decide
    · rw [isDot]
      decide
  · obtain ⟨noNull, short⟩ := usable
    rw [same] at noNull short
    rw [String.toList_append] at noNull
    rw [String.utf8ByteSize_append] at short
    exact ⟨fun among => noNull (List.mem_append_left _ among), Nat.le_of_add_right_le short⟩

end Path

namespace FileTree

variable {t after made : FileTree} {here there place location : Location} {part last : String}
  {parts : List String} {p : Path} {entry : Entry}

/-! ## Following paths -/

theorem step_eq_ok_iff : t.step here part = .ok there ↔ t.at? here = some .directory ∧
    (part = ".." ∧ there = here.dropLast ∨
      part ≠ ".." ∧ part.utf8ByteSize ≤ nameLimit ∧ there = here ++ [part]) := by
  unfold step
  split
  · next nothing => exact iff_of_false nofun fun ⟨isDirectory, _⟩ => nomatch nothing.symm.trans isDirectory
  · next isFile => exact iff_of_false nofun fun ⟨isDirectory, _⟩ => nomatch isFile.symm.trans isDirectory
  · next isDirectory =>
    by_cases up : part = ".."
    · simp [up, isDirectory, eq_comm]
    · by_cases long : nameLimit < part.utf8ByteSize
      · simp [up, long]
      · simp [up, long, isDirectory, eq_comm, Nat.le_of_not_lt long]

theorem follow_cons_eq_ok_iff : t.follow here (part :: parts) = .ok location ↔
    ∃ next, t.step here part = .ok next ∧ t.follow next parts = .ok location := by
  rw [follow]
  cases t.step here part with
  | error cause => exact iff_of_false nofun fun ⟨_, stepped, _⟩ => nomatch stepped
  | ok next =>
    constructor
    · intro followed
      exact ⟨next, rfl, followed⟩
    · rintro ⟨_, ⟨⟩, followed⟩
      exact followed

theorem follow_concat_eq_ok_iff : t.follow here (parts ++ [last]) = .ok location ↔
    ∃ above, t.follow here parts = .ok above ∧ t.step above last = .ok location := by
  induction parts generalizing here with
  | nil =>
    rw [List.nil_append, follow_cons_eq_ok_iff]
    constructor
    · rintro ⟨_, stepped, ⟨⟩⟩
      exact ⟨here, rfl, stepped⟩
    · rintro ⟨_, ⟨⟩, stepped⟩
      exact ⟨location, stepped, rfl⟩
  | cons part rest ih =>
    simp only [List.cons_append, follow_cons_eq_ok_iff, ih]
    constructor
    · rintro ⟨next, stepped, above, followed, final⟩
      exact ⟨above, ⟨next, stepped, followed⟩, final⟩
    · rintro ⟨above, ⟨next, stepped, followed⟩, final⟩
      exact ⟨next, stepped, above, followed, final⟩

/-- Where a path starts. -/
def origin (t : FileTree) (p : Path) : Location := if p.isAbsolute then [] else t.working

theorem locate_eq_ok_iff : t.locate p = .ok location ↔
    p.Usable ∧ t.follow (t.origin p) p.parts = .ok location := by
  simp only [locate, String.contains_char_eq, decide_eq_true_eq]
  split
  · next null =>
    refine iff_of_false ?_ fun found => found.1.noNull null
    rintro ⟨⟩
  · next noNull =>
    split
    · next long =>
      refine iff_of_false ?_ fun found => Nat.not_lt.mpr found.1.short long
      rintro ⟨⟩
    · next short => exact (and_iff_right ⟨noNull, Nat.le_of_not_lt short⟩).symm

theorem isDirectory_iff : t.isDirectory p = true ↔
    ∃ location, t.locate p = .ok location ∧ t.at? location = some .directory := by
  rw [isDirectory, beq_iff_eq, lookup?_eq_some_iff]

/-! ## Trees -/

/-- Everything lies in a directory, and so does the working directory, which exists. -/
structure IsTree (t : FileTree) : Prop where
  root : t.at? [] = some .directory
  working : t.at? t.working = some .directory
  above : ∀ {location : Location} {name : String}, t.at? (location ++ [name]) ≠ none →
    t.at? location = some .directory

theorem at?_ne_none_iff : t.at? location ≠ none ↔ ∃ entry ∈ t.entries, entry.1 = location := by
  rw [at?, ne_eq, Option.map_eq_none_iff, List.find?_eq_none]
  simp

/-- It is enough to look at what the tree was made from. -/
theorem isTree_iff : t.IsTree ↔ t.at? [] = some .directory ∧ t.at? t.working = some .directory ∧
    ∀ entry ∈ t.entries, entry.1 ≠ [] → t.at? entry.1.dropLast = some .directory := by
  constructor
  · intro tree
    refine ⟨tree.root, tree.working, fun entry member something => ?_⟩
    have there : t.at? (entry.1.dropLast ++ [entry.1.getLast something]) ≠ none := by
      rw [List.dropLast_append_getLast something]
      exact at?_ne_none_iff.mpr ⟨entry, member, rfl⟩
    exact tree.above there
  · rintro ⟨root, working, above⟩
    refine ⟨root, working, fun {location name} there => ?_⟩
    obtain ⟨entry, member, same⟩ := at?_ne_none_iff.mp there
    have isDirectory := above entry member (by rw [same]; exact List.append_ne_nil_of_right_ne_nil _ nofun)
    rwa [same, List.dropLast_concat] at isDirectory

instance : Decidable t.IsTree := decidable_of_iff _ isTree_iff.symm

/-- A tree with one settings file. -/
def oneFile : FileTree where
  working := []
  entries := [([], .directory), (["kept.yaml"], .file (.text "mic_sensitivity: 28\n"))]

theorem isTree_oneFile : oneFile.IsTree := by decide +kernel

theorem holds_oneFile : oneFile.Holds (.ofText "kept.yaml") "mic_sensitivity: 28\n" := by
  simp only [Holds, lookup?, locate, String.contains_char_eq]
  decide +kernel

theorem IsTree.origin (tree : t.IsTree) (p : Path) : t.at? (t.origin p) = some .directory := by
  unfold FileTree.origin
  split
  · exact tree.root
  · exact tree.working

theorem IsTree.at?_of_append (tree : t.IsTree) (there : t.at? (here ++ part :: parts) ≠ none) :
    t.at? here = some .directory := by
  induction parts using List.reverseRecOn with
  | nil => exact tree.above there
  | append_singleton rest last ih =>
    rw [← List.cons_append, ← List.append_assoc] at there
    exact ih (by rw [tree.above there]; nofun)

/-- What is named without going up is found where its names lead. -/
theorem IsTree.follow_eq (tree : t.IsTree) (there : t.at? (here ++ parts) ≠ none)
    (plain : ".." ∉ parts) (short : ∀ part ∈ parts, part.utf8ByteSize ≤ nameLimit) :
    t.follow here parts = .ok (here ++ parts) := by
  induction parts generalizing here with
  | nil => rw [follow, List.append_nil]
  | cons part rest ih =>
    obtain ⟨shortPart, short⟩ := List.forall_mem_cons.mp short
    obtain ⟨differs, plain⟩ := List.ne_and_not_mem_of_not_mem_cons plain
    have next : t.step here part = .ok (here ++ [part]) :=
      step_eq_ok_iff.mpr ⟨tree.at?_of_append there, .inr ⟨differs.symm, shortPart, rfl⟩⟩
    have same : here ++ part :: rest = here ++ [part] ++ rest := by simp
    rw [same] at there ⊢
    exact follow_cons_eq_ok_iff.mpr ⟨_, next, ih there plain short⟩

theorem follow_plain (followed : t.follow here parts = .ok location) (plain : ".." ∉ parts) :
    location = here ++ parts ∧ ∀ part ∈ parts, part.utf8ByteSize ≤ nameLimit := by
  induction parts generalizing here with
  | nil =>
    cases followed
    exact ⟨(List.append_nil _).symm, List.forall_mem_nil _⟩
  | cons part rest ih =>
    obtain ⟨differs, plain⟩ := List.ne_and_not_mem_of_not_mem_cons plain
    obtain ⟨next, stepped, followed⟩ := follow_cons_eq_ok_iff.mp followed
    obtain ⟨_, ⟨up, _⟩ | ⟨_, shortPart, rfl⟩⟩ := step_eq_ok_iff.mp stepped
    · exact absurd up.symm differs
    · obtain ⟨rfl, short⟩ := ih followed plain
      exact ⟨by simp, List.forall_mem_cons.mpr ⟨shortPart, short⟩⟩

/-- Above what exists, unless it is a directory itself, is a directory. -/
theorem isDirectory_parent (begins : t.at? (t.origin p) = some .directory)
    (located : t.locate p = .ok location) (noDirectory : t.at? location ≠ some .directory) :
    t.isDirectory p.parent = true := by
  obtain ⟨usable, followed⟩ := locate_eq_ok_iff.mp located
  rcases List.eq_nil_or_concat p.parts with bare | ⟨parts, last, same⟩
  · rw [bare] at followed
    cases followed
    exact absurd begins noDirectory
  · rw [List.concat_eq_append] at same
    rw [same, follow_concat_eq_ok_iff] at followed
    obtain ⟨above, followed, stepped⟩ := followed
    refine isDirectory_iff.mpr ⟨above, locate_eq_ok_iff.mpr ⟨usable.parent, ?_⟩, ?_⟩
    · show t.follow (t.origin p) p.parts.dropLast = _
      rw [same, List.dropLast_concat, followed]
    · exact (step_eq_ok_iff.mp stepped).1

/-! ## Making directories -/

/-- Whatever is somewhere in a tree is there in the other tree, too. -/
structure Grows (t after : FileTree) : Prop where
  working : after.working = t.working
  keeps : ∀ {location : Location} {entry : Entry}, t.at? location = some entry →
    after.at? location = some entry

theorem Grows.refl : t.Grows t := ⟨rfl, id⟩

theorem Grows.trans (first : t.Grows made) (second : made.Grows after) : t.Grows after :=
  ⟨second.working.trans first.working, fun there => second.keeps (first.keeps there)⟩

theorem grows_put (nothing : t.at? location = none) : t.Grows (t.put location entry) := by
  refine ⟨rfl, fun {other} _ there => ?_⟩
  have elsewhere : other ≠ location := by
    rintro rfl
    rw [nothing] at there
    cases there
  rwa [at?_put_of_ne t entry elsewhere]

theorem grows_of_makeDirectory (isMade : t.makeDirectory p = .ok made) : t.Grows made := by
  unfold makeDirectory at isMade
  split at isMade
  · cases isMade
  · split at isMade
    · cases isMade
    · next nothing =>
      cases isMade
      exact grows_put nothing

theorem grows_of_makeDirectories (isMade : t.makeDirectories p = .ok made) : t.Grows made := by
  fun_induction makeDirectories t p generalizing made with
  | case1 _ _ isOne =>
    cases isMade
    exact grows_of_makeDirectory isOne
  | case2 => cases isMade
  | case3 p _ _ ih =>
    obtain ⟨above, isAbove, isMade⟩ := bind_eq_ok_iff.mp isMade
    split at isMade
    · next isOne =>
      cases isMade
      exact (ih isAbove).trans (grows_of_makeDirectory isOne)
    · split at isMade
      · cases isMade
        exact ih isAbove
      · cases isMade
  | case4 =>
    cases isMade
    exact .refl
  | case5 => cases isMade

/-- Directories that exist need not be made. -/
theorem makeDirectories_of_isDirectory (isDirectory : t.isDirectory p = true) :
    t.makeDirectories p = .ok t := by
  obtain ⟨location, located, there⟩ := isDirectory_iff.mp isDirectory
  have exists_ : t.makeDirectory p = .error .alreadyExists := by
    simp only [makeDirectory, located, there]
  rw [makeDirectories, exists_]
  exact if_pos isDirectory

/-! ## Writing to a file -/

/-- The last entry that is put at a location is the one that counts. -/
theorem put_put (t : FileTree) (location : Location) (first second : Entry) :
    (t.put location first).put location second = t.put location second := by
  obtain ⟨working, entries⟩ := t
  simp only [put]
  split
  case isTrue known =>
    split
    case isTrue =>
      rw [List.map_map]
      congr 1
      apply List.map_congr_left
      rintro ⟨other, old⟩ _
      by_cases here : other = location <;> simp [here]
    case isFalse lost =>
      obtain ⟨entry, member, here⟩ := List.any_eq_true.mp known
      refine absurd (List.any_eq_true.mpr ⟨_, List.mem_map_of_mem member, ?_⟩) lost
      simp only [here, if_true]
  case isFalse unknown =>
    have elsewhere : ∀ entry ∈ entries, (entry.1 == location) = false := by
      intro entry member
      exact Bool.eq_false_iff.mpr fun here => unknown (List.any_eq_true.mpr ⟨entry, member, here⟩)
    rw [if_pos (by simp), List.map_append, List.map_congr_left (g := id), List.map_id]
    · simp
    · intro entry member
      simp [elsewhere entry member]

/-- Nothing gets lost from the first tree to the second one, and nothing changes but what the path
names in the end, if that is a file. -/
structure Spares (t after : FileTree) (p : Path) : Prop where
  working : after.working = t.working
  directories : ∀ {location : Location}, t.at? location = some .directory →
    after.at? location = some .directory
  others : ∀ {location : Location} {entry : Entry}, t.at? location = some entry →
    after.locate p ≠ .ok location → after.at? location = some entry

theorem Grows.spares (grows : t.Grows after) : t.Spares after p :=
  ⟨grows.working, grows.keeps, fun there _ => grows.keeps there⟩

/-- A file may be put where the path leads. -/
theorem Spares.put (spares : t.Spares made p) {content : Content} (located : made.locate p = .ok place)
    (free : made.at? place ≠ some .directory) : t.Spares (made.put place (.file content)) p := by
  have still : (made.put place (.file content)).locate p = .ok place := locate_put free located
  refine ⟨spares.working, fun {location} isDirectory => ?_, fun {location} _ there elsewhere => ?_⟩
  · have elsewhere : location ≠ place := by
      rintro rfl
      exact free (spares.directories isDirectory)
    rw [at?_put_of_ne made _ elsewhere]
    exact spares.directories isDirectory
  · have differs : location ≠ place := by
      rintro rfl
      exact elsewhere still
    rw [at?_put_of_ne made _ differs]
    refine spares.others there fun same => differs ?_
    cases located.symm.trans same
    rfl

theorem Spares.follow (spares : t.Spares after p) (followed : t.follow here parts = .ok location) :
    after.follow here parts = .ok location := by
  induction parts generalizing here with
  | nil => exact followed
  | cons part rest ih =>
    obtain ⟨next, stepped, followed⟩ := follow_cons_eq_ok_iff.mp followed
    obtain ⟨isDirectory, leads⟩ := step_eq_ok_iff.mp stepped
    have stepped := step_eq_ok_iff.mpr ⟨spares.directories isDirectory, leads⟩
    exact follow_cons_eq_ok_iff.mpr ⟨next, stepped, ih followed⟩

theorem Spares.origin_eq (spares : t.Spares after p) (q : Path) : after.origin q = t.origin q := by
  rw [origin, origin, spares.working]

/-- What a path names in the end, it named before, if it does not go up or what is above it was
there already. -/
theorem Spares.locate_before (spares : t.Spares after p) (tree : t.IsTree)
    (plain : ".." ∉ p.parts ∨ t.isDirectory p.parent = true) (there : t.at? location ≠ none)
    (located : after.locate p = .ok location) : t.locate p = .ok location := by
  obtain ⟨usable, followed⟩ := locate_eq_ok_iff.mp located
  rw [spares.origin_eq] at followed
  refine locate_eq_ok_iff.mpr ⟨usable, ?_⟩
  rcases plain with plain | isDirectory
  · obtain ⟨rfl, short⟩ := follow_plain followed plain
    exact tree.follow_eq there plain short
  · obtain ⟨above, isAbove, isDirectory⟩ := isDirectory_iff.mp isDirectory
    obtain ⟨_, before⟩ := locate_eq_ok_iff.mp isAbove
    have before : t.follow (t.origin p) p.parts.dropLast = .ok above := before
    rcases List.eq_nil_or_concat p.parts with bare | ⟨parts, last, same⟩
    · rw [bare] at followed ⊢
      exact followed
    · rw [List.concat_eq_append] at same
      rw [same, List.dropLast_concat] at before
      rw [same, follow_concat_eq_ok_iff] at followed ⊢
      obtain ⟨_, again, stepped⟩ := followed
      cases (spares.follow before).symm.trans again
      exact ⟨above, before, step_eq_ok_iff.mpr ⟨isDirectory, (step_eq_ok_iff.mp stepped).2⟩⟩

end FileTree

/-! ## Saving -/

namespace Settings

variable {s : Settings} {files : FileTree} {path : Path} {location : Location} {old : Content}

/-- Saving changes nothing but the file that the path names in the end. -/
theorem spares_save (files : FileTree) (path : Path) (s : Settings) :
    files.Spares (save files path s).1 path := by
  unfold save
  split
  · exact FileTree.Grows.refl.spares
  · next isMade =>
    have made := (FileTree.grows_of_makeDirectories isMade).spares (p := path)
    split
    · exact made
    · next emptied wrote =>
      have emptied : files.Spares emptied path := by
        obtain ⟨place, located, free, rfl⟩ := FileTree.write_eq_ok_iff.mp wrote
        exact made.put located free
      split
      · exact emptied
      · split
        · exact emptied
        · next wrote =>
          obtain ⟨place, located, free, rfl⟩ := FileTree.write_eq_ok_iff.mp wrote
          exact emptied.put located free

/-- Saving over a file that exists comes to what writing the document comes to, but the file has been
emptied before. -/
theorem save_over (begins : files.at? (files.origin path) = some .directory)
    (located : files.locate path = .ok location) (there : files.at? location = some (.file old)) :
    save files path s =
      match s.document with
      | .error fault => (files.put location (.file (.text "")), .error fault)
      | .ok text =>
        (files.put location (.file (.text text)), .ok (savedRecord path)) := by
  have free : files.at? location ≠ some .directory := by
    rw [there]
    nofun
  have made := FileTree.makeDirectories_of_isDirectory (FileTree.isDirectory_parent begins located free)
  have emptied : files.write path "" = .ok (files.put location (.file (.text ""))) :=
    FileTree.write_eq_ok_iff.mpr ⟨location, located, free, rfl⟩
  have written (text : String) : (files.put location (.file (.text ""))).write path text =
      .ok (files.put location (.file (.text text))) := by
    have stillFree : (files.put location (.file (.text ""))).at? location ≠ some .directory := by
      rw [FileTree.at?_put_self]
      nofun
    refine FileTree.write_eq_ok_iff.mpr ⟨location, FileTree.locate_put free located, stillFree, ?_⟩
    rw [FileTree.put_put]
  simp only [save, made, emptied]
  cases s.document with
  | error fault => rfl
  | ok text => simp only [written]

/-- What was saved is the document of the configuration, in a tree with what is above the file. -/
theorem exists_put_of_save {after : FileTree} {record : Record}
    (saved : save files path s = (after, .ok record)) : record = savedRecord path ∧
      ∃ made place text, s.document = .ok text ∧ FileTree.locate made path = .ok place ∧
        made.at? place ≠ some .directory ∧ after = made.put place (.file (.text text)) := by
  unfold save at saved
  split at saved
  · cases saved
  · next made _ =>
    split at saved
    · cases saved
    · next emptied wroteNothing =>
      split at saved
      · cases saved
      · next text isText =>
        split at saved
        · cases saved
        · next written wrote =>
          cases saved
          obtain ⟨place, located, free, rfl⟩ := FileTree.write_eq_ok_iff.mp wroteNothing
          obtain ⟨_, again, _, rfl⟩ := FileTree.write_eq_ok_iff.mp wrote
          cases (FileTree.locate_put free located).symm.trans again
          exact ⟨rfl, made, place, text, isText, located, free, FileTree.put_put ..⟩

/-- A configuration that was saved is saved again without any change. -/
theorem save_again {after : FileTree} {record : Record}
    (begins : files.at? (files.origin path) = some .directory)
    (saved : save files path s = (after, .ok record)) : save after path s = (after, .ok record) := by
  have spares := spares_save files path s
  rw [saved] at spares
  have beginsAfter : after.at? (after.origin path) = some .directory := by
    rw [spares.origin_eq]
    exact spares.directories begins
  obtain ⟨rfl, made, place, text, isText, located, free, rfl⟩ := exists_put_of_save saved
  have rewritten := save_over beginsAfter (FileTree.locate_put free located) (FileTree.at?_put_self ..) (s := s)
  simpa only [isText, FileTree.put_put] using rewritten

end Settings

end TrainingCollar
