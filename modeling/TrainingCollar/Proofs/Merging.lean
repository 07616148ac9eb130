import TrainingCollar.Proofs.Genuine

/-! # Merging

Entries are merged over a configuration field by field: a field that an entry names holds what it makes
of the content, and the other fields stay as they are. `Settings.Merges` says so without any order of
the entries. Reading a mapping merges it over the defaults (`Settings.read_eq_ok_iff`), and an update
merges it over the configuration in force (`Settings.merged_eq_ok_iff`); since coercion leaves alone
what it yields, it does not matter that both coerce everything once more.
-/

namespace TrainingCollar

theorem SettingField.name_injective : Function.Injective SettingField.name := fun a b same => by
  rw [← Option.some_inj, ← ofName?_name, same, ofName?_name]

theorem SettingField.name_of_ofName? {name : String} {field : SettingField}
    (found : ofName? name = some field) : field.name = name := by
  unfold ofName? at found
  simpa using List.find?_some found

/-! ## Keys -/

namespace Value

variable {entries others : List (Value × Value)}

theorem same_text_iff {v : Value} {key : String} : v.same (.text key) = true ↔ v = .text key := by
  cases v <;> simp [same, number?]

/-- No text is the key of two entries. -/
def OnceNamed (entries : List (Value × Value)) : Prop :=
  entries.Pairwise fun a b => ∀ name, a.1 = .text name → b.1 ≠ .text name

theorem OnceNamed.of_nodup {named : List (String × Value)} (nodup : (named.map Prod.fst).Nodup) :
    OnceNamed (named.map fun (name, content) => (.text name, content)) := by
  refine List.pairwise_map.mpr ((List.pairwise_map.mp nodup).imp fun {a b} apart name isName => ?_)
  cases isName
  exact fun same => apart (Value.text.inj same).symm

/-- What is under a text once something was entered under a text. -/
theorem mem_insert_text_iff {name key : String} {content value : Value} :
    (.text name, content) ∈ insert entries (.text key) value ↔
      if name = key then content = value else (.text name, content) ∈ entries := by
  unfold insert
  split
  · next known =>
    obtain ⟨⟨first, old⟩, member, same⟩ := List.any_eq_true.mp known
    obtain rfl := same_text_iff.mp same
    rw [List.mem_map]
    constructor
    · rintro ⟨⟨other, old⟩, among, isEntry⟩
      dsimp only at isEntry
      split at isEntry
      · next same =>
        cases isEntry
        rw [if_pos (Value.text.inj (same_text_iff.mp same))]
      · next differs =>
        cases isEntry
        rwa [if_neg fun same => differs (same_text_iff.mpr (congrArg _ same))]
    · split
      · next isKey =>
        rintro rfl
        obtain rfl := isKey
        exact ⟨_, member, if_pos same⟩
      · next differs =>
        intro among
        refine ⟨_, among, if_neg fun same => differs ?_⟩
        exact Value.text.inj (same_text_iff.mp same)
  · next unknown =>
    have noKey {content : Value} : (.text key, content) ∉ entries := fun member =>
      unknown (List.any_eq_true.mpr ⟨_, member, same_text_iff.mpr rfl⟩)
    rw [List.mem_append, List.mem_singleton, Prod.mk.injEq, Value.text.injEq]
    split
    · next isKey =>
      obtain rfl := isKey
      exact ⟨fun member => (member.resolve_left noKey).2, fun same => .inr ⟨rfl, same⟩⟩
    · next differs => exact ⟨fun member => member.resolve_right fun same => differs same.1, .inl⟩

theorem OnceNamed.insert (once : OnceNamed entries) (key value : Value) :
    OnceNamed (Value.insert entries key value) := by
  unfold Value.insert
  split
  · refine List.pairwise_map.mpr (once.imp fun {a b} apart => ?_)
    simpa only [apply_ite Prod.fst, ite_self] using apart
  · next unknown =>
    refine List.pairwise_append.mpr ⟨once, List.pairwise_singleton _ _, ?_⟩
    intro entry member other isNew name isText
    obtain rfl := List.mem_singleton.mp isNew
    rintro rfl
    exact unknown (List.any_eq_true.mpr ⟨entry, member, same_text_iff.mpr isText⟩)

theorem OnceNamed.foldl_insert {α : Type} {key value : α → Value} (pairs : List α)
    (once : OnceNamed entries) : OnceNamed
      (pairs.foldl (fun entries pair => Value.insert entries (key pair) (value pair)) entries) := by
  induction pairs generalizing entries with
  | nil => exact once
  | cons pair rest ih => exact ih (once.insert _ _)

end Value

/-- Coercion leaves what it yields as it is. -/
theorem readField_of_readField {field : SettingField} {given v : Value}
    (read : readField field given = .ok v) : readField field v = .ok v := by
  cases field with
  | alert =>
    obtain ⟨c, isAlert, rfl⟩ := map_eq_ok_iff.mp read
    simp only [readField, readChoice_choice _ (family_of_readChoice isAlert)]
    rfl
  | steps which =>
    obtain ⟨steps, _, rfl⟩ := map_eq_ok_iff.mp read
    exact readField_stepsValue which steps
  | _ =>
    obtain ⟨n, isNumber, rfl⟩ := map_eq_ok_iff.mp read
    have number : (Value.ofNumber n).IsNumber := ⟨n, (readNumber_eq_ok_iff.mp isNumber).2, rfl⟩
    exact readField_of_isNumber number (by rintro _ ⟨⟩) (by rintro ⟨⟩)

namespace Settings

variable {s t live : Settings} {v : Value} {entry : Value × Value}
  {entries others : List (Value × Value)}

theorem ext_get (same : ∀ field, s.get field = t.get field) (sharing : s.sharing = t.sharing) :
    s = t := by
  calc
    s = s.withFields (SettingField.all.map fun field => (field, s.get field)) :=
      (withFields_get s s).symm
    _ = s.withFields (SettingField.all.map fun field => (field, t.get field)) := by simp only [same]
    _ = { t with sharing := s.sharing } := withFields_get s t
    _ = t := by rw [sharing]

theorem isField_iff {key : Value} : isField key = true ↔ ∃ field : SettingField, key = .text field.name := by
  cases key with
  | text name =>
    constructor
    · intro known
      obtain ⟨field, found⟩ := Option.isSome_iff_exists.mp known
      exact ⟨field, congrArg _ (SettingField.name_of_ofName? found).symm⟩
    · rintro ⟨field, same⟩
      cases same
      exact Option.isSome_iff_exists.mpr ⟨field, SettingField.ofName?_name field⟩
  | _ => exact iff_of_false nofun nofun

/-- Coercion leaves a configuration as it is that was filled with what coercion yields. -/
theorem build_withFields {contents : List (SettingField × Value)} (settled : build live = .ok live)
    (isRead : readFields v = .ok contents) :
    build (live.withFields contents) = .ok (live.withFields contents) := by
  obtain ⟨entries, _, isRead⟩ := exists_readEntries_of_readFields isRead
  let isSettled (field : SettingField) (content : Value) : Prop := readField field content = .ok content
  have reads : ∀ entry ∈ entries, ∀ field content, readField field entry.2 = .ok content →
      isSettled field content := fun _ _ _ _ => readField_of_readField
  obtain ⟨before, alone⟩ := build_eq_ok_iff.mp settled
  have after (field : SettingField) : isSettled field ((live.withFields contents).get field) :=
    forall_withFields before (forall_of_readEntries reads isRead) field
  exact build_eq_ok_iff.mpr ⟨after, (sharing_withFields live contents).trans alone⟩

/-- Entries are merged over a configuration: all of them name fields, a field that is named holds what
it makes of its content, and the other fields hold what they held. -/
structure Merges (s live : Settings) (entries : List (Value × Value)) : Prop where
  known : ∀ entry ∈ entries, ∃ field : SettingField, entry.1 = .text field.name
  named : ∀ (field : SettingField) (content : Value), (.text field.name, content) ∈ entries →
    readField field content = .ok (s.get field)
  others : ∀ field : SettingField, (∀ content, (.text field.name, content) ∉ entries) →
    s.get field = live.get field
  sharing : s.sharing = live.sharing

/-- The order of the entries does not matter. -/
theorem Merges.perm (merges : s.Merges live entries) (perm : entries.Perm others) :
    s.Merges live others where
  known entry member := merges.known entry (perm.mem_iff.mpr member)
  named field content member := merges.named field content (perm.mem_iff.mpr member)
  others field missing := merges.others field fun content member =>
    missing content (perm.mem_iff.mp member)
  sharing := merges.sharing

theorem merges_nil_iff : s.Merges live [] ↔ s = live := by
  constructor
  · intro merges
    exact ext_get (fun field => merges.others field fun _ => List.not_mem_nil) merges.sharing
  · rintro rfl
    exact ⟨List.forall_mem_nil _, fun _ _ member => absurd member List.not_mem_nil, fun _ _ => rfl, rfl⟩

/-- An entry is merged first and the others over it. -/
theorem merges_cons_iff (once : Value.OnceNamed (entry :: entries)) : s.Merges live (entry :: entries) ↔
    ∃ (field : SettingField) (content : Value), entry.1 = .text field.name ∧
      readField field entry.2 = .ok content ∧ s.Merges (live.set field content) entries := by
  obtain ⟨apart, _⟩ := List.pairwise_cons.mp once
  constructor
  · intro merges
    obtain ⟨known, othersKnown⟩ := List.forall_mem_cons.mp merges.known
    obtain ⟨field, isName⟩ := known
    have member : (.text field.name, entry.2) ∈ entry :: entries := by
      rw [← isName]
      exact List.mem_cons_self
    refine ⟨field, s.get field, isName, merges.named _ _ member, ?_⟩
    refine ⟨othersKnown, fun other content among =>
      merges.named other content (List.mem_cons_of_mem _ among), fun other missing => ?_,
      merges.sharing.trans (SettingsOf.sharing_set ..).symm⟩
    by_cases same : other = field
    · rw [same, SettingsOf.get_set_self]
    · rw [SettingsOf.get_set_of_ne _ _ same]
      refine merges.others other fun content among => ?_
      rcases List.mem_cons.mp among with rfl | among
      · exact same (SettingField.name_injective (Value.text.inj isName))
      · exact missing content among
  · rintro ⟨field, content, isName, read, merges⟩
    have notAgain (content : Value) : (.text field.name, content) ∉ entries :=
      fun among => apart _ among _ isName rfl
    have holds : s.get field = content :=
      (merges.others field notAgain).trans (SettingsOf.get_set_self live field content)
    refine ⟨List.forall_mem_cons.mpr ⟨⟨field, isName⟩, merges.known⟩, ?_, ?_,
      merges.sharing.trans (SettingsOf.sharing_set ..)⟩
    · intro other given member
      rcases List.mem_cons.mp member with rfl | among
      · obtain rfl := SettingField.name_injective (Value.text.inj isName)
        rwa [holds]
      · exact merges.named other given among
    · intro other missing
      have differs : other ≠ field := by
        rintro rfl
        refine missing entry.2 ?_
        rw [← isName]
        exact List.mem_cons_self
      rw [merges.others other fun given among => missing given (List.mem_cons_of_mem _ among),
        SettingsOf.get_set_of_ne _ _ differs]

/-- What was merged over a configuration that coercion leaves as it is, is left as it is. -/
theorem Merges.build (merges : s.Merges live entries) (settled : Settings.build live = .ok live) :
    Settings.build s = .ok s := by
  obtain ⟨before, alone⟩ := build_eq_ok_iff.mp settled
  refine build_eq_ok_iff.mpr ⟨fun field => ?_, merges.sharing.trans alone⟩
  by_cases named : ∃ content, (.text field.name, content) ∈ entries
  · obtain ⟨content, member⟩ := named
    exact readField_of_readField (merges.named field content member)
  · rw [merges.others field fun content member => named ⟨content, member⟩]
    exact before field

/-! ## Reading merges -/

/-- The entries are read one by one, each into the field that it names. -/
theorem exists_readEntries_iff (once : Value.OnceNamed entries) :
    ((∀ entry ∈ entries, isField entry.1 = true) ∧
      ∃ contents, readEntries entries = .ok contents ∧ live.withFields contents = s) ↔
        s.Merges live entries := by
  induction entries generalizing live with
  | nil =>
    rw [merges_nil_iff]
    constructor
    · rintro ⟨_, _, ⟨⟩, rfl⟩
      rfl
    · rintro rfl
      exact ⟨List.forall_mem_nil _, [], rfl, rfl⟩
  | cons entry rest ih =>
    obtain ⟨key, given⟩ := entry
    have ih := fun live : Settings => @ih live (List.pairwise_cons.mp once).2
    rw [merges_cons_iff once, List.forall_mem_cons, isField_iff]
    have reads (field : SettingField) : readEntries ((.text field.name, given) :: rest) = (do
        let content ← readField field given
        let contents ← readEntries rest
        return (field, content) :: contents) := by
      simp only [readEntries, SettingField.ofName?_name]
    constructor
    · rintro ⟨⟨⟨field, isName⟩, known⟩, contents, read, rfl⟩
      obtain rfl : key = _ := isName
      simp only [reads, bind_eq_ok_iff, pure_eq_ok_iff] at read
      obtain ⟨content, readContent, others, readOthers, rfl⟩ := read
      exact ⟨field, content, rfl, readContent, (ih _).mp ⟨known, others, readOthers, rfl⟩⟩
    · rintro ⟨field, content, isName, readContent, merges⟩
      obtain rfl : key = _ := isName
      obtain ⟨known, others, readOthers, filled⟩ := (ih _).mpr merges
      refine ⟨⟨⟨field, rfl⟩, known⟩, (field, content) :: others, ?_, filled⟩
      simp only [reads, bind_eq_ok_iff, pure_eq_ok_iff]
      exact ⟨content, readContent, others, readOthers, rfl⟩

theorem exists_readFields_iff (isMap : v.entries? = some entries) (once : Value.OnceNamed entries) :
    (∃ contents, readFields v = .ok contents ∧ live.withFields contents = s) ↔
      s.Merges live entries := by
  rw [← exists_readEntries_iff once, readFields, isMap]
  dsimp only
  split
  · next known =>
    have allKnown : ∀ entry ∈ entries, isField entry.1 = true := by
      intro entry member
      have kept := List.filter_eq_nil_iff.mp known entry.1 (List.mem_map_of_mem member)
      simpa using kept
    exact ⟨fun read => ⟨allKnown, read⟩, fun read => read.2⟩
  · next unknown =>
    refine iff_of_false ?_ ?_
    · rintro ⟨contents, read, _⟩
      unfold refuseUnknown at read
      split at read <;> cases read
    · rintro ⟨allKnown, _⟩
      refine unknown (List.filter_eq_nil_iff.mpr (List.forall_mem_map.mpr ?_))
      intro entry member
      rw [allKnown entry member]
      decide

/-- What is read from a mapping is merged over the defaults. -/
theorem read_eq_ok_iff (isMap : v.entries? = some entries) (once : Value.OnceNamed entries) :
    read v = .ok s ↔ s.Merges defaults entries := by
  rw [read, bind_eq_ok_iff, ← exists_readFields_iff isMap once]
  refine exists_congr fun contents => and_congr_right fun isRead => ?_
  rw [build_withFields defaults_canonical.build isRead, Except.ok.injEq]

/-- An update merges its entries over the configuration in force and has to leave it valid. -/
theorem merged_eq_ok_iff (settled : build live = .ok live) (once : Value.OnceNamed entries) :
    (live.merged entries).map Prod.snd = .ok s ↔ s.Merges live entries ∧ s.Valid := by
  have isMap : (Value.map entries).entries? = some entries := rfl
  simp only [← exists_readFields_iff isMap once, merged, map_eq_ok_iff, ↓check_eq_ok_iff,
    bind_eq_ok_iff, pure_eq_ok_iff]
  constructor
  · rintro ⟨_, ⟨contents, isRead, candidate, built, valid, rfl⟩, rfl⟩
    obtain rfl := Except.ok.inj ((build_withFields settled isRead).symm.trans built)
    exact ⟨⟨contents, isRead, rfl⟩, valid⟩
  · rintro ⟨⟨contents, isRead, rfl⟩, valid⟩
    exact ⟨_, ⟨contents, isRead, _, build_withFields settled isRead, valid, rfl⟩, rfl⟩

/-! ## Merging twice -/

/-- Another entry is entered among those that are merged. -/
theorem Merges.insert (merges : s.Merges live entries) {field : SettingField} {given content : Value}
    (read : readField field given = .ok content) :
    Merges (s.set field content) live (Value.insert entries (.text field.name) given) := by
  refine ⟨?_, ?_, ?_, (SettingsOf.sharing_set ..).trans merges.sharing⟩
  · let isName (key : Value) : Prop := ∃ field : SettingField, key = .text field.name
    let isAny (_ : Value) : Prop := True
    have known : ∀ entry ∈ entries, isName entry.1 ∧ isAny entry.2 :=
      fun entry member => ⟨merges.known entry member, trivial⟩
    have new : isName (.text field.name) := ⟨field, rfl⟩
    have any : isAny given := trivial
    intro entry member
    exact (Value.forall_mem_insert known new any entry member).1
  · intro other value member
    rw [Value.mem_insert_text_iff] at member
    split at member
    · next sameName =>
      obtain rfl := SettingField.name_injective sameName
      obtain rfl := member
      rwa [SettingsOf.get_set_self]
    · next differs =>
      rw [SettingsOf.get_set_of_ne _ _ fun same => differs (congrArg _ same)]
      exact merges.named other value member
  · intro other missing
    have differs : other.name ≠ field.name := by
      intro same
      refine missing given ?_
      rw [Value.mem_insert_text_iff, if_pos same]
    rw [SettingsOf.get_set_of_ne _ _ fun same => differs (congrArg _ same)]
    refine merges.others other fun value member => missing value ?_
    rwa [Value.mem_insert_text_iff, if_neg differs]

/-- Merging entries, and named contents over the result, comes to merging both at once. -/
theorem Merges.trans {named : List (String × Value)} (nodup : (named.map Prod.fst).Nodup)
    (first : s.Merges live entries)
    (second : t.Merges s (named.map fun (name, content) => (.text name, content))) :
    t.Merges live (named.foldl (fun entries (name, content) =>
      Value.insert entries (.text name) content) entries) := by
  induction named generalizing s entries with
  | nil =>
    obtain rfl := merges_nil_iff.mp second
    exact first
  | cons head rest ih =>
    obtain ⟨name, given⟩ := head
    obtain ⟨field, content, isName, read, later⟩ := (merges_cons_iff (.of_nodup nodup)).mp second
    obtain rfl : name = field.name := Value.text.inj isName
    exact ih (List.nodup_cons.mp nodup).2 (first.insert read) later

end Settings

end TrainingCollar
