import Mathlib.Data.List.Basic
import TrainingCollar.CommandLine

/-! # Names among arguments

An argument names a file unless it looks like an option. A name that one command takes is taken by every
command that has no other options (`positional_of_subset`), so what the defaults were written to can be
checked under the same name (`read_validate_of_init`).
-/

namespace TrainingCollar.CommandLine

variable {switches : Switches} {takes taken : Bool} {given after : Given} {command : Command}
  {file : String} {force : Bool} {args : List String} {request : Request}

/-! ## What an argument is taken for -/

/-- Which options an argument could be depends on each option alone. -/
theorem candidates_eq (arg : List Char) : ∃ (fits : String × Switch → Bool) (attached : List Char),
    ∀ switches, candidates switches arg =
      (switches.filter fits).map fun (_, switch) => .option switch attached := by
  unfold candidates
  split
  · exact ⟨_, _, fun switches => rfl⟩
  · exact ⟨_, _, fun switches => rfl⟩
  · refine ⟨fun _ => false, [], fun switches => ?_⟩
    rw [List.filter_false, List.map_nil]

theorem exists_of_mem_candidates {arg : List Char} {found : Argument}
    (member : found ∈ candidates switches arg) : ∃ switch attached, found = .option switch attached := by
  obtain ⟨fits, attached, same⟩ := candidates_eq arg
  rw [same] at member
  obtain ⟨⟨_, switch⟩, _, rfl⟩ := List.mem_map.mp member
  exact ⟨switch, attached, rfl⟩

/-- An argument is taken for a name unless it has a dash in front and something after it. Then it must
look like no option at all, and either be a negative number or have a space in it. -/
theorem classify_eq_positional_iff {arg : List Char} : classify switches arg = .positional ↔
    ∀ letter rest, arg = '-' :: letter :: rest → named? switches (splitEquals arg).1 = none ∧
      candidates switches arg = [] ∧ (isNegativeNumber arg || arg.contains ' ') = true := by
  unfold classify
  split
  · next letter rest =>
    dsimp only
    -- There is only one way to take the argument apart.
    have alone (P : Prop) : (∀ other others, '-' :: letter :: rest = '-' :: other :: others → P) ↔ P :=
      ⟨fun all => all _ _ rfl, fun holds _ _ _ => holds⟩
    rw [alone]
    cases isNamed : named? switches (splitEquals ('-' :: letter :: rest)).1 with
    | some switch => exact iff_of_false nofun fun absent => nomatch absent.1
    | none =>
      cases others : candidates switches ('-' :: letter :: rest) with
      | cons found more =>
        obtain ⟨switch, attached, rfl⟩ := exists_of_mem_candidates (others ▸ List.mem_cons_self)
        exact iff_of_false nofun fun absent => nomatch absent.2.1
      | nil =>
        dsimp only
        split
        · next holds => exact iff_of_true rfl ⟨rfl, rfl, holds⟩
        · next fails => exact iff_of_false nofun fun absent => fails absent.2.2
  · next other => exact iff_of_true rfl fun letter rest same => absurd same (other letter rest)

/-- The name of a file is taken for no option if it has no dash in front. -/
theorem classify_of_plain (switches : Switches) {arg : List Char} (plain : arg.head? ≠ some '-') :
    classify switches arg = .positional := by
  unfold classify
  split
  · exact absurd rfl plain
  · rfl

/-- Where there are fewer options, what was taken for a name still is. -/
theorem positional_of_subset {fewer : Switches} {arg : List Char} (subset : fewer ⊆ switches)
    (positional : classify switches arg = .positional) : classify fewer arg = .positional := by
  rw [classify_eq_positional_iff] at positional ⊢
  intro letter rest same
  obtain ⟨isNone, nothing, odd⟩ := positional letter rest same
  refine ⟨?_, ?_, odd⟩
  · rw [named?, Option.map_eq_none_iff, List.find?_eq_none] at isNone ⊢
    exact fun switch member => isNone switch (subset member)
  · obtain ⟨fits, attached, same⟩ := candidates_eq arg
    rw [same, List.map_eq_nil_iff, List.filter_eq_nil_iff] at nothing ⊢
    exact fun switch member => nothing switch (subset member)

/-- Where there is an option for help, no name starts with two dashes that belong to no option. -/
theorem splitEquals_ne_of_positional {arg : List Char} (help : ("--help", .help) ∈ switches)
    (positional : classify switches arg = .positional) : (splitEquals arg).1 ≠ ['-', '-'] := by
  intro dashes
  have whole := splitEquals_append arg
  rw [dashes] at whole
  obtain ⟨_, nothing, _⟩ := classify_eq_positional_iff.mp positional '-' _ whole.symm
  rw [← whole] at nothing dashes
  simp only [candidates, List.cons_append, List.nil_append] at nothing dashes
  rw [List.map_eq_nil_iff, List.filter_eq_nil_iff, dashes] at nothing
  exact nothing _ help (by decide)

theorem ne_mark_of_positional (help : ("--help", .help) ∈ switches)
    (positional : classify switches file.toList = .positional) : file ≠ "--" := by
  rintro rfl
  exact splitEquals_ne_of_positional help positional rfl

theorem not_isUnclear_of_positional (help : ("--help", .help) ∈ switches)
    (positional : classify switches file.toList = .positional) : isUnclear file = false := by
  refine Bool.eq_false_iff.mpr fun unclear => splitEquals_ne_of_positional help positional ?_
  obtain ⟨rest, same⟩ := List.isPrefixOf_iff_prefix.mp unclear
  rw [← same]
  rfl

/-! ## The arguments of a command -/

/-- The arguments of a command that takes one file, if there is one argument: the file is named by the
argument, or it is not named at all. -/
theorem readArguments_one {arg : String}
    (isGiven : readArguments switches true false ⟨[], none, false⟩ [arg] = .ok given) :
    given.file = none ∨ given = ⟨[], some arg, false⟩ := by
  unfold readArguments at isGiven
  split at isGiven
  · cases isGiven
    exact .inl rfl
  · split at isGiven
    · cases isGiven
      exact .inr rfl
    · cases isGiven
      exact .inl rfl
    · split at isGiven
      · cases isGiven
      · split at isGiven
        · cases isGiven
        · next effect _ _ =>
          cases taken : effect.taken with
          | _ =>
            rw [taken] at isGiven
            cases isGiven
            exact .inl rfl

theorem readArguments_positional
    (positional : classify switches file.toList = .positional) (notMark : file ≠ "--") :
    readArguments switches true false ⟨[], none, false⟩ [file] = .ok ⟨[], some file, false⟩ := by
  unfold readArguments
  rw [if_neg notMark, positional]
  rfl

/-- The file that has been read from arguments without two dashes was taken for a name. -/
theorem positional_of_readArguments (noMark : "--" ∉ args)
    (before : ∀ name, given.file = some name → classify switches name.toList = .positional)
    (isGiven : readArguments switches takes taken given args = .ok after) :
    ∀ name, after.file = some name → classify switches name.toList = .positional := by
  induction args generalizing taken given with
  | nil =>
    unfold readArguments at isGiven
    cases isGiven
    exact before
  | cons arg rest ih =>
    obtain ⟨differs, noMark⟩ := List.ne_and_not_mem_of_not_mem_cons noMark
    cases taken with
    | true =>
      unfold readArguments at isGiven
      exact ih noMark before isGiven
    | false =>
      unfold readArguments at isGiven
      rw [if_neg differs.symm] at isGiven
      split at isGiven
      · next positional =>
        have named : ∀ name, some arg = some name → classify switches name.toList = .positional := by
          rintro _ ⟨⟩
          exact positional
        split at isGiven
        · split at isGiven
          · exact absurd List.mem_cons_self noMark
          · exact ih noMark named isGiven
        · refine ih noMark ?_ isGiven
          exact before
      -- No other argument names a file.
      · refine ih noMark ?_ isGiven
        exact before
      · split at isGiven
        · cases isGiven
        · split at isGiven
          · cases isGiven
          · refine ih noMark ?_ isGiven
            exact before

theorem complete_eq_init (completed : complete command given = .ok (.init file force)) :
    given.file = some file ∧ commandSwitches command = commandSwitches (.init file force) := by
  unfold complete at completed
  split at completed
  · cases completed
  · cases completed
  · next named =>
    cases completed
    exact ⟨named, rfl⟩
  · cases completed

theorem positional_of_readCommand {name : String} {surplus : Bool} (noMark : "--" ∉ args)
    (isRead : readCommand name args = .ok (.init file force, surplus)) :
    classify (commandSwitches (.init "" false)) file.toList = .positional := by
  unfold readCommand at isRead
  split at isRead
  · cases isRead
  · next command _ =>
    cases isGiven :
        readArguments (commandSwitches command) (takesFile command) false ⟨[], none, false⟩ args with
    | error stop =>
      rw [isGiven] at isRead
      cases isRead
    | ok given =>
      rw [isGiven] at isRead
      cases completed : complete command given with
      | error stop =>
        simp only [bind, Except.bind, completed] at isRead
        cases isRead
      | ok completedCommand =>
        simp only [bind, Except.bind, completed] at isRead
        cases isRead
        obtain ⟨named, same⟩ := complete_eq_init completed
        rw [same] at isGiven
        exact positional_of_readArguments noMark (by rintro _ ⟨⟩) isGiven file named

theorem positional_of_readProgram {verbose surplus : Bool} (noMark : "--" ∉ args)
    (asked : readProgram verbose surplus args = .ok request) (writes : request.command = .init file force) :
    classify (commandSwitches (.init "" false)) file.toList = .positional := by
  induction args generalizing verbose surplus with
  | nil => cases asked
  | cons arg rest ih =>
    obtain ⟨differs, noMark⟩ := List.ne_and_not_mem_of_not_mem_cons noMark
    unfold readProgram at asked
    rw [if_neg differs.symm] at asked
    split at asked
    · cases isRead : readCommand arg rest with
      | error stop =>
        rw [isRead] at asked
        cases asked
      | ok command =>
        obtain ⟨command, more⟩ := command
        simp only [isRead, bind, Except.bind] at asked
        split at asked
        · cases asked
        · cases asked
          obtain rfl : command = .init file force := writes
          exact positional_of_readCommand noMark isRead
    · exact ih noMark asked
    · split at asked
      · cases asked
      · split at asked
        · cases asked
        · exact ih noMark asked

/-! ## Checking a file -/

theorem readProgram_validate (file : String) : readProgram false false ["validate", file] =
    (do
      let given ← readArguments (commandSwitches (.validate "")) true false ⟨[], none, false⟩ [file]
      let command ← complete (.validate "") given
      if given.surplus then .error .usage else return ⟨false, command⟩) := by
  show (readArguments (commandSwitches (.validate "")) true false ⟨[], none, false⟩ [file] >>=
    fun given => complete (.validate "") given >>= fun command => pure (command, given.surplus)) >>=
    _ = _
  simp only [bind_assoc, pure_bind, Bool.false_or]

/-- The command that checks a file gets as far as the file if the name is taken for one. -/
theorem read_validate_of_positional
    (positional : classify (commandSwitches (.validate "")) file.toList = .positional) :
    read ["validate", file] = .ok ⟨false, .validate file⟩ := by
  have help : ("--help", .help) ∈ commandSwitches (.validate "") := by decide
  have clear : ¬(["validate", file].takeWhile (· != "--")).any isUnclear = true := by
    intro unclear
    obtain ⟨arg, member, isUnclear⟩ := List.any_eq_true.mp unclear
    rcases List.mem_pair.mp ((List.takeWhile_prefix _).subset member) with rfl | rfl
    · exact absurd isUnclear (by decide +kernel)
    · exact Bool.false_ne_true ((not_isUnclear_of_positional help positional).symm.trans isUnclear)
  have given := readArguments_positional positional (ne_mark_of_positional help positional)
  rw [read, if_neg clear, readProgram_validate, given]
  rfl

theorem read_validate (plain : file.toList.head? ≠ some '-') :
    read ["validate", file] = .ok ⟨false, .validate file⟩ :=
  read_validate_of_positional (classify_of_plain _ plain)

/-- Whatever the name, the arguments ask for the file with that name or are refused. -/
theorem eq_of_read_validate (asked : read ["validate", file] = .ok request) :
    request = ⟨false, .validate file⟩ := by
  unfold read at asked
  split at asked
  · cases asked
  · rw [readProgram_validate] at asked
    cases isGiven :
        readArguments (commandSwitches (.validate "")) true false ⟨[], none, false⟩ [file] with
    | error stop =>
      rw [isGiven] at asked
      cases asked
    | ok given =>
      rw [isGiven] at asked
      rcases readArguments_one isGiven with noFile | rfl
      · obtain ⟨settings, named, surplus⟩ := given
        cases noFile
        cases asked
      · cases asked
        rfl

/-- A file that the defaults can be written to can be checked under the same name. -/
theorem read_validate_of_init (noMark : "--" ∉ args) (asked : read args = .ok request)
    (writes : request.command = .init file force) :
    read ["validate", file] = .ok ⟨false, .validate file⟩ := by
  have fewer : commandSwitches (.validate "") ⊆ commandSwitches (.init "" false) := by decide
  refine read_validate_of_positional (positional_of_subset fewer ?_)
  unfold read at asked
  split at asked
  · cases asked
  · exact positional_of_readProgram noMark asked writes

end TrainingCollar.CommandLine
