import MullXCTest.RunFile.PlistCommands

/-!
# Edits and commands

A property list represents the test targets of a run file where each of its entries holds
what the target says. On such a property list each command does what its edit does to the
targets, or fails and leaves it as it is.
-/

namespace MullXCTest.RunFile

open EntryTree

/-- The entry of a test target. What stands at the keys that no edit is about is known by its
text. -/
structure RepresentsTarget (text : PlistTree → String) (target : TestTarget)
    (entry : Option PlistTree) : Prop where
  dictionaries : ∀ key, Clear ["TestingEnvironmentVariables", key] entry
  blueprintName : find ["BlueprintName"] entry = target.blueprintName.map stringEntry
  environment : ∀ key, find ["TestingEnvironmentVariables", key] entry =
    (target.environment key).map stringEntry
  others : ∀ key, key ≠ "BlueprintName" → key ≠ "TestingEnvironmentVariables" →
    (find [key] entry).map text = target.others.lookup key

/-- A dictionary in which every entry is that of a test target. -/
structure Represents (text : PlistTree → String) (file : Plist) (root : PlistTree) : Prop where
  dictionary : ∃ entries, root = .dict entries
  targets : ∀ name, Option.Rel (fun target entry => RepresentsTarget text target (some entry))
    (file.lookup name) (find [name] (some root))

section Targets

variable {text : PlistTree → String} {target : TestTarget} {entry : Option PlistTree}

theorem representsTarget_none : RepresentsTarget text {} none where
  dictionaries _ := clear_none _
  blueprintName := find_none _
  environment _ := find_none _
  others key _ _ := by
    rw [find_none]
    rfl

theorem RepresentsTarget.addVariable (represents : RepresentsTarget text target entry)
    (key : String) :
    RepresentsTarget text (target.addVariable key)
      (some (put (stringEntry "1") ["TestingEnvironmentVariables", key] entry)) where
  dictionaries other := by
    change Clear [other] (Function.update (entries entry) _ _ _)
    rw [Function.update_self]
    trivial
  blueprintName := by
    rw [find_put_ne _ (by decide), represents.blueprintName]
    rfl
  environment other := by
    by_cases h : other = key
    · subst h
      rw [find_put, TestTarget.environment_addVariable]
      rfl
    · rw [find_put_cons, find_put_ne _ h, TestTarget.environment_addVariable_ne _ h,
        ← represents.environment]
      rfl
  others other hname henv := by
    rw [find_put_ne _ henv, represents.others other hname henv]
    rfl

theorem RepresentsTarget.rename (represents : RepresentsTarget text target entry) (name : String) :
    RepresentsTarget text (target.rename name)
      (some (put (stringEntry name) ["BlueprintName"] entry)) where
  dictionaries key := clear_put_ne _ (by decide) (represents.dictionaries key)
  blueprintName := find_put ..
  environment key := by
    rw [find_put_ne _ (by decide), represents.environment]
    rfl
  others other hname henv := by
    rw [find_put_ne _ hname, represents.others other hname henv]
    rfl

end Targets

section Files

variable {text : PlistTree → String} {file : Plist} {root : PlistTree}

/-- A write below a top-level entry, and the target that is represented there by then. -/
theorem Represents.insert (represents : Represents text file root) {name : String}
    {target : TestTarget} {value : PlistTree} {path : KeyPath}
    (h : RepresentsTarget text target (some (put value path (find [name] (some root))))) :
    Represents text (file.insert name target) (put value (name :: path) (some root)) where
  dictionary := ⟨_, rfl⟩
  targets other := by
    by_cases hname : other = name
    · subst hname
      rw [AList.lookup_insert, find_put_cons]
      exact .some h
    · rw [AList.lookup_insert_ne hname, find_put_ne _ hname]
      exact represents.targets other

theorem Represents.erase (represents : Represents text file root) {name : String}
    {root' : PlistTree} (h : EntryTree.erase [name] (some root) = some root') :
    Represents text (file.erase name) root' where
  dictionary := ⟨_, (Option.some.inj h).symm⟩
  targets other := by
    rw [← h]
    by_cases hname : other = name
    · subst hname
      rw [AList.lookup_erase, find_erase]
      exact .none
    · rw [AList.lookup_erase_ne hname, find_erase_ne hname]
      exact represents.targets other

/-- What is found under a name is the entry of the target with the name. -/
theorem Represents.lookup (represents : Represents text file root) {name : String}
    {entry : PlistTree} (h : find [name] (some root) = some entry) :
    ∃ target, file.lookup name = some target ∧ RepresentsTarget text target (some entry) := by
  have hrel := represents.targets name
  rw [h] at hrel
  cases hlookup : file.lookup name with
  | none =>
      rw [hlookup] at hrel
      cases hrel
  | some target =>
      rw [hlookup] at hrel
      cases hrel with
      | some hentry => exact ⟨target, rfl, hentry⟩

/-- A target of the file has its entry. -/
theorem Represents.exists_entry (represents : Represents text file root) {name : String}
    {target : TestTarget} (h : file.lookup name = some target) :
    ∃ entry, find [name] (some root) = some entry ∧ RepresentsTarget text target (some entry) := by
  have hrel := represents.targets name
  rw [h] at hrel
  cases hfind : find [name] (some root) with
  | none =>
      rw [hfind] at hrel
      cases hrel
  | some entry =>
      rw [hfind] at hrel
      cases hrel with
      | some hentry => exact ⟨entry, rfl, hentry⟩

/-- There is no entry for a name that the file does not have. -/
theorem Represents.find_eq_none (represents : Represents text file root) {name : String}
    (h : file.lookup name = none) : find [name] (some root) = none := by
  have hrel := represents.targets name
  rw [h] at hrel
  cases hfind : find [name] (some root) with
  | none => rfl
  | some entry =>
      rw [hfind] at hrel
      cases hrel

/-- A missing entry reads as that of a target without anything. -/
theorem Represents.getD (represents : Represents text file root) (name : String) :
    RepresentsTarget text ((file.lookup name).getD {}) (find [name] (some root)) := by
  cases hlookup : file.lookup name with
  | none =>
      rw [represents.find_eq_none hlookup]
      exact representsTarget_none
  | some target =>
      obtain ⟨entry, hfind, hentry⟩ := represents.exists_entry hlookup
      rw [hfind]
      exact hentry

/-- Where a property list represents a run file, the commands are about dictionaries and strings. -/
theorem Represents.regular (represents : Represents text file root) (edit : Edit) :
    edit.plistCommand.Regular root := by
  obtain ⟨entries, rfl⟩ := represents.dictionary
  cases edit with
  | duplicateTestTarget src new => exact ⟨trivial, entries, rfl⟩
  | addEnvironmentVariable target key => exact (represents.getD target).dictionaries key
  | setBlueprintName target name =>
      have htarget := represents.getD target
      refine ⟨(htarget.dictionaries "").single, ?_⟩
      intro found hfound
      have hname := htarget.blueprintName.symm.trans hfound
      obtain ⟨old, -, rfl⟩ := Option.map_eq_some_iff.mp hname
      exact ⟨old, rfl⟩
  | deleteTestTarget target => trivial

/-- A command that succeeds does what its edit does. -/
theorem Represents.effect (represents : Represents text file root) {edit : Edit}
    {root' : PlistTree} (h : edit.plistCommand.Effect root root') :
    Represents text (edit.apply file) root' := by
  cases edit with
  | duplicateTestTarget src new =>
      cases h with
      | copy there =>
          obtain ⟨target, hlookup, hentry⟩ := represents.lookup there
          rw [Edit.apply, hlookup]
          exact represents.insert hentry
  | addEnvironmentVariable target key =>
      cases h with
      | add =>
          apply represents.insert
          exact (represents.getD target).addVariable key
  | setBlueprintName target name =>
      cases h with
      | set there =>
          obtain ⟨entry, hentry⟩ : ∃ entry, find [target] (some root) = some entry := by
            rw [← Option.ne_none_iff_exists']
            intro hnone
            have hmissing : find [target, "BlueprintName"] (some root) =
                find ["BlueprintName"] (find [target] (some root)) := rfl
            rw [hmissing, hnone, find_none] at there
            cases there
          obtain ⟨found, hlookup, hrepresents⟩ := represents.lookup hentry
          rw [Edit.apply, modify, hlookup]
          apply represents.insert
          rw [hentry]
          exact hrepresents.rename name
  | deleteTestTarget target =>
      cases h with
      | delete erased => exact represents.erase erased

variable {plistBuddy : PlistBuddy}

/-- A command, whatever becomes of it, does what its edit does, which may have failed. -/
theorem Represents.runCommand (represents : Represents text file root)
    (documented : Documented plistBuddy) {edit : Edit} (hplain : edit.Plain) (kept : Bool) :
    Represents text (edit.run (kept || (plistBuddy edit.command root).isNone) file)
      (RunFile.runCommand plistBuddy kept edit.command root) := by
  cases kept with
  | true => exact represents
  | false =>
      rw [RunFile.runCommand]
      cases h : plistBuddy edit.command root with
      | none => exact represents
      | some root' =>
          exact represents.effect
            (documented _ _ _ _ (readCommand_command hplain) (named_plistCommand hplain)
              (represents.regular edit) h)

end Files

end MullXCTest.RunFile
