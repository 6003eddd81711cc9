import Mathlib.Data.List.AList

/-!
# The test targets of a run file

An xctestrun plist as far as the tools touch it: its top-level entries with their
blueprint name and environment. An edit that succeeds acts on exactly the entry
that it names; an edit that fails leaves the file as it was.
-/

namespace MullXCTest.RunFile

/-- A top-level entry. `others` are the keys that no edit is about. -/
structure TestTarget where
  blueprintName : Option String := none
  testingEnvironmentVariables : AList fun _ : String => String := ∅
  others : List (String × String) := []

/-- The top-level entries of a run file. -/
abbrev Plist := AList fun _ : String => TestTarget

/-- The edits of `XCTestRunFile`. `addEnvironmentVariable` always writes the value 1. -/
inductive Edit
  | duplicateTestTarget (srcTargetName newTargetName : String)
  | addEnvironmentVariable (targetName key : String)
  | setBlueprintName (targetName name : String)
  | deleteTestTarget (targetName : String)

namespace TestTarget

def addVariable (key : String) (target : TestTarget) : TestTarget :=
  { target with
    testingEnvironmentVariables := target.testingEnvironmentVariables.insert key "1" }

def rename (name : String) (target : TestTarget) : TestTarget :=
  { target with blueprintName := some name }

/-- The environment variables of a target as a function. -/
def environment (target : TestTarget) (key : String) : Option String :=
  target.testingEnvironmentVariables.lookup key

@[simp] theorem environment_rename (target : TestTarget) (name key : String) :
    (target.rename name).environment key = target.environment key := rfl

@[simp] theorem others_rename (target : TestTarget) (name : String) :
    (target.rename name).others = target.others := rfl

@[simp] theorem others_addVariable (target : TestTarget) (key : String) :
    (target.addVariable key).others = target.others := rfl

@[simp] theorem environment_addVariable (target : TestTarget) (key : String) :
    (target.addVariable key).environment key = some "1" :=
  AList.lookup_insert _

theorem environment_addVariable_ne (target : TestTarget) {key key' : String} (h : key' ≠ key) :
    (target.addVariable key).environment key' = target.environment key' :=
  AList.lookup_insert_ne h

end TestTarget

/-- Changes an entry that is there. -/
def modify (file : Plist) (name : String) (f : TestTarget → TestTarget) : Plist :=
  match file.lookup name with
  | none => file
  | some target => file.insert name (f target)

/-- An edit that succeeds. `Add` makes the dictionaries on the way to its entry where they are
missing. -/
def Edit.apply (file : Plist) : Edit → Plist
  | .duplicateTestTarget srcTargetName newTargetName =>
      match file.lookup srcTargetName with
      | none => file
      | some target => file.insert newTargetName target
  | .addEnvironmentVariable targetName key =>
      file.insert targetName (((file.lookup targetName).getD {}).addVariable key)
  | .setBlueprintName targetName name => modify file targetName (.rename name)
  | .deleteTestTarget targetName => file.erase targetName

/-- An edit, and whether it fails. -/
def Edit.run (fails : Bool) (file : Plist) (edit : Edit) : Plist :=
  if fails then file else edit.apply file

section Lookup

variable {file : Plist}

theorem lookup_modify (name : String) (f : TestTarget → TestTarget) :
    (modify file name f).lookup name = (file.lookup name).map f := by
  unfold modify
  cases h : file.lookup name with
  | none => simp [h]
  | some target => simp

theorem lookup_modify_ne {name other : String} (f : TestTarget → TestTarget)
    (h : other ≠ name) : (modify file name f).lookup other = file.lookup other := by
  unfold modify
  cases file.lookup name with
  | none => rfl
  | some target => exact AList.lookup_insert_ne h

/-- The entry that an edit is about. -/
def Edit.subject : Edit → String
  | .duplicateTestTarget _ newTargetName => newTargetName
  | .addEnvironmentVariable targetName _ => targetName
  | .setBlueprintName targetName _ => targetName
  | .deleteTestTarget targetName => targetName

/-- No edit changes an entry that it is not about, whether or not it fails. -/
theorem lookup_run_ne (fails : Bool) {edit : Edit} {other : String} (h : other ≠ edit.subject) :
    (edit.run fails file).lookup other = file.lookup other := by
  cases fails with
  | true => rfl
  | false =>
      cases edit with
      | duplicateTestTarget srcTargetName newTargetName =>
          simp only [Edit.run, Edit.apply, Bool.false_eq_true, if_false]
          cases file.lookup srcTargetName with
          | none => rfl
          | some target => exact AList.lookup_insert_ne h
      | addEnvironmentVariable targetName key => exact AList.lookup_insert_ne h
      | setBlueprintName targetName name => exact lookup_modify_ne _ h
      | deleteTestTarget targetName => exact AList.lookup_erase_ne h

end Lookup

/-- The targets of a run file: all top-level keys but that of the metadata. -/
def targetNames (file : Plist) : List String :=
  file.keys.filter (· ≠ "__xctestrun_metadata__")

end MullXCTest.RunFile
