import MullXCTest.Library.EntryTree
import MullXCTest.RunFile.EntryPaths
import MullXCTest.RunFile.TestTargets

/-!
# What PlistBuddy makes of the commands

The commands of the member functions as texts that PlistBuddy reads and runs on the
nested dictionaries of a run file. PlistBuddy itself is a parameter: it may fail at
any time, and what is relied on is what its manual says of the commands that succeed,
or that they do where nothing is in their way.
-/

namespace MullXCTest.RunFile

open EntryTree Words XCTestRunFile

/-- A value that is no dictionary: a string, or the text of an array, a number or the like. -/
inductive PlistValue
  | string (value : String)
  | other (text : String)
  deriving DecidableEq

/-- A property list, whose values stand in nested dictionaries. -/
abbrev PlistTree := EntryTree String PlistValue

/-- The entry that a string makes. -/
def stringEntry (value : String) : PlistTree := .leaf (.string value)

/-- A command of PlistBuddy with its entries. What is added or set is a string. -/
inductive PlistCommand
  | copy (src dst : KeyPath)
  | add (entry : KeyPath) (value : String)
  | set (entry : KeyPath) (value : String)
  | delete (entry : KeyPath)

/-- The text of an argument. -/
def argumentText (argument : List Symbol) : String :=
  String.ofList (characters argument)

/-- The command of a verb with arguments. -/
def commandOf (verb : String) (args : List (List Symbol)) : Option PlistCommand :=
  match verb, args with
  | "Copy", [src, dst] => some (.copy (keyPath src) (keyPath dst))
  | "Add", [entry, type, value] =>
      if argumentText type = "string" then some (.add (keyPath entry) (argumentText value))
      else none
  | "Set", [entry, value] => some (.set (keyPath entry) (argumentText value))
  | "Delete", [entry] => some (.delete (keyPath entry))
  | _, _ => none

/-- What a text says to PlistBuddy. -/
def readCommand (command : String) : Option PlistCommand :=
  match arguments (Scan.start.scan command.toList) with
  | [] => none
  | verb :: args => commandOf (argumentText verb) args

namespace PlistCommand

/-- The entries are named by their keys alone. A colon in front would stand for the root. -/
def Named : PlistCommand → Prop
  | .copy src dst => "" ∉ src ∧ "" ∉ dst
  | .add entry _ => "" ∉ entry
  | .set entry _ => "" ∉ entry
  | .delete entry => "" ∉ entry

/-- The entries are looked for in dictionaries only, what is copied has a dictionary to go to, and
what is set is a string. -/
def Regular (root : PlistTree) : PlistCommand → Prop
  | .copy src dst =>
      Clear src (some root) ∧ ∃ entries, find dst.dropLast (some root) = some (.dict entries)
  | .add entry _ => Clear entry (some root)
  | .set entry _ =>
      Clear entry (some root) ∧
        ∀ found, find entry (some root) = some found → ∃ old, found = stringEntry old
  | .delete entry => Clear entry (some root)

/-- What a command leaves when it succeeds. -/
inductive Effect (root : PlistTree) : PlistCommand → PlistTree → Prop
  | copy {src dst : KeyPath} {found : PlistTree} (there : find src (some root) = some found) :
      Effect root (.copy src dst) (put found dst (some root))
  | add (entry : KeyPath) (value : String) :
      Effect root (.add entry value) (put (stringEntry value) entry (some root))
  | set {entry : KeyPath} {found : PlistTree} (there : find entry (some root) = some found)
      (value : String) : Effect root (.set entry value) (put (stringEntry value) entry (some root))
  | delete {entry : KeyPath} {root' : PlistTree} (erased : erase entry (some root) = some root') :
      Effect root (.delete entry) root'

/-- The entries to work on are there, and there is a place for the one that is made. -/
def Ready (root : PlistTree) : PlistCommand → Prop
  | .copy src dst => (∃ found, find src (some root) = some found) ∧ Vacant dst (some root)
  | .add entry _ => Vacant entry (some root)
  | .set entry _ => ∃ old, find entry (some root) = some (stringEntry old)
  | .delete entry => entry ≠ [] ∧ ∃ found, find entry (some root) = some found

end PlistCommand

/-- `PlistBuddy -c`: the property list behind a command, or nothing if the command fails. -/
abbrev PlistBuddy := String → PlistTree → Option PlistTree

/-- A command that succeeds does what the manual says. -/
def Documented (plistBuddy : PlistBuddy) : Prop :=
  ∀ text command root root', readCommand text = some command → command.Named →
    command.Regular root → plistBuddy text root = some root' → command.Effect root root'

/-- A command with nothing in its way succeeds. -/
def Works (plistBuddy : PlistBuddy) : Prop :=
  ∀ text command root, readCommand text = some command → command.Named →
    command.Ready root → ∃ root', plistBuddy text root = some root'

/-- A command that is kept from running or fails leaves the file as it is. -/
def runCommand (plistBuddy : PlistBuddy) (kept : Bool) (command : String) (root : PlistTree) :
    PlistTree :=
  if kept then root else (plistBuddy command root).getD root

/-- Commands in a row, the first of them at a position. -/
def runCommands (plistBuddy : PlistBuddy) (kept : Nat → Bool) :
    Nat → List String → PlistTree → PlistTree
  | _, [], root => root
  | position, command :: rest, root =>
      runCommands plistBuddy kept (position + 1) rest
        (runCommand plistBuddy (kept position) command root)

/-- Whether the command at a position is kept from running or fails. -/
def failed (plistBuddy : PlistBuddy) (kept : Nat → Bool) :
    Nat → List String → PlistTree → Nat → Bool
  | _, [], _, _ => false
  | position, command :: rest, root, p =>
      if p = position then kept position || (plistBuddy command root).isNone
      else
        failed plistBuddy kept (position + 1) rest
          (runCommand plistBuddy (kept position) command root) p

/-- What the member function of an edit runs. -/
def Edit.command : Edit → String
  | .duplicateTestTarget srcTargetName newTargetName =>
      duplicateTestTargetCommand srcTargetName newTargetName
  | .addEnvironmentVariable targetName key => addEnvironmentVariableCommand targetName key "1"
  | .setBlueprintName targetName name => setBlueprintNameCommand targetName name
  | .deleteTestTarget targetName => deleteTestTargetCommand targetName

/-- What the member function of an edit wants PlistBuddy to do. -/
def Edit.plistCommand : Edit → PlistCommand
  | .duplicateTestTarget srcTargetName newTargetName => .copy [srcTargetName] [newTargetName]
  | .addEnvironmentVariable targetName key =>
      .add [targetName, "TestingEnvironmentVariables", key] "1"
  | .setBlueprintName targetName name => .set [targetName, "BlueprintName"] name
  | .deleteTestTarget targetName => .delete [targetName]

/-- A name that PlistBuddy reads as it is. -/
def PlainName (name : String) : Prop := Plain name ∧ name ≠ ""

/-- The names in a command are read as they are. -/
def Edit.Plain : Edit → Prop
  | .duplicateTestTarget srcTargetName newTargetName =>
      PlainName srcTargetName ∧ PlainName newTargetName
  | .addEnvironmentVariable targetName key => PlainName targetName ∧ PlainName key
  | .setBlueprintName targetName name => PlainName targetName ∧ PlainName name
  | .deleteTestTarget targetName => PlainName targetName

section Read

variable {src new target key name : String}

/-- The verb of a command is read as it is. -/
theorem readCommand_verb {verb : String} {l : List Char} {command : String}
    (hne : verb.toList ≠ []) (hverb : Plain verb) (h : command.toList = verb.toList ++ ' ' :: l) :
    readCommand command = commandOf verb (arguments (Scan.start.scan l)) := by
  obtain ⟨hscan, hstate⟩ := Scan.scan_constant hverb
  have hsymbols : Scan.start.scan command.toList =
      verb.toList.map .plain ++ .separator :: Scan.start.scan l := by
    rw [h, Scan.scan_append, hscan, hstate]
    rfl
  rw [readCommand, hsymbols, arguments, words_append (by simpa using hne) (by simp) (by rfl)]
  simp only [argumentText, characters_plain, String.ofList_toList]
  rfl

theorem keyPath_name (h : Plain name) : keyPath (name.toList.map symbol) = [name] := by
  rw [keyPath_single plain_notMem_symbols, characters_symbols h, String.ofList_toList]

theorem readCommand_duplicateTestTarget (hsrc : src ≠ "") (hnew : new ≠ "") (hplain : Plain src)
    (hplain' : Plain new) :
    readCommand (duplicateTestTargetCommand src new) = some (.copy [src] [new]) := by
  rw [readCommand_verb (by decide) (by decide) toList_duplicateTestTargetCommand,
    arguments_two hsrc hnew hplain hplain', commandOf, keyPath_name hplain,
    keyPath_name hplain']

theorem readCommand_deleteTestTarget (htarget : target ≠ "") (hplain : Plain target) :
    readCommand (deleteTestTargetCommand target) = some (.delete [target]) := by
  have hcommand : (deleteTestTargetCommand target).toList =
      "Delete".toList ++ ' ' :: escaped target.toList := by
    rw [deleteTestTargetCommand, String.toList_append, toList_escapeColon]
    rfl
  have hargs : arguments (Scan.start.scan (escaped target.toList)) =
      [target.toList.map symbol] := by
    rw [(Scan.scan_name hplain).1]
    exact words_single (by simpa using htarget) (separator_notMem_symbols hplain)
  rw [readCommand_verb (by decide) (by decide) hcommand, hargs, commandOf, keyPath_name hplain]

/-- The entry of a variable. -/
def variableEntry (target key : String) : List Symbol :=
  target.toList.map symbol ++
    .plain ':' :: ("TestingEnvironmentVariables:".toList.map .plain ++ key.toList.map symbol)

theorem keyPath_variableEntry (hplain : Plain target) (hkey : Plain key) :
    keyPath (variableEntry target key) = [target, "TestingEnvironmentVariables", key] := by
  have hmiddle : "TestingEnvironmentVariables:".toList =
      "TestingEnvironmentVariables".toList ++ [':'] := by decide
  rw [variableEntry, keyPath_append plain_notMem_symbols, characters_symbols hplain,
    String.ofList_toList, hmiddle, List.map_append, List.append_assoc, List.map_singleton,
    List.singleton_append, keyPath_append (by decide), characters_plain, String.ofList_toList,
    keyPath_name hkey]

theorem readCommand_addEnvironmentVariable (hplain : Plain target) (hkey : Plain key) :
    readCommand (addEnvironmentVariableCommand target key name) =
      some (.add [target, "TestingEnvironmentVariables", key] "1") := by
  obtain ⟨hscan, hstate⟩ := Scan.scan_name hkey
  have hsymbols : Scan.start.scan (escaped target.toList ++
      ':' :: ("TestingEnvironmentVariables:".toList ++
        (escaped key.toList ++ ' ' :: 's' :: "tring 1".toList))) =
      variableEntry target key ++
        .separator :: Scan.start.scan ('s' :: "tring 1".toList) := by
    rw [scan_target hplain (by decide), Scan.scan_append, hscan, hstate, variableEntry]
    simp only [List.append_assoc, List.cons_append]
    rfl
  have hentry : ∀ s ∈ variableEntry target key, isSeparator s = false := by
    apply separator_notMem_entry hplain
    intro s hs
    rcases List.mem_append.mp hs with hs | hs
    · obtain ⟨c, -, rfl⟩ := List.mem_map.mp hs
      rfl
    · exact separator_notMem_symbols hkey s hs
  have hargs : arguments (Scan.start.scan ('s' :: "tring 1".toList)) =
      ["string".toList.map .plain, ['1'].map .plain] := by decide
  rw [readCommand_verb (by decide) (by decide) toList_addEnvironmentVariableCommand, hsymbols,
    arguments, words_append (by simp [variableEntry]) hentry (by rfl)]
  change commandOf "Add" (variableEntry target key :: arguments _) = _
  rw [hargs, commandOf, keyPath_variableEntry hplain hkey]
  rfl

/-- The entry of the blueprint name. -/
def blueprintEntry (target : String) : List Symbol :=
  target.toList.map symbol ++ .plain ':' :: "BlueprintName".toList.map .plain

theorem keyPath_blueprintEntry (hplain : Plain target) :
    keyPath (blueprintEntry target) = [target, "BlueprintName"] := by
  rw [blueprintEntry, keyPath_append plain_notMem_symbols, characters_symbols hplain,
    String.ofList_toList, keyPath_single (by decide), characters_plain, String.ofList_toList]

theorem readCommand_setBlueprintName (hplain : Plain target) (hname : Plain name)
    (hempty : name ≠ "") :
    readCommand (setBlueprintNameCommand target name) =
      some (.set [target, "BlueprintName"] name) := by
  have hcommand : (setBlueprintNameCommand target name).toList = "Set".toList ++ ' ' ::
      (escaped target.toList ++ ':' :: ("BlueprintName".toList ++ ' ' :: name.toList)) := by
    simp only [setBlueprintNameCommand, String.toList_append, toList_escapeColon]
    rw [List.append_assoc, List.append_assoc]
    rfl
  have hsymbols : Scan.start.scan (escaped target.toList ++
      ':' :: ("BlueprintName".toList ++ ' ' :: name.toList)) =
      blueprintEntry target ++ .separator :: name.toList.map .plain := by
    rw [scan_target hplain (by decide), blueprintEntry, ← (Scan.scan_constant hname).1]
    simp only [List.append_assoc, List.cons_append]
    rfl
  have hentry : ∀ s ∈ blueprintEntry target, isSeparator s = false :=
    separator_notMem_entry hplain (by simp)
  rw [readCommand_verb (by decide) (by decide) hcommand, hsymbols, arguments,
    words_append (by simp [blueprintEntry]) hentry (by rfl),
    words_single (by simpa using hempty) (by simp), commandOf, keyPath_blueprintEntry hplain,
    argumentText, characters_plain, String.ofList_toList]

/-- PlistBuddy is told what the edit is about. -/
theorem readCommand_command {edit : Edit} (hplain : edit.Plain) :
    readCommand edit.command = some edit.plistCommand := by
  cases edit with
  | duplicateTestTarget src new =>
      exact readCommand_duplicateTestTarget hplain.1.2 hplain.2.2 hplain.1.1 hplain.2.1
  | addEnvironmentVariable target key =>
      exact @readCommand_addEnvironmentVariable target key "1" hplain.1.1 hplain.2.1
  | setBlueprintName target name =>
      exact readCommand_setBlueprintName hplain.1.1 hplain.2.1 hplain.2.2
  | deleteTestTarget target => exact readCommand_deleteTestTarget hplain.2 hplain.1

theorem named_plistCommand {edit : Edit} (hplain : edit.Plain) : edit.plistCommand.Named := by
  cases edit with
  | duplicateTestTarget src new =>
      exact ⟨by simpa using hplain.1.2.symm, by simpa using hplain.2.2.symm⟩
  | addEnvironmentVariable target key =>
      simp [Edit.plistCommand, PlistCommand.Named, hplain.1.2.symm, hplain.2.2.symm]
  | setBlueprintName target name =>
      simp [Edit.plistCommand, PlistCommand.Named, hplain.1.2.symm]
  | deleteTestTarget target => simpa [Edit.plistCommand, PlistCommand.Named] using hplain.2.symm

end Read

end MullXCTest.RunFile
