import MullXCTest.Invocation.GeneratedTargets
import MullXCTest.RunFile.Representation

/-!
# The generated run file as PlistBuddy leaves it

`GenerateSingleTargetXCRunFile` and `GenerateXCRunFile` by the command texts that they have
PlistBuddy run on the property list itself. Whichever of them fail, the property list
represents what some of the edits make of the test targets, and where nothing is in their
way none does.
-/

namespace MullXCTest.Invocation

open EntryTree RunFile

/-- The commands of `GenerateSingleTargetXCRunFile` for the targets that it has read. -/
def singleTargetCommands (targets : List String) (srcTestTarget : String) : List String :=
  (targets.filter (· ≠ srcTestTarget)).map fun target => (Edit.deleteTestTarget target).command

/-- The commands of `GenerateXCRunFile`. -/
def generateCommands (srcTestTarget : String) (mutants : List Mutant) : List String :=
  (generateEdits srcTestTarget mutants).map Edit.command

/-- Commands in a row that all succeed, and what they leave. -/
def runAll (plistBuddy : PlistBuddy) (commands : List String) (root : PlistTree) :
    Option PlistTree :=
  commands.foldlM (fun root command => plistBuddy command root) root

section Runs

variable {plistBuddy : PlistBuddy} {text : PlistTree → String} {file : Plist} {root : PlistTree}

/-- Only the positions of the edits matter. -/
theorem applyEdits_congr {fails fails' : Nat → Bool} {position : Nat} (edits : List Edit)
    (h : ∀ p, position ≤ p → fails p = fails' p) (file : Plist) :
    applyEdits fails position edits file = applyEdits fails' position edits file := by
  induction edits generalizing position file with
  | nil => rfl
  | cons edit rest ih =>
      rw [applyEdits, applyEdits, h position le_rfl]
      apply ih
      intro p hp
      exact h p (by omega)

/-- Commands in a row do what their edits do, of which those fail whose commands do. -/
theorem represents_runCommands (documented : Documented plistBuddy)
    (represents : Represents text file root) {edits : List Edit}
    (hplain : ∀ edit ∈ edits, edit.Plain) (kept : Nat → Bool) (position : Nat) :
    Represents text
      (applyEdits (failed plistBuddy kept position (edits.map Edit.command) root) position edits
        file)
      (runCommands plistBuddy kept position (edits.map Edit.command) root) := by
  induction edits generalizing position file root with
  | nil => exact represents
  | cons edit rest ih =>
      obtain ⟨hedit, hrest⟩ := List.forall_mem_cons.mp hplain
      have hstep := represents.runCommand documented hedit (kept position)
      have hrun := ih hstep hrest (position + 1)
      have hfailed : ∀ p, position + 1 ≤ p →
          failed plistBuddy kept position ((edit :: rest).map Edit.command) root p =
            failed plistBuddy kept (position + 1) (rest.map Edit.command)
              (runCommand plistBuddy (kept position) edit.command root) p := by
        intro p hp
        exact if_neg (by omega)
      rw [applyEdits, applyEdits_congr rest hfailed]
      simp only [List.map_cons, failed, if_pos, runCommands]
      exact hrun

/-- Commands that all succeed leave what all their edits leave. -/
theorem represents_runAll (documented : Documented plistBuddy)
    (represents : Represents text file root) {edits : List Edit}
    (hplain : ∀ edit ∈ edits, edit.Plain) {root' : PlistTree}
    (h : runAll plistBuddy (edits.map Edit.command) root = some root') (position : Nat) :
    Represents text (applyEdits (fun _ => false) position edits file) root' := by
  induction edits generalizing position file root with
  | nil =>
      obtain rfl := Option.some.inj h
      exact represents
  | cons edit rest ih =>
      obtain ⟨hedit, hrest⟩ := List.forall_mem_cons.mp hplain
      obtain ⟨next, hcommand, hcommands⟩ := Option.bind_eq_some_iff.mp h
      have heffect := documented _ _ _ _ (readCommand_command hedit) (named_plistCommand hedit)
        (represents.regular edit) hcommand
      exact ih (represents.effect heffect) hrest hcommands (position + 1)

theorem runAll_cons {command : String} {rest : List String} {root' root'' : PlistTree}
    (h : plistBuddy command root = some root') (h' : runAll plistBuddy rest root' = some root'') :
    runAll plistBuddy (command :: rest) root = some root'' :=
  Option.bind_eq_some_iff.mpr ⟨root', h, h'⟩

theorem runAll_append {first second : List String} {root' root'' : PlistTree}
    (h : runAll plistBuddy first root = some root')
    (h' : runAll plistBuddy second root' = some root'') :
    runAll plistBuddy (first ++ second) root = some root'' := by
  rw [runAll, List.foldlM_append]
  exact Option.bind_eq_some_iff.mpr ⟨root', h, h'⟩

end Runs

section Commands

variable {testTarget : String} {mutants : List Mutant}

theorem plainName_cloneName (htarget : Plain testTarget) {identifier : String}
    (hidentifier : Plain identifier) : PlainName (cloneName testTarget identifier) := by
  have hdash : ∀ c ∈ "-".toList, special c = false := by decide
  constructor
  · intro c hc
    rw [cloneName, String.toList_append, String.toList_append, List.mem_append,
      List.mem_append] at hc
    rcases hc with (hc | hc) | hc
    · exact htarget c hc
    · exact hdash c hc
    · exact hidentifier c hc
  · intro hempty
    have hlength := congrArg (fun name => name.toList.length) hempty
    simp [cloneName] at hlength

theorem plain_mutantEdits (htarget : PlainName testTarget) {mutant : Mutant}
    (hmutant : PlainName mutant.identifier) : ∀ edit ∈ mutantEdits testTarget mutant,
      edit.Plain := by
  have hclone := plainName_cloneName htarget.1 hmutant.1
  intro edit hedit
  simp only [mutantEdits, List.mem_cons, List.not_mem_nil, or_false] at hedit
  rcases hedit with rfl | rfl | rfl
  · exact ⟨htarget, hclone⟩
  · exact ⟨hclone, hmutant⟩
  · exact ⟨hclone, hmutant⟩

theorem plain_generateEdits (htarget : PlainName testTarget)
    (hmutants : ∀ mutant ∈ mutants, PlainName mutant.identifier) :
    ∀ edit ∈ generateEdits testTarget mutants, edit.Plain := by
  intro edit hedit
  rw [generateEdits_eq, List.mem_append, List.mem_flatMap, List.mem_singleton] at hedit
  rcases hedit with ⟨mutant, hmutant, hedit⟩ | rfl
  · exact plain_mutantEdits htarget (hmutants mutant hmutant) edit hedit
  · exact htarget

theorem singleTargetCommands_eq (targets : List String) (srcTestTarget : String) :
    singleTargetCommands targets srcTestTarget =
      ((targets.filter (· ≠ srcTestTarget)).map Edit.deleteTestTarget).map Edit.command := by
  rw [singleTargetCommands, List.map_map]
  rfl

theorem plain_deletions {file : Plist} (htargets : ∀ name ∈ targetNames file, PlainName name) :
    ∀ edit ∈ ((targetNames file).filter (· ≠ testTarget)).map Edit.deleteTestTarget,
      edit.Plain := by
  intro edit hedit
  obtain ⟨name, hname, rfl⟩ := List.mem_map.mp hedit
  exact htargets name (List.mem_of_mem_filter hname)

end Commands

section Success

variable {plistBuddy : PlistBuddy} {testTarget : String} {entries : String → Option PlistTree}
  {source : PlistTree} {mutant : Mutant} {mutants : List Mutant}

/-- The command of an edit that is ready succeeds, with its effect. -/
theorem exists_effect (documented : Documented plistBuddy) (works : Works plistBuddy)
    {edit : Edit} {root : PlistTree} (hplain : edit.Plain)
    (hregular : edit.plistCommand.Regular root) (hready : edit.plistCommand.Ready root) :
    ∃ root', plistBuddy edit.command root = some root' ∧ edit.plistCommand.Effect root root' := by
  have hread := readCommand_command hplain
  have hnamed := named_plistCommand hplain
  obtain ⟨root', hroot⟩ := works _ _ _ hread hnamed hready
  exact ⟨root', hroot, documented _ _ _ _ hread hnamed hregular hroot⟩

/-- The deletion of a target that is there succeeds. -/
theorem exists_delete (documented : Documented plistBuddy) (works : Works plistBuddy)
    {name : String} (hplain : PlainName name) (h : ∃ found, entries name = some found) :
    plistBuddy (Edit.deleteTestTarget name).command (.dict entries) =
      some (.dict (Function.update entries name none)) := by
  obtain ⟨root', hcommand, heffect⟩ := @exists_effect _ documented works
    (.deleteTestTarget name) (.dict entries) hplain trivial ⟨List.cons_ne_nil _ _, h⟩
  cases heffect with
  | delete erased => rw [hcommand, ← erased]; rfl

/-- Deletions of different targets find them all. -/
theorem runAll_deletions (documented : Documented plistBuddy) (works : Works plistBuddy)
    {names : List String} (hnodup : names.Nodup) (hplain : ∀ name ∈ names, PlainName name)
    (h : ∀ name ∈ names, ∃ found, entries name = some found) :
    ∃ entries', runAll plistBuddy ((names.map Edit.deleteTestTarget).map Edit.command)
        (.dict entries) = some (.dict entries') ∧
      ∀ name, name ∉ names → entries' name = entries name := by
  induction names generalizing entries with
  | nil => exact ⟨entries, rfl, fun _ _ => rfl⟩
  | cons name rest ih =>
      obtain ⟨hname, hrest⟩ := List.nodup_cons.mp hnodup
      obtain ⟨hfirst, hothers⟩ := List.forall_mem_cons.mp h
      obtain ⟨hplainName, hplainRest⟩ := List.forall_mem_cons.mp hplain
      have hcommand := exists_delete documented works hplainName hfirst
      have hkept : ∀ other ∈ rest, ∃ found,
          Function.update entries name none other = some found := by
        intro other hother
        have hne : other ≠ name := by
          rintro rfl
          exact hname hother
        rw [Function.update_of_ne hne]
        exact hothers other hother
      obtain ⟨entries', hcommands, hothers'⟩ := ih hrest hplainRest hkept
      refine ⟨entries', runAll_cons hcommand hcommands, ?_⟩
      intro other hother
      obtain ⟨hne, hnot⟩ := List.ne_and_not_mem_of_not_mem_cons hother
      rw [hothers' other hnot, Function.update_of_ne hne]

/-- An entry that can be copied for a mutant: it has a blueprint name, and variables without that of
the mutant. -/
structure Clonable (source : PlistTree) (identifier : String) : Prop where
  blueprintName : ∃ old, find ["BlueprintName"] (some source) = some (stringEntry old)
  testingVariables : ∃ environment,
    find ["TestingEnvironmentVariables"] (some source) = some (.dict environment) ∧
      environment identifier = none

/-- The copy is made where there is no entry yet. -/
theorem exists_copy (documented : Documented plistBuddy) (works : Works plistBuddy)
    (htarget : PlainName testTarget) (hmutant : PlainName mutant.identifier)
    (hsource : entries testTarget = some source)
    (hvacant : entries (cloneName testTarget mutant.identifier) = none) :
    plistBuddy (Edit.duplicateTestTarget testTarget
        (cloneName testTarget mutant.identifier)).command (.dict entries) =
      some (.dict (Function.update entries (cloneName testTarget mutant.identifier)
        (some source))) := by
  obtain ⟨root', hcommand, heffect⟩ := @exists_effect _ documented works
    (.duplicateTestTarget testTarget (cloneName testTarget mutant.identifier)) (.dict entries)
    ⟨htarget, plainName_cloneName htarget.1 hmutant.1⟩ ⟨trivial, entries, rfl⟩
    ⟨⟨source, hsource⟩, [], _, entries, rfl, rfl, hvacant⟩
  cases heffect with
  | copy there =>
      obtain rfl := Option.some.inj (hsource.symm.trans there)
      exact hcommand

/-- The variable is added to the dictionary of the clone. -/
theorem exists_add (documented : Documented plistBuddy) (works : Works plistBuddy)
    (htarget : PlainName testTarget) (hmutant : PlainName mutant.identifier)
    (clonable : Clonable source mutant.identifier)
    (hclone : entries (cloneName testTarget mutant.identifier) = some source) :
    plistBuddy (Edit.addEnvironmentVariable (cloneName testTarget mutant.identifier)
        mutant.identifier).command (.dict entries) =
      some (.dict (Function.update entries (cloneName testTarget mutant.identifier)
        (some (put (stringEntry "1") ["TestingEnvironmentVariables", mutant.identifier]
          (some source))))) := by
  obtain ⟨environment, hvariables, hfresh⟩ := clonable.testingVariables
  have hclear : Clear ["TestingEnvironmentVariables", mutant.identifier] (some source) := by
    cases source with
    | leaf value => cases hvariables
    | dict keys =>
        change Clear [mutant.identifier] (keys "TestingEnvironmentVariables")
        rw [show keys "TestingEnvironmentVariables" = _ from hvariables]
        trivial
  obtain ⟨root', hcommand, heffect⟩ := @exists_effect _ documented works
    (.addEnvironmentVariable (cloneName testTarget mutant.identifier) mutant.identifier)
    (.dict entries) ⟨plainName_cloneName htarget.1 hmutant.1, hmutant⟩
    (by simpa [Edit.plistCommand, PlistCommand.Regular, Clear, hclone] using hclear)
    ⟨[_, "TestingEnvironmentVariables"], mutant.identifier, environment, rfl,
      by simpa [entries_some_dict, hclone] using hvariables, hfresh⟩
  cases heffect with
  | add =>
      rw [hcommand, put, entries_some_dict, hclone]

/-- The blueprint name of the clone is set. -/
theorem exists_set (documented : Documented plistBuddy) (works : Works plistBuddy)
    (htarget : PlainName testTarget) (hmutant : PlainName mutant.identifier)
    {clone : PlistTree} {old : String}
    (hname : find ["BlueprintName"] (some clone) = some (stringEntry old))
    (hclone : entries (cloneName testTarget mutant.identifier) = some clone) :
    plistBuddy (Edit.setBlueprintName (cloneName testTarget mutant.identifier)
        mutant.identifier).command (.dict entries) =
      some (.dict (Function.update entries (cloneName testTarget mutant.identifier)
        (some (put (stringEntry mutant.identifier) ["BlueprintName"] (some clone))))) := by
  have hfind : find [cloneName testTarget mutant.identifier, "BlueprintName"]
      (some (.dict entries)) = some (stringEntry old) := by
    simpa [entries_some_dict, hclone] using hname
  have hclear : Clear ["BlueprintName"] (some clone) := by
    cases clone with
    | leaf value => cases hname
    | dict keys => trivial
  obtain ⟨root', hcommand, heffect⟩ := @exists_effect _ documented works
    (.setBlueprintName (cloneName testTarget mutant.identifier) mutant.identifier)
    (.dict entries) ⟨plainName_cloneName htarget.1 hmutant.1, hmutant⟩
    ⟨by simpa [Clear, hclone] using hclear,
      fun found hfound => ⟨old, Option.some.inj (hfound.symm.trans hfind)⟩⟩
    ⟨old, hfind⟩
  cases heffect with
  | set there =>
      rw [hcommand, put, entries_some_dict, hclone]

/-- The three commands for a mutant succeed, and change no other entry than its own. -/
theorem runAll_mutantEdits (documented : Documented plistBuddy) (works : Works plistBuddy)
    (htarget : PlainName testTarget) (hmutant : PlainName mutant.identifier)
    (hsource : entries testTarget = some source)
    (clonable : Clonable source mutant.identifier)
    (hvacant : entries (cloneName testTarget mutant.identifier) = none) :
    ∃ entries', runAll plistBuddy ((mutantEdits testTarget mutant).map Edit.command)
        (.dict entries) = some (.dict entries') ∧
      ∀ name, name ≠ cloneName testTarget mutant.identifier → entries' name = entries name := by
  obtain ⟨old, hname⟩ := clonable.blueprintName
  have hcopy := exists_copy documented works htarget hmutant hsource hvacant
  have hadd := @exists_add _ _ (Function.update entries
    (cloneName testTarget mutant.identifier) (some source)) _ _ documented works htarget hmutant
    clonable (Function.update_self ..)
  rw [Function.update_idem] at hadd
  have hnamed : find ["BlueprintName"] (some (put (stringEntry "1")
      ["TestingEnvironmentVariables", mutant.identifier] (some source))) =
        some (stringEntry old) := by
    rw [find_put_ne _ (by decide), hname]
  have hset := @exists_set _ _ (Function.update entries
    (cloneName testTarget mutant.identifier) _) _ documented works htarget hmutant _ _ hnamed
    (Function.update_self ..)
  rw [Function.update_idem] at hset
  exact ⟨_, runAll_cons hcopy (runAll_cons hadd (runAll_cons hset rfl)),
    fun name hne => Function.update_of_ne hne _ _⟩

/-- The commands for all mutants find the test target as it was. -/
theorem runAll_flatMap (documented : Documented plistBuddy) (works : Works plistBuddy)
    (htarget : PlainName testTarget)
    (hmutants : ∀ mutant ∈ mutants, PlainName mutant.identifier)
    (hdistinct : (mutants.map Mutant.identifier).Nodup)
    (hsource : entries testTarget = some source)
    (clonable : ∀ mutant ∈ mutants, Clonable source mutant.identifier)
    (hvacant : ∀ mutant ∈ mutants, entries (cloneName testTarget mutant.identifier) = none) :
    ∃ entries', runAll plistBuddy
        ((mutants.flatMap (mutantEdits testTarget)).map Edit.command) (.dict entries) =
          some (.dict entries') ∧ entries' testTarget = some source := by
  induction mutants generalizing entries with
  | nil => exact ⟨entries, rfl, hsource⟩
  | cons mutant rest ih =>
      obtain ⟨hmutant, hmutants⟩ := List.forall_mem_cons.mp hmutants
      obtain ⟨hclonable, clonable⟩ := List.forall_mem_cons.mp clonable
      obtain ⟨hfirst, hvacant⟩ := List.forall_mem_cons.mp hvacant
      obtain ⟨hfresh, hdistinct⟩ := List.nodup_cons.mp hdistinct
      obtain ⟨entries', hcommands, hkept⟩ :=
        runAll_mutantEdits documented works htarget hmutant hsource hclonable hfirst
      have hsource' : entries' testTarget = some source := by
        rw [hkept _ (ne_cloneName _ _), hsource]
      have hvacant' : ∀ other ∈ rest,
          entries' (cloneName testTarget other.identifier) = none := by
        intro other hother
        have hne : cloneName testTarget other.identifier ≠
            cloneName testTarget mutant.identifier := by
          intro heq
          exact hfresh (cloneName_injective heq ▸ List.mem_map_of_mem hother)
        rw [hkept _ hne, hvacant other hother]
      obtain ⟨entries'', hrest, hend⟩ := ih hmutants hdistinct hsource' clonable hvacant'
      refine ⟨entries'', ?_, hend⟩
      rw [List.flatMap_cons, List.map_append]
      exact runAll_append hcommands hrest

/-- All commands of `GenerateXCRunFile` succeed. -/
theorem runAll_generate (documented : Documented plistBuddy) (works : Works plistBuddy)
    (htarget : PlainName testTarget)
    (hmutants : ∀ mutant ∈ mutants, PlainName mutant.identifier)
    (hdistinct : (mutants.map Mutant.identifier).Nodup)
    (hsource : entries testTarget = some source)
    (clonable : ∀ mutant ∈ mutants, Clonable source mutant.identifier)
    (hvacant : ∀ mutant ∈ mutants, entries (cloneName testTarget mutant.identifier) = none) :
    ∃ root', runAll plistBuddy (generateCommands testTarget mutants) (.dict entries) =
      some root' := by
  obtain ⟨entries', hcommands, hsource'⟩ := runAll_flatMap documented works htarget hmutants
    hdistinct hsource clonable hvacant
  have hdelete := exists_delete documented works htarget ⟨source, hsource'⟩
  rw [generateCommands, generateEdits_eq, List.map_append]
  exact ⟨_, runAll_append hcommands (runAll_cons hdelete rfl)⟩

end Success

section Results

variable {plistBuddy : PlistBuddy} {text : PlistTree → String} {file : Plist} {root : PlistTree}
  {testTarget : String} {mutants : List Mutant}

/-- The property list behind the commands of `GenerateSingleTargetXCRunFile`. -/
def singleTargetTree (plistBuddy : PlistBuddy) (kept : Nat → Bool) (file : Plist)
    (testTarget : String) (root : PlistTree) : PlistTree :=
  runCommands plistBuddy kept 0 (singleTargetCommands (targetNames file) testTarget) root

/-- The property list behind the commands of `GenerateXCRunFile`. -/
def generatedTree (plistBuddy : PlistBuddy) (kept : Nat → Bool) (testTarget : String)
    (mutants : List Mutant) (root : PlistTree) : PlistTree :=
  runCommands plistBuddy kept 0 (generateCommands testTarget mutants) root

/-- **The commands refine the edits.** On a property list that represents a run file whose target
names and identifiers PlistBuddy reads as they are, the commands of the two functions leave what
their edits leave of the test targets, where an edit fails exactly if its command is kept from
running or fails. -/
theorem commands_refine_edits (documented : Documented plistBuddy)
    (represents : Represents text file root) (htarget : PlainName testTarget)
    (htargets : ∀ name ∈ targetNames file, PlainName name)
    (hmutants : ∀ mutant ∈ mutants, PlainName mutant.identifier) (baseKept kept : Nat → Bool)
    (previous previous' : Option Plist) :
    ∃ base generated : Plist,
      generateSingleTargetXCRunFile
          (failed plistBuddy baseKept 0 (singleTargetCommands (targetNames file) testTarget) root)
          true (some file) previous testTarget =
        .ok (some base) ∧
      Represents text base (singleTargetTree plistBuddy baseKept file testTarget root) ∧
      generateXCRunFile
          (failed plistBuddy kept 0 (generateCommands testTarget mutants)
            (singleTargetTree plistBuddy baseKept file testTarget root))
          (some base) previous' testTarget mutants =
        some generated ∧
      Represents text generated
        (generatedTree plistBuddy kept testTarget mutants
          (singleTargetTree plistBuddy baseKept file testTarget root)) := by
  have hdeletions := @plain_deletions testTarget file htargets
  have hbase := represents_runCommands documented represents hdeletions baseKept 0
  rw [← singleTargetCommands_eq] at hbase
  have hgenerated := represents_runCommands documented hbase
    (plain_generateEdits htarget hmutants) kept 0
  exact ⟨_, _, rfl, hbase, rfl, hgenerated⟩

/-- What the mutants need of the entry of the test target. -/
theorem clonable_of_represents (represents : Represents text file root) {entry : TestTarget}
    {blueprintName : String} {found : PlistTree} {environment : String → Option PlistTree}
    (hentry : file.lookup testTarget = some entry)
    (hname : entry.blueprintName = some blueprintName)
    (hfound : find [testTarget] (some root) = some found)
    (hvariables : find ["TestingEnvironmentVariables"] (some found) = some (.dict environment))
    {identifier : String} (hfresh : entry.environment identifier = none) :
    Clonable found identifier := by
  obtain ⟨target, hlookup, htarget⟩ := represents.lookup hfound
  obtain rfl := Option.some.inj (hentry.symm.trans hlookup)
  refine ⟨⟨blueprintName, by rw [htarget.blueprintName, hname]; rfl⟩, environment, hvariables, ?_⟩
  have hvariable : find ["TestingEnvironmentVariables", identifier] (some found) =
      find [identifier] (find ["TestingEnvironmentVariables"] (some found)) := rfl
  rw [htarget.environment, hfresh, hvariables] at hvariable
  exact hvariable.symm

/-- **Nothing fails by itself.** Where a test target has a blueprint name and a dictionary of
variables, and the mutants have distinct identifiers that are no variables of it yet, all commands
of the two functions succeed, so that the property list represents the run file that the edits
generate. -/
theorem commands_succeed (documented : Documented plistBuddy) (works : Works plistBuddy)
    (represents : Represents text file root) (htarget : PlainName testTarget)
    (htargets : ∀ name ∈ targetNames file, PlainName name)
    (hmutants : ∀ mutant ∈ mutants, PlainName mutant.identifier)
    (hdistinct : (mutants.map Mutant.identifier).Nodup) {entry : TestTarget}
    {blueprintName : String} {environment : String → Option PlistTree}
    (hentry : file.lookup testTarget = some entry)
    (hname : entry.blueprintName = some blueprintName)
    (hvariables : find [testTarget, "TestingEnvironmentVariables"] (some root) =
      some (.dict environment))
    (hfresh : ∀ mutant ∈ mutants, entry.environment mutant.identifier = none)
    (previous previous' : Option Plist) :
    ∃ (base generated : Plist) (root' : PlistTree),
      generateSingleTargetXCRunFile (fun _ => false) true (some file) previous testTarget =
        .ok (some base) ∧
      generateXCRunFile (fun _ => false) (some base) previous' testTarget mutants =
        some generated ∧
      runAll plistBuddy (singleTargetCommands (targetNames file) testTarget ++
        generateCommands testTarget mutants) root = some root' ∧
      Represents text generated root' := by
  obtain ⟨entries, rfl⟩ := represents.dictionary
  obtain ⟨found, hfound, -⟩ := represents.exists_entry hentry
  have hpresent : ∀ name ∈ (targetNames file).filter (· ≠ testTarget),
      ∃ found, entries name = some found := by
    intro name hmem
    obtain ⟨⟨target, hlookup⟩, -⟩ := mem_targetNames.mp (List.mem_of_mem_filter hmem)
    obtain ⟨found, hfind, -⟩ := represents.exists_entry hlookup
    exact ⟨found, hfind⟩
  obtain ⟨entries', hdeletions, hkept⟩ := runAll_deletions documented works
    ((file.nodupKeys.filter _).filter _)
    (fun name hmem => htargets name (List.mem_of_mem_filter hmem)) hpresent
  have hbase := represents_runAll documented represents (plain_deletions htargets) hdeletions 0
  obtain ⟨base, hgenerate, single⟩ := singleTarget_generate previous
    (fun _ => rfl : ∀ position, (fun _ : Nat => false) position = false) hentry
  obtain rfl := Option.some.inj (Except.ok.inj hgenerate)
  have hfound' : find [testTarget] (some (.dict entries')) = some found :=
    (hkept testTarget (by simp)).trans hfound
  have hfoundVariables : find ["TestingEnvironmentVariables"] (some found) =
      some (.dict environment) := by
    rw [← hvariables, ← hfound]
    rfl
  have clonable : ∀ mutant ∈ mutants, Clonable found mutant.identifier := fun mutant hmutant =>
    clonable_of_represents hbase single.target hname hfound' hfoundVariables
      (hfresh mutant hmutant)
  have hvacant : ∀ mutant ∈ mutants,
      entries' (cloneName testTarget mutant.identifier) = none := fun mutant _ =>
    hbase.find_eq_none (single.other _ (ne_cloneName _ _).symm (cloneName_ne_metadata _ _))
  obtain ⟨root', hcommands⟩ := runAll_generate documented works htarget hmutants hdistinct
    hfound' clonable hvacant
  refine ⟨_, _, root', hgenerate, rfl, ?_,
    represents_runAll documented hbase (plain_generateEdits htarget hmutants) hcommands 0⟩
  rw [singleTargetCommands_eq]
  exact runAll_append hdeletions hcommands

end Results

section Example

/-- A PlistBuddy that writes over no entry, and sets strings only. -/
def examplePlistBuddy : PlistBuddy := fun text root =>
  match readCommand text with
  | none => none
  | some (.copy src dst) =>
      match find src (some root), find dst (some root) with
      | some found, none => some (put found dst (some root))
      | _, _ => none
  | some (.add entry value) =>
      match find entry (some root) with
      | none => some (put (stringEntry value) entry (some root))
      | some _ => none
  | some (.set entry value) =>
      match find entry (some root) with
      | some (.leaf (.string _)) => some (put (stringEntry value) entry (some root))
      | _ => none
  | some (.delete entry) =>
      match find entry (some root) with
      | none => none
      | some _ => erase entry (some root)

theorem documented_examplePlistBuddy : Documented examplePlistBuddy := by
  intro text command root root' hread _ _ h
  unfold examplePlistBuddy at h
  rw [hread] at h
  cases command with
  | copy src dst =>
      simp only at h
      split at h
      · next found hfound _ =>
          obtain rfl := Option.some.inj h
          exact .copy hfound
      · cases h
  | add entry value =>
      simp only at h
      split at h
      · obtain rfl := Option.some.inj h
        exact .add entry value
      · cases h
  | set entry value =>
      simp only at h
      split at h
      · next old hfound =>
          obtain rfl := Option.some.inj h
          exact .set hfound value
      · cases h
  | delete entry =>
      simp only at h
      split at h
      · cases h
      · exact .delete h

theorem works_examplePlistBuddy : Works examplePlistBuddy := by
  intro text command root hread _ ready
  unfold examplePlistBuddy
  rw [hread]
  cases command with
  | copy src dst =>
      obtain ⟨⟨found, hfound⟩, hvacant⟩ := ready
      simp only [hfound, hvacant.find_eq]
      exact ⟨_, rfl⟩
  | add entry value =>
      simp only [Vacant.find_eq ready]
      exact ⟨_, rfl⟩
  | set entry value =>
      obtain ⟨old, hfound⟩ := ready
      simp only [hfound, stringEntry]
      exact ⟨_, rfl⟩
  | delete entry =>
      obtain ⟨hne, found, hfound⟩ := ready
      obtain ⟨key, path, rfl⟩ := List.exists_cons_of_ne_nil hne
      simp only [hfound, erase]
      exact ⟨_, rfl⟩

/-- The entry of the test target, with its blueprint name and no variables. -/
def exampleEntry : String → Option PlistTree := fun key =>
  if key = "BlueprintName" then some (stringEntry "AppTests")
  else if key = "TestingEnvironmentVariables" then some (.dict fun _ => none)
  else none

/-- A property list with the test target. -/
def exampleTree : PlistTree :=
  .dict fun name => if name = "AppTests" then some (.dict exampleEntry) else none

theorem represents_exampleTree : Represents (fun _ => "") exampleRunFile exampleTree where
  dictionary := ⟨_, rfl⟩
  targets name := by
    by_cases hname : name = "AppTests"
    · subst hname
      refine .some ⟨fun _ => trivial, rfl, fun _ => rfl, ?_⟩
      intro key hblueprint hvariables
      simp [exampleEntry, hblueprint, hvariables, exampleTarget]
    · have hlookup : exampleRunFile.lookup name = none := by
        rw [AList.lookup_eq_none, exampleRunFile, AList.mem_keys]
        simpa using hname
      rw [hlookup]
      simp [exampleTree, hname]

theorem plainName_exampleRunFile : ∀ name ∈ targetNames exampleRunFile, PlainName name := by
  intro name hname
  obtain rfl : name = "AppTests" := by simpa [targetNames, exampleRunFile] using hname
  exact ⟨by decide, by decide⟩

theorem plainName_appTests : PlainName "AppTests" := ⟨by decide, by decide⟩

/-- Mutants whose identifiers have colons. -/
def colonMutants : List Mutant := [⟨"main.cpp:3:7", true⟩, ⟨"main.cpp:4:1", true⟩]

theorem plainName_colonMutants : ∀ mutant ∈ colonMutants, PlainName mutant.identifier := by
  unfold PlainName
  decide

/-- The variable of the first mutant is not added. -/
theorem commands_refine_edits_example :
    ∃ base generated : Plist,
      generateXCRunFile
          (failed examplePlistBuddy (fun p => p = 1) 0 (generateCommands "AppTests" colonMutants)
            (singleTargetTree examplePlistBuddy (fun _ => false) exampleRunFile "AppTests"
              exampleTree))
          (some base) none "AppTests" colonMutants = some generated ∧
      Represents (fun _ => "") generated
        (generatedTree examplePlistBuddy (fun p => p = 1) "AppTests" colonMutants
          (singleTargetTree examplePlistBuddy (fun _ => false) exampleRunFile "AppTests"
            exampleTree)) := by
  obtain ⟨base, generated, -, -, hgenerated, hrepresents⟩ :=
    commands_refine_edits documented_examplePlistBuddy represents_exampleTree plainName_appTests
      plainName_exampleRunFile plainName_colonMutants (fun _ => false) (fun p => p = 1) none none
  exact ⟨base, generated, hgenerated, hrepresents⟩

theorem commands_succeed_example :
    ∃ generated root',
      generateXCRunFile (fun _ => false) (some exampleRunFile) none "AppTests" colonMutants =
        some generated ∧
      runAll examplePlistBuddy (singleTargetCommands (targetNames exampleRunFile) "AppTests" ++
        generateCommands "AppTests" colonMutants) exampleTree = some root' ∧
      Represents (fun _ => "") generated root' := by
  obtain ⟨base, generated, root', hbase, hgenerated, hcommands, hrepresents⟩ :=
    commands_succeed documented_examplePlistBuddy works_examplePlistBuddy represents_exampleTree
      plainName_appTests plainName_exampleRunFile plainName_colonMutants (by decide)
      (rfl : exampleRunFile.lookup "AppTests" = some exampleTarget) rfl rfl (fun _ _ => rfl) none
      none
  obtain rfl : exampleRunFile = base := Option.some.inj (Except.ok.inj hbase)
  exact ⟨generated, root', hgenerated, hcommands, hrepresents⟩

end Example

end MullXCTest.Invocation
