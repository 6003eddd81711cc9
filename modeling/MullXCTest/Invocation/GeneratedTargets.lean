import MullXCTest.Invocation.HealthyVerdicts

/-!
# One clone of the test target for each mutant

The run files that `GenerateSingleTargetXCRunFile` and `GenerateXCRunFile` leave one
after the other when every edit succeeds. Each copy is made of a test target that no
edit before it has touched, so a clone differs from it in its name and its own
variable alone.
-/

namespace MullXCTest.Invocation

open RunFile MutantExecutionTask XCTestRunInvocation

/-- What `GenerateXCRunFile` leaves in the local file. -/
def generateXCRunFile (fails : Nat → Bool) (srcRunFile localRunFile : Option Plist)
    (srcTestTarget : String) (mutants : List Mutant) : Option Plist :=
  (srcRunFile <|> localRunFile).map (applyEdits fails 0 (generateEdits srcTestTarget mutants))

/-- The run files after both functions, for a task on a batch of mutants. -/
def generatedRunFiles (tools : InvocationTools) (config : XCTestRunConfig) (taskID : Nat)
    (mutants : List Mutant) (runFiles : String → Option Plist) :
    Except String (String → Option Plist) := do
  let base := singleTargetRunFile config
  let file ← generateSingleTargetXCRunFile tools.baseEditFails tools.plutilSucceeds
    (runFiles config.xctestrunFile) (runFiles base) config.testTarget
  let runFiles := Function.update runFiles base file
  return Function.update runFiles (localRunFile taskID base)
    (generateXCRunFile (tools.editFails taskID) (runFiles base)
      (runFiles (localRunFile taskID base)) config.testTarget mutants)

/-- The task generates the run file that it hands to xcodebuild. -/
theorem executedRunFile_eq (tools : Tools) (taskID : Nat) (config : XCTestRunConfig)
    (xctestrunFile : String) (mutants : List Mutant) (world : World) :
    executedRunFile tools taskID config xctestrunFile mutants world =
      generateXCRunFile (tools.editFails taskID) (world.runFiles xctestrunFile)
        (world.runFiles (localRunFile taskID xctestrunFile)) config.testTarget mutants := rfl

/-- plutil and every edit succeed. -/
structure EditsSucceed (tools : InvocationTools) (taskID : Nat) : Prop where
  plutil : tools.plutilSucceeds = true
  baseEdits : ∀ position, tools.baseEditFails position = false
  edits : ∀ position, tools.editFails taskID position = false

/-- The clone of an entry for a mutant: only its name and the one variable differ. -/
structure CloneOf (entry clone : TestTarget) (identifier : String) : Prop where
  blueprintName : clone.blueprintName = some identifier
  added : clone.environment identifier = some "1"
  kept : ∀ key, key ≠ identifier → clone.environment key = entry.environment key
  others : clone.others = entry.others

theorem cloneOf_mutantTarget (entry : TestTarget) (identifier : String) :
    CloneOf entry (mutantTarget entry identifier) identifier where
  blueprintName := rfl
  added := by simp [mutantTarget]
  kept key h := by simp [mutantTarget, TestTarget.environment_addVariable_ne entry h]
  others := rfl

section Metadata

variable {file : Plist} {testTarget : String}

theorem metadata_mem_targetNames : "__xctestrun_metadata__" ∉ targetNames file := by
  simp [targetNames]

/-- The metadata is in no edit. -/
theorem lookup_metadata_singleTarget {fails : Nat → Bool}
    (healthy : ∀ position, fails position = false) :
    (applyEdits fails 0
        (((targetNames file).filter (· ≠ testTarget)).map Edit.deleteTestTarget) file).lookup
        "__xctestrun_metadata__" = file.lookup "__xctestrun_metadata__" := by
  rw [lookup_deletions healthy, if_neg]
  intro hmem
  exact metadata_mem_targetNames (List.mem_of_mem_filter hmem)

theorem lookup_metadata_generate {fails : Nat → Bool}
    (htarget : testTarget ≠ "__xctestrun_metadata__") (mutants : List Mutant) :
    (applyEdits fails 0 (generateEdits testTarget mutants) file).lookup
        "__xctestrun_metadata__" = file.lookup "__xctestrun_metadata__" := by
  rw [generateEdits_eq, applyEdits_append]
  have hne : "__xctestrun_metadata__" ≠ (Edit.deleteTestTarget testTarget).subject := htarget.symm
  simp only [applyEdits]
  rw [lookup_run_ne _ hne, lookup_flatMap_mutantEdits_ne]
  exact fun mutant _ => (cloneName_ne_metadata _ _).symm

end Metadata

section Paths

theorem length_singleTargetRunFile (config : XCTestRunConfig) :
    (singleTargetRunFile config).toList.length = config.xctestrunFile.toList.length + 26 := by
  have hsuffix : ".mull-xctrn-base.xctestrun".toList.length = 26 := by decide
  rw [singleTargetRunFile, String.toList_append, List.length_append, hsuffix]

theorem xctestrunFile_ne_singleTargetRunFile (config : XCTestRunConfig) :
    config.xctestrunFile ≠ singleTargetRunFile config := by
  apply ne_of_length_lt
  rw [length_singleTargetRunFile]
  omega

theorem xctestrunFile_ne_localRunFile (config : XCTestRunConfig) (taskID : Nat) :
    config.xctestrunFile ≠ localRunFile taskID (singleTargetRunFile config) := by
  apply ne_of_length_lt
  simp only [localRunFile, String.toList_append, List.length_append, length_singleTargetRunFile]
  omega

end Paths

section Exact

variable {tools : InvocationTools} {config : XCTestRunConfig} {taskID : Nat}
  {mutants : List Mutant} {runFiles : String → Option Plist} {file : Plist} {entry : TestTarget}

/-- The keys of the generated file are those of the metadata and of the clones. -/
theorem mem_keys_generated {base generated : Plist} {fails : Nat → Bool}
    (healthy : ∀ position, fails position = false) {testTarget : String}
    (single : SingleTarget base testTarget entry)
    (hgenerated : generated = applyEdits fails 0 (generateEdits testTarget mutants) base)
    (hmeta : generated.lookup "__xctestrun_metadata__" = file.lookup "__xctestrun_metadata__")
    (name : String) :
    name ∈ generated.keys ↔
      name = "__xctestrun_metadata__" ∧ name ∈ file.keys ∨
        ∃ mutant ∈ mutants, name = cloneName testTarget mutant.identifier := by
  rw [← AList.mem_keys, ← AList.lookup_isSome, ← AList.mem_keys, ← AList.lookup_isSome]
  by_cases hname : name = "__xctestrun_metadata__"
  · subst hname
    rw [hmeta]
    have hclones : ¬ ∃ mutant ∈ mutants,
        "__xctestrun_metadata__" = cloneName testTarget mutant.identifier := by
      rintro ⟨mutant, -, h⟩
      exact cloneName_ne_metadata _ _ h.symm
    simp [hclones]
  · rw [Option.isSome_iff_exists, hgenerated]
    simp only [lookup_generateEdits_iff healthy single mutants hname, hname, false_and, false_or]
    constructor
    · rintro ⟨target, mutant, hmutant, hclone, -⟩
      exact ⟨mutant, hmutant, hclone⟩
    · rintro ⟨mutant, hmutant, hclone⟩
      exact ⟨_, mutant, hmutant, hclone, rfl⟩

theorem generatedRunFiles_eq {base : Plist}
    (h : generateSingleTargetXCRunFile tools.baseEditFails tools.plutilSucceeds
      (runFiles config.xctestrunFile) (runFiles (singleTargetRunFile config)) config.testTarget =
        .ok (some base)) :
    generatedRunFiles tools config taskID mutants runFiles =
      .ok (Function.update (Function.update runFiles (singleTargetRunFile config) (some base))
        (localRunFile taskID (singleTargetRunFile config))
        (some (applyEdits (tools.editFails taskID) 0 (generateEdits config.testTarget mutants)
          base))) := by
  simp only [generatedRunFiles, h, bind, Except.bind, pure, Except.pure, Function.update_self]
  rfl

/-- **The generated run file is exactly one clone of the test target for each mutant**, beside the
metadata: each clone is the target but for its name and its own variable, no clone has the
variable of another mutant, and the original run file is unchanged. -/
theorem generated_targets_exact (succeed : EditsSucceed tools taskID)
    (hfile : runFiles config.xctestrunFile = some file)
    (htarget : config.testTarget ∈ targetNames file)
    (hentry : file.lookup config.testTarget = some entry)
    (distinct : (mutants.map Mutant.identifier).Nodup)
    (fresh : ∀ mutant ∈ mutants, entry.environment mutant.identifier = none) :
    ∃ runFiles' generated,
      generatedRunFiles tools config taskID mutants runFiles = .ok runFiles' ∧
        runFiles' (localRunFile taskID (singleTargetRunFile config)) = some generated ∧
        (∀ name, name ∈ generated.keys ↔
          name = "__xctestrun_metadata__" ∧ name ∈ file.keys ∨
            ∃ mutant ∈ mutants, name = cloneName config.testTarget mutant.identifier) ∧
        generated.lookup "__xctestrun_metadata__" = file.lookup "__xctestrun_metadata__" ∧
        (∀ mutant ∈ mutants, ∃ clone,
          generated.lookup (cloneName config.testTarget mutant.identifier) = some clone ∧
            CloneOf entry clone mutant.identifier ∧
            ∀ other ∈ mutants, other ≠ mutant → clone.environment other.identifier = none) ∧
        runFiles' config.xctestrunFile = some file := by
  have hnotmeta := (mem_targetNames.mp htarget).2
  obtain ⟨base, hbase, single⟩ := singleTarget_generate
    (runFiles (singleTargetRunFile config)) succeed.baseEdits hentry
  have hbaseFile : base = applyEdits tools.baseEditFails 0
      (((targetNames file).filter (· ≠ config.testTarget)).map Edit.deleteTestTarget) file :=
    (Option.some.inj (Except.ok.inj hbase)).symm
  have hmeta : (applyEdits (tools.editFails taskID) 0 (generateEdits config.testTarget mutants)
      base).lookup "__xctestrun_metadata__" = file.lookup "__xctestrun_metadata__" := by
    rw [lookup_metadata_generate hnotmeta, hbaseFile,
      lookup_metadata_singleTarget succeed.baseEdits]
  refine ⟨_, _, generatedRunFiles_eq (by rw [hfile, succeed.plutil, hbase]),
    Function.update_self _ _ _, mem_keys_generated succeed.edits single rfl hmeta, hmeta, ?_, ?_⟩
  · intro mutant hmutant
    have hclone := (lookup_generateEdits_iff succeed.edits single mutants
      (cloneName_ne_metadata _ _)).mpr ⟨mutant, hmutant, rfl, rfl⟩
    refine ⟨_, hclone, cloneOf_mutantTarget entry _, ?_⟩
    intro other hother hne
    have hid : other.identifier ≠ mutant.identifier :=
      fun heq => hne (List.inj_on_of_nodup_map distinct hother hmutant heq)
    rw [(cloneOf_mutantTarget entry _).kept _ hid, fresh other hother]
  · rw [Function.update_of_ne (xctestrunFile_ne_localRunFile config taskID),
      Function.update_of_ne (xctestrunFile_ne_singleTargetRunFile config), hfile]

end Exact

section Example

/-- The metadata, the test target and another target. -/
def exampleTargets : Plist :=
  ((AList.singleton "__xctestrun_metadata__" ⟨none, ∅, [("FormatVersion", "1")]⟩).insert "AppTests"
    exampleTarget).insert "OtherTests" ⟨some "OtherTests", ∅, []⟩

def succeedingTools : InvocationTools where
  editFails _ _ := false
  xcodebuild _ _ _ := ⟨false, 0, 0, none⟩
  parse _ := .error ""
  baseEditFails _ := false
  plutilSucceeds := true
  baselineRun _ _ := ⟨false, 0, 0, none⟩

theorem generated_targets_exact_example :
    ∃ generated : Plist, ∀ name, name ∈ generated.keys ↔
      name = "__xctestrun_metadata__" ∨ name = "AppTests-a" ∨ name = "AppTests-b" := by
  obtain ⟨-, generated, -, -, hkeys, -⟩ :=
    @generated_targets_exact succeedingTools exampleConfig 0 [⟨"a", true⟩, ⟨"b", true⟩]
      (fun _ => some exampleTargets) exampleTargets exampleTarget
      ⟨rfl, fun _ => rfl, fun _ => rfl⟩ rfl (by decide) rfl (by decide) (by decide)
  refine ⟨generated, fun name => (hkeys name).trans ?_⟩
  have hmeta : "__xctestrun_metadata__" ∈ exampleTargets.keys := by decide
  constructor
  · rintro (⟨rfl, -⟩ | ⟨mutant, hmutant, rfl⟩)
    · exact Or.inl rfl
    · simp only [List.mem_cons, List.not_mem_nil, or_false] at hmutant
      rcases hmutant with rfl | rfl
      · exact Or.inr (Or.inl (by decide))
      · exact Or.inr (Or.inr (by decide))
  · rintro (rfl | rfl | rfl)
    · exact Or.inl ⟨rfl, hmeta⟩
    · exact Or.inr ⟨⟨"a", true⟩, by simp, by decide⟩
    · exact Or.inr ⟨⟨"b", true⟩, by simp, by decide⟩

end Example

end MullXCTest.Invocation
