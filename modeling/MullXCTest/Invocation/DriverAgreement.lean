import MullXCTest.Invocation.HealthyVerdicts
import MullXCTest.Invocation.XCTestInvocation

/-!
# The two drivers side by side

mull-xctest asks whether a mutant is covered and gives it a process of its own if it
is; mull-xctestrun runs a whole batch in one process and never asks. With healthy
tools and one oracle for both they agree exactly on the batches that are covered.
-/

namespace MullXCTest.Invocation

open ResultBundle RunFile MutantExecutionTask XCTestRunInvocation
open XCTestInvocation (Launch)

/-- Whether the tests fail when an identifier is set, in the processes of mull-xctest that are not
cut off and in the target that mull-xctestrun copies. -/
structure CommonOracle (fails : String → Bool) (runProgram : Nat → Launch → ExecutionResult)
    (testsFail : TestOracle) (entry : TestTarget) : Prop where
  runProgram : ∀ position launch identifier, launch.environment = [identifier] →
    (runProgram position launch).status ≠ .timedout →
      (runProgram position launch).status = if fails identifier then .failed else .passed
  target : ∀ identifier,
    testsFail (entry.addVariable identifier).environment entry.others = fails identifier

/-- No process of the task of mull-xctest is cut off. -/
def ProcessesInTime (runProgram : Nat → Launch → ExecutionResult)
    (task : XCTestInvocation.MutantExecutionTask.Task) (mutants : List Mutant) : Prop :=
  ∀ position, ∀ mutant ∈ mutants,
    (runProgram position (XCTestInvocation.MutantExecutionTask.launch task mutant)).status ≠
      .timedout

/-- A call returns, and has stored the same mutants with the same statuses. -/
def StoresTheSame (stored : List MutationResult) (call : Except Fault (World × Locals)) : Prop :=
  ∃ world locals, call = .ok (world, locals) ∧ statuses stored = statuses locals.storage

section Agreement

variable {fails : String → Bool} {runProgram : Nat → Launch → ExecutionResult}
  {testsFail : TestOracle} {entry : TestTarget}

theorem CommonOracle.verdict_eq (oracle : CommonOracle fails runProgram testsFail entry)
    (mutant : Mutant) :
    verdict testsFail entry mutant = if fails mutant.identifier then .failed else .passed := by
  rw [verdict, oracle.target]

/-- What the task of mull-xctest stores. -/
theorem statuses_operatorCall (oracle : CommonOracle fails runProgram testsFail entry)
    {task : XCTestInvocation.MutantExecutionTask.Task} {mutants : List Mutant}
    (inTime : ProcessesInTime runProgram task mutants) :
    statuses (XCTestInvocation.MutantExecutionTask.operatorCall task runProgram mutants).storage =
      mutants.map fun mutant =>
        (mutant, if mutant.isCovered then verdict testsFail entry mutant else .notCovered) := by
  rw [XCTestInvocation.MutantExecutionTask.operatorCall_storage, statuses, List.map_map]
  conv_rhs => rw [← List.zipIdx_map_fst 0 mutants, List.map_map]
  apply List.map_congr_left
  intro p hp
  refine Prod.ext rfl ?_
  simp only [Function.comp_apply, XCTestInvocation.MutantExecutionTask.mutantResult]
  split_ifs
  · have hmutant : p.1 ∈ mutants := List.fst_mem_of_mem_zipIdx hp
    rw [oracle.runProgram _ _ p.1.identifier rfl (inTime p.2 p.1 hmutant), oracle.verdict_eq]
  · rfl

theorem verdict_ne_notCovered (mutant : Mutant) : verdict testsFail entry mutant ≠ .notCovered := by
  unfold verdict
  split_ifs <;> simp

/-- **Agreement of the drivers.** The tasks of the two drivers store the same mutants with the same
statuses exactly if every mutant of the batch is covered. -/
theorem storesTheSame_iff {tools : InvocationTools} {config : XCTestRunConfig} {base : Plist}
    {world : World} (healthy : Healthy tools config testsFail)
    (oracle : CommonOracle fails runProgram testsFail entry)
    (single : SingleTarget base config.testTarget entry)
    (hsrc : world.runFiles (singleTargetRunFile config) = some base)
    (task : XCTestInvocation.MutantExecutionTask.Task) (taskID : Nat)
    (hbundle : world.bundles
      (resultBundlePath config.resultBundleDir config.testTarget taskID) = none)
    (baseline : ExecutionResult) (mutants : List Mutant)
    (processesInTime : ProcessesInTime runProgram task mutants)
    (inTime : (runProcess tools.toTools taskID config (singleTargetRunFile config) baseline
      mutants world).timedOut = false) :
    StoresTheSame
        (XCTestInvocation.MutantExecutionTask.operatorCall task runProgram mutants).storage
        (operatorCall tools.toTools taskID config (singleTargetRunFile config) baseline mutants
          world) ↔
      ∀ mutant ∈ mutants, mutant.isCovered = true := by
  obtain ⟨locals, ⟨world', hcall⟩, hstored⟩ :=
    operatorCall_exact healthy single taskID baseline mutants world hsrc hbundle inTime
  have hsame : StoresTheSame
      (XCTestInvocation.MutantExecutionTask.operatorCall task runProgram mutants).storage
      (operatorCall tools.toTools taskID config (singleTargetRunFile config) baseline mutants
        world) ↔
      mutants.map (fun mutant =>
          (mutant, if mutant.isCovered then verdict testsFail entry mutant else .notCovered)) =
        mutants.map fun mutant => (mutant, verdict testsFail entry mutant) := by
    rw [← statuses_operatorCall oracle processesInTime, ← hstored]
    constructor
    · rintro ⟨_, _, hcall', heq⟩
      rw [hcall] at hcall'
      cases hcall'
      exact heq
    · intro heq
      exact ⟨_, _, hcall, heq⟩
  rw [hsame, List.map_inj_left]
  apply forall₂_congr
  intro mutant _
  by_cases hcovered : mutant.isCovered
  · simp [hcovered]
  · simpa [hcovered] using (verdict_ne_notCovered mutant).symm

end Agreement

section Example

def exampleTask : XCTestInvocation.MutantExecutionTask.Task :=
  ⟨⟨3000, 1, true⟩, "/usr/bin/xcrun", "AppTests.xctest", {}, []⟩

/-- A process fails when `add_1` is set. -/
def exampleProgram : Nat → Launch → ExecutionResult := fun _ launch =>
  { status := if launch.environment = ["add_1"] then .failed else .passed }

theorem commonOracle_example :
    CommonOracle (· = "add_1") exampleProgram exampleOracle exampleTarget where
  runProgram position launch identifier h _ := by simp [exampleProgram, h]
  target identifier := by
    by_cases h : identifier = "add_1"
    · subst h
      decide
    · rw [exampleOracle, TestTarget.environment_addVariable_ne _ (Ne.symm h)]
      simp [h, TestTarget.environment, exampleTarget]

theorem singleTarget_exampleRunFile : SingleTarget exampleRunFile "AppTests" exampleTarget where
  target := rfl
  other name hname _ := by
    rw [AList.lookup_eq_none, AList.mem_keys, exampleRunFile, AList.keys_singleton]
    simpa using hname

theorem processesInTime_example (mutants : List Mutant) :
    ProcessesInTime exampleProgram exampleTask mutants := by
  intro position mutant _
  simp only [exampleProgram]
  split_ifs <;> simp

/-- The base run file is there. -/
def exampleBaseWorld : World :=
  exampleWorld.setRunFile (singleTargetRunFile exampleConfig) (some exampleRunFile)

/-- Two mutants that are covered. -/
theorem storesTheSame_iff_example :
    StoresTheSame
      (XCTestInvocation.MutantExecutionTask.operatorCall exampleTask exampleProgram
        [⟨"add_1", true⟩, ⟨"sub_2", true⟩]).storage
      (operatorCall (oracleTools exampleOracle).toTools 0 exampleConfig
        (singleTargetRunFile exampleConfig) {} [⟨"add_1", true⟩, ⟨"sub_2", true⟩]
        exampleBaseWorld) :=
  (storesTheSame_iff (healthy_oracleTools _ _) commonOracle_example singleTarget_exampleRunFile
    (World.runFiles_setRunFile_self ..) _ _ rfl _ _ (processesInTime_example _)
    (timedOut_oracleTools ..)).mpr (by decide)

/-- A mutant that is not covered is reported as such by one driver and run by the other. -/
theorem not_storesTheSame_example :
    ¬ StoresTheSame
      (XCTestInvocation.MutantExecutionTask.operatorCall exampleTask exampleProgram
        [⟨"add_1", false⟩]).storage
      (operatorCall (oracleTools exampleOracle).toTools 0 exampleConfig
        (singleTargetRunFile exampleConfig) {} [⟨"add_1", false⟩] exampleBaseWorld) := by
  rintro ⟨_, _, hcall, hsame⟩
  obtain ⟨locals, ⟨world, hexact⟩, hstored⟩ :=
    operatorCall_exact (healthy_oracleTools exampleOracle exampleConfig)
      singleTarget_exampleRunFile 0 {} [⟨"add_1", false⟩] exampleBaseWorld
      (World.runFiles_setRunFile_self ..) rfl (timedOut_oracleTools ..)
  rw [hexact] at hcall
  cases hcall
  rw [hstored] at hsame
  revert hsame
  decide

end Example

end MullXCTest.Invocation
