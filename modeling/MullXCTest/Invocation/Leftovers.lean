import MullXCTest.Invocation.Isolation

/-!
# What earlier runs have left

Every run file that a run works on is copied first, from the file that the user has given
or from one that was copied from it. So of all that earlier runs have left, a run
sees only the bundles in its way.
-/

namespace MullXCTest.Invocation

open ResultBundle RunFile MutantExecutionTask Interleaving

namespace XCTestRunInvocation

variable {config : XCTestRunConfig}

section Start

variable {tools : InvocationTools} {configuration : Configuration} {split : Splitting}
  {world world' : World} {mutants : List Mutant} {s : System} {file : Plist}

/-- From the same xctestrun file the executor starts with the same base file and tasks. -/
theorem run_of_xctestrunFile
    (hfile : world.runFiles config.xctestrunFile = some file)
    (hfile' : world'.runFiles config.xctestrunFile = some file)
    (h : run tools config configuration split world mutants = .executing s) :
    ∃ base baseline,
      s = startSystem config (singleTargetRunFile config) baseline
        configuration.mutantExecutionWorkers (split mutants configuration.mutantExecutionWorkers)
        (world.setRunFile (singleTargetRunFile config) (some base)) ∧
      run tools config configuration split world' mutants = .executing
        (startSystem config (singleTargetRunFile config) baseline
          configuration.mutantExecutionWorkers
          (split mutants configuration.mutantExecutionWorkers)
          (world'.setRunFile (singleTargetRunFile config) (some base))) := by
  unfold run at h ⊢
  rw [hfile] at h
  rw [hfile']
  split_ifs at h ⊢ with hmutants
  cases hplutil : tools.plutilSucceeds with
  | false =>
      rw [hplutil] at h
      cases h
  | true =>
      rw [hplutil] at h
      simp only [generateSingleTargetXCRunFile, getTargets, bind, Except.bind, pure, Except.pure,
        namedRunFile_baseline] at h ⊢
      cases h
      exact ⟨_, _, rfl, rfl⟩

end Start

section Tasks

variable {tools : Tools} {xctestrunFile : String} {baseline : ExecutionResult} {workers : Nat}
  {batches : List (List Mutant)} {world : World}

/-- Where the base file is there, the first action of a task hides what its local file was. -/
theorem agent_start {taskID : Nat} {batch : List Mutant} {base : Plist}
    (hstart : (startTasks config xctestrunFile baseline workers batches)[taskID]? =
      some ⟨{}, program taskID config xctestrunFile baseline batch⟩)
    (hbase : world.runFiles xctestrunFile = some base) :
    Relation.ReflTransGen (Alone (agentNext tools) taskID)
      (agentView config xctestrunFile taskID
        (startSystem config xctestrunFile baseline workers batches world))
      (some (taskWorld taskID config xctestrunFile
          (world.setRunFile (localRunFile taskID xctestrunFile) (some base)),
        ⟨{}, (program taskID config xctestrunFile baseline batch).tail⟩)) := by
  have hcopy : performAll tools taskID world {}
      [.copyFile xctestrunFile (localRunFile taskID xctestrunFile)] =
        .ok (world.setRunFile (localRunFile taskID xctestrunFile) (some base), {}) := by
    simp [performAll, perform, hbase, bind, Except.bind]
  exact @agent_of_performAll _ _ _ _ _ separated_start _ _ [.copyFile _ _] _ _ hstart hcopy

/-- From the same base file and the same bundles all tasks come to a common view. -/
theorem joined_start {world' : World} {base : Plist}
    (hbase : world.runFiles xctestrunFile = some base)
    (hbase' : world'.runFiles xctestrunFile = some base)
    (hbundles : ∀ taskID < workers,
      world'.bundles (resultBundlePath config.resultBundleDir config.testTarget taskID) =
        world.bundles (resultBundlePath config.resultBundleDir config.testTarget taskID)) :
    Independent.Joined (agentView config xctestrunFile) (agentNext tools)
      (startSystem config xctestrunFile baseline workers batches world)
      (startSystem config xctestrunFile baseline workers batches world') := by
  intro taskID
  cases htask : (startTasks config xctestrunFile baseline workers batches)[taskID]? with
  | none =>
      refine ⟨none, ?_, ?_⟩ <;>
      · rw [agentView, startSystem, htask]
        exact .refl
  | some task =>
      obtain ⟨batch, -, rfl⟩ := startTasks_cases htask
      have hlt := (List.getElem?_eq_some_iff.mp htask).1
      have hworkers := hlt.trans_le (length_startTasks_le _ _ _)
      refine ⟨_, agent_start htask hbase, ?_⟩
      have hworld : taskWorld taskID config xctestrunFile
          (world.setRunFile (localRunFile taskID xctestrunFile) (some base)) =
            taskWorld taskID config xctestrunFile
              (world'.setRunFile (localRunFile taskID xctestrunFile) (some base)) := by
        rw [taskWorld_eq_iff]
        refine ⟨?_, by simp, by simpa using (hbundles taskID hworkers).symm⟩
        rw [World.runFiles_setRunFile_ne _ _ _ (localRunFile_ne taskID),
          World.runFiles_setRunFile_ne _ _ _ (localRunFile_ne taskID), hbase, hbase']
      rw [hworld]
      exact agent_start htask hbase'

end Tasks

section Run

variable {tools : InvocationTools} {configuration : Configuration} {split : Splitting}
  {world world' : World} {mutants : List Mutant} {s : System} {file : Plist}

end Run

section Example

/-- A world where an earlier run has left its run files. -/
def usedWorld : World where
  runFiles := fun path => if path = "App.xctestrun" then some exampleRunFile else some ∅
  bundles := fun _ => none

end Example

end XCTestRunInvocation

end MullXCTest.Invocation
