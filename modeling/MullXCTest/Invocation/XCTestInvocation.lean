import MullXCTest.Invocation.XCTestRunInvocation

/-!
# A run of mull-xctest

`XCTestInvocation::run` behind the extraction of the mutants. A mutant that is covered
has a process of its own, started by mull's `Runner`, and the tasks share nothing.
The warm-up run is started as the baseline is, and its result is dropped.
-/

namespace MullXCTest.Invocation

namespace XCTestInvocation

/-- A call of `Runner::runProgram`. -/
structure Launch where
  program : String
  arguments : List String
  environment : List String
  timeout : Int
  captureOutput : Bool

/-- What `runProgram` returns for the baseline, and for a position among the mutants of a task. -/
structure Runner where
  baseline : Launch → ExecutionResult
  mutantRun : (taskID position : Nat) → Launch → ExecutionResult

namespace MutantExecutionTask

structure Task where
  configuration : Configuration
  executable : String
  testBundle : String
  baseline : ExecutionResult
  xctestArgs : List String

/-- The call of `runProgram` for a mutant. -/
def launch (task : Task) (mutant : Mutant) : Launch where
  program := task.executable
  arguments := "xctest" :: task.xctestArgs ++ [task.testBundle]
  environment := [mutant.identifier]
  timeout := task.baseline.runningTime * 10
  captureOutput := task.configuration.captureMutantOutput

/-- The result of a mutant. The message for a timeout goes nowhere. -/
def mutantResult (task : Task) (runProgram : Launch → ExecutionResult) (mutant : Mutant) :
    ExecutionResult :=
  if mutant.isCovered then runProgram (launch task mutant) else { status := .notCovered }

/-- The storage of a task and its counter. -/
structure Locals where
  storage : List MutationResult := []
  counter : Nat := 0

/-- The loop over the mutants. -/
def loop (task : Task) (runProgram : Nat → Launch → ExecutionResult) : Locals → List Mutant → Locals
  | locals, [] => locals
  | locals, mutant :: rest =>
      loop task runProgram
        { storage := locals.storage ++
            [⟨mutantResult task (runProgram locals.counter) mutant, mutant⟩]
          counter := locals.counter + 1 }
        rest

def operatorCall (task : Task) (runProgram : Nat → Launch → ExecutionResult)
    (mutants : List Mutant) : Locals :=
  loop task runProgram {} mutants

theorem loop_eq (task : Task) (runProgram : Nat → Launch → ExecutionResult) (locals : Locals)
    (mutants : List Mutant) :
    loop task runProgram locals mutants =
      { storage := locals.storage ++ (mutants.zipIdx locals.counter).map fun p =>
          ⟨mutantResult task (runProgram p.2) p.1, p.1⟩
        counter := locals.counter + mutants.length } := by
  induction mutants generalizing locals with
  | nil => simp [loop]
  | cons mutant rest ih =>
      rw [loop, ih]
      simp only [List.zipIdx_cons, List.map_cons, List.append_assoc, List.singleton_append,
        List.length_cons]
      congr 1
      omega

/-- A task stores one result for each mutant, in order. -/
theorem operatorCall_storage (task : Task) (runProgram : Nat → Launch → ExecutionResult)
    (mutants : List Mutant) :
    (operatorCall task runProgram mutants).storage =
      mutants.zipIdx.map fun p => ⟨mutantResult task (runProgram p.2) p.1, p.1⟩ := by
  rw [operatorCall, loop_eq]
  rfl

end MutantExecutionTask

open XCTestInvocation.MutantExecutionTask

/-- The call of `runProgram` without a mutant. -/
def baselineLaunch (testBundle : String) (configuration : Configuration) : Launch where
  program := "/usr/bin/xcrun"
  arguments := ["xctest", testBundle]
  environment := []
  timeout := configuration.timeout
  captureOutput := configuration.captureMutantOutput

/-- The tasks of the executor. -/
def task (testBundle : String) (xctestArgs : List String) (configuration : Configuration)
    (baseline : ExecutionResult) : Task where
  configuration := configuration
  executable := "/usr/bin/xcrun"
  testBundle := testBundle
  baseline := baseline
  xctestArgs := xctestArgs

def run (runner : Runner) (testBundle : String) (xctestArgs : List String)
    (configuration : Configuration) (split : Splitting) (mutants : List Mutant) :
    List MutationResult :=
  let baseline := runner.baseline (baselineLaunch testBundle configuration)
  (List.zipWith
    (fun taskID batch =>
      (operatorCall (task testBundle xctestArgs configuration baseline) (runner.mutantRun taskID)
        batch).storage)
    (List.range configuration.mutantExecutionWorkers)
    (split mutants configuration.mutantExecutionWorkers)).flatten

section Results

variable {runner : Runner} {testBundle : String} {xctestArgs : List String}
  {configuration : Configuration} {split : Splitting} {mutants : List Mutant}

/-- Every result of a run is that of a position in the batch of a task. -/
theorem mem_run {r : MutationResult}
    (h : r ∈ run runner testBundle xctestArgs configuration split mutants) :
    ∃ taskID position, r.result =
      mutantResult (task testBundle xctestArgs configuration
          (runner.baseline (baselineLaunch testBundle configuration)))
        (runner.mutantRun taskID position) r.mutant := by
  obtain ⟨stored, hstored, hr⟩ := List.mem_flatten.mp h
  rw [List.mem_iff_getElem?] at hstored
  obtain ⟨i, hi⟩ := hstored
  rw [List.getElem?_zipWith_eq_some] at hi
  obtain ⟨taskID, batch, -, -, rfl⟩ := hi
  rw [operatorCall_storage] at hr
  obtain ⟨p, -, rfl⟩ := List.mem_map.mp hr
  exact ⟨taskID, p.2, rfl⟩

theorem operatorCall_mutants (task : Task) (runProgram : Nat → Launch → ExecutionResult)
    (mutants : List Mutant) :
    (operatorCall task runProgram mutants).storage.map MutationResult.mutant = mutants := by
  rw [operatorCall_storage, List.map_map]
  exact List.zipIdx_map_fst 0 mutants

/-- With a worker for each batch, every mutant of the batches has its result. -/
theorem run_mutants
    (h : (split mutants configuration.mutantExecutionWorkers).length ≤
      configuration.mutantExecutionWorkers) :
    (run runner testBundle xctestArgs configuration split mutants).map MutationResult.mutant =
      (split mutants configuration.mutantExecutionWorkers).flatten := by
  rw [run, List.map_flatten, List.map_zipWith]
  simp only [operatorCall_mutants]
  have hzip : List.zipWith (fun (_ : Nat) (batch : List Mutant) => batch)
      (List.range configuration.mutantExecutionWorkers)
      (split mutants configuration.mutantExecutionWorkers) =
        split mutants configuration.mutantExecutionWorkers := by
    rw [← List.map_uncurry_zip_eq_zipWith]
    exact List.map_snd_zip (by simpa using h)
  rw [hzip]

end Results

end XCTestInvocation

end MullXCTest.Invocation
