import MullXCTest.Invocation.XCTestInvocation
import MullXCTest.Pipeline.Tasks
import MullXCTest.SwiftSupport.SyntaxMutationFinder
import MullXCTest.TaskExecutor.ProgressAccounting

/-!
# The progress of all tasks

The tasks of the two drivers as loops of the executor, beside those that extract, load
and index. All of them count an element in the head of their loops, so that no path
through a body misses the count or makes it twice.
-/

namespace MullXCTest.Invocation

open TaskExecutor

/-- The loop of the task of mull-xctestrun on a range of mutants; what xcodebuild and the reader
of the bundle came to before it depends on the range in any way. -/
def MutantExecutionTask.task
    (outcome : List Mutant → ExecutionResult × Except String (Finset String)) :
    Task Mutant MutationResult :=
  fun mutants =>
    forEach (fun _ mutant =>
      [⟨targetResult (outcome mutants).1 (outcome mutants).2 mutant, mutant⟩]) mutants

/-- A call of `operator()` stores and counts as its loop does. -/
theorem MutantExecutionTask.task_operatorCall {tools : Tools} {taskID : Nat}
    {config : XCTestRunConfig} {xctestrunFile : String} {baseline : ExecutionResult}
    {mutants : List Mutant} {world world' : World} {locals : Locals}
    (h : operatorCall tools taskID config xctestrunFile baseline mutants world =
      .ok (world', locals)) :
    locals.storage =
        outputs (task (fun _ => (locals.result, locals.failureTargets)) mutants) ∧
      locals.counter =
        increments (task (fun _ => (locals.result, locals.failureTargets)) mutants) := by
  rw [operatorCall_eq] at h
  cases hread : ResultBundle.getFailureTestTargets tools.parse
      (readBundle tools taskID config xctestrunFile baseline mutants world) with
  | error fault =>
      rw [hread] at h
      cases h
  | ok failureTargets =>
      rw [hread] at h
      obtain ⟨-, rfl⟩ := Prod.mk.inj (Except.ok.inj h)
      rw [task, outputs_forEach_const, increments_forEach]
      exact ⟨List.map_eq_flatMap, rfl⟩

namespace XCTestInvocation.MutantExecutionTask

/-- The loop of the task of mull-xctest, where a mutant that is not covered is not run. -/
def loopTask (task : Task) (runProgram : Nat → Launch → ExecutionResult) :
    TaskExecutor.Task Mutant MutationResult :=
  forEach fun i mutant => [⟨mutantResult task (runProgram i) mutant, mutant⟩]

theorem loopTask_operatorCall (task : Task) (runProgram : Nat → Launch → ExecutionResult)
    (mutants : List Mutant) :
    (operatorCall task runProgram mutants).storage = outputs (loopTask task runProgram mutants) ∧
      (operatorCall task runProgram mutants).counter =
        increments (loopTask task runProgram mutants) := by
  rw [operatorCall, loop_eq, loopTask, outputs_forEach, increments_forEach]
  exact ⟨List.map_eq_flatMap, Nat.zero_add _⟩

end XCTestInvocation.MutantExecutionTask

open Pipeline SwiftSupport Transition

/-- **Progress accounting always completes**, for the tasks of all five kinds: whatever the
readers, the parser, the processes and the result bundles come to, for every input, every
split of it into consecutive batches and every interleaving. -/
theorem progress_accounting_completes {Module : Type} :
    (∀ e : PthreadTaskExecutor String Buffer, Splits e → ReporterWaits e →
        (∀ task ∈ e.tasks, ∃ readers : Nat → Readers Module,
          task = extractEmbeddedFileTask readers) → AccountingCompletes e) ∧
      (∀ e : PthreadTaskExecutor Buffer Module, Splits e → ReporterWaits e →
        (∀ task ∈ e.tasks, ∃ readers, task = loadBitcodeFromBufferTask readers) →
          AccountingCompletes e) ∧
      (∀ e : PthreadTaskExecutor String (String × ASTMutationStorage), Splits e →
        ReporterWaits e → (∀ task ∈ e.tasks, ∃ parse, task = indexSwiftSourceTask parse) →
          AccountingCompletes e) ∧
      (∀ e : PthreadTaskExecutor Mutant MutationResult, Splits e → ReporterWaits e →
        (∀ task ∈ e.tasks, ∃ outcome, task = MutantExecutionTask.task outcome) →
          AccountingCompletes e) ∧
      ∀ e : PthreadTaskExecutor Mutant MutationResult, Splits e → ReporterWaits e →
        (∀ task ∈ e.tasks, ∃ settings runProgram,
          task = XCTestInvocation.MutantExecutionTask.loopTask settings runProgram) →
            AccountingCompletes e := by
  refine ⟨?_, ?_, ?_, ?_, ?_⟩ <;> intro e splits waits kinds <;>
    refine PthreadTaskExecutor.accountingCompletes splits waits fun task htask range => ?_
  · obtain ⟨readers, rfl⟩ := kinds task htask
    exact increments_forEach _ range
  · obtain ⟨readers, rfl⟩ := kinds task htask
    exact increments_forEach _ range
  · obtain ⟨parse, rfl⟩ := kinds task htask
    exact increments_forEach _ range
  · obtain ⟨outcome, rfl⟩ := kinds task htask
    exact increments_forEach _ range
  · obtain ⟨settings, runProgram, rfl⟩ := kinds task htask
    exact increments_forEach _ range

section Example

/-- Two equal tasks, the first with an empty batch. -/
def exampleExecution {α β : Type} (task : Task α β) (input : List α) :
    PthreadTaskExecutor α β where
  input := input
  out := []
  tasks := List.replicate 2 task
  taskBatches _ _ := [0, input.length]
  reporterEnds total counters := counters.sum = total

theorem splits_exampleExecution {α β : Type} (task : Task α β) {input : List α}
    (h : 2 ≤ input.length) : Splits (exampleExecution task input) where
  length _ := by simp [PthreadTaskExecutor.batches, PthreadTaskExecutor.count, exampleExecution, h]
  sum _ := by simp [PthreadTaskExecutor.batches, exampleExecution]

/-- No object can be read, and no bitcode can be loaded. -/
def failingReaders (_ : Nat) : Readers Unit where
  createBinary _ := .error "no such file"
  loadModuleFromBuffer _ := none
  hasDebugInfo _ := true

def exampleMutants : List Mutant := [⟨"add_1", true⟩, ⟨"sub_2", false⟩, ⟨"mul_3", true⟩]

/-- Some interleaving returns, with this sum of its counters. -/
def CountsTo {α β : Type} (e : PthreadTaskExecutor α β) (n : Nat) : Prop :=
  ∃ s, e.Reachable s ∧ s.caller = .returned ∧ s.counters.sum = n

/-- Unreadable objects and sources, a broken bundle, and a mutant that is not covered. -/
theorem progress_accounting_completes_example :
    CountsTo (exampleExecution (extractEmbeddedFileTask failingReaders) ["a.o", "b.o", "c.o"]) 3 ∧
      CountsTo (exampleExecution (loadBitcodeFromBufferTask failingReaders) [[], [0]]) 2 ∧
      CountsTo (exampleExecution (indexSwiftSourceTask fun _ _ => none) ["a.swift", "b.swift"]) 2 ∧
      CountsTo (exampleExecution (MutantExecutionTask.task fun _ => ({}, .error "no bundle"))
        exampleMutants) 3 ∧
      CountsTo (exampleExecution (XCTestInvocation.MutantExecutionTask.loopTask
        (XCTestInvocation.task "AppTests.xctest" [] ⟨3000, 2, true⟩ {}) fun _ _ => {})
        exampleMutants) 3 := by
  obtain ⟨hextract, hload, hindex, hrun, hloop⟩ := @progress_accounting_completes Unit
  refine ⟨?_, ?_, ?_, ?_, ?_⟩
  · refine (hextract _ (splits_exampleExecution _ (by decide)) rfl ?_).exists_returned (by decide)
    exact fun task htask => ⟨_, List.eq_of_mem_replicate htask⟩
  · refine (hload _ (splits_exampleExecution _ (by decide)) rfl ?_).exists_returned (by decide)
    exact fun task htask => ⟨_, List.eq_of_mem_replicate htask⟩
  · refine (hindex _ (splits_exampleExecution _ (by decide)) rfl ?_).exists_returned (by decide)
    exact fun task htask => ⟨_, List.eq_of_mem_replicate htask⟩
  · refine (hrun _ (splits_exampleExecution _ (by decide)) rfl ?_).exists_returned (by decide)
    exact fun task htask => ⟨_, List.eq_of_mem_replicate htask⟩
  · refine (hloop _ (splits_exampleExecution _ (by decide)) rfl ?_).exists_returned (by decide)
    exact fun task htask => ⟨_, _, List.eq_of_mem_replicate htask⟩

end Example

end MullXCTest.Invocation
