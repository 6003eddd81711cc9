import MullXCTest.Invocation.HealthyVerdicts
import MullXCTest.Invocation.XCTestInvocation

/-!
# What the baseline has a say in

Both drivers hand the result of the baseline to their tasks, which only take its
running time from it, for their deadlines. So no verdict depends on the status of
the baseline, and a mutant may well be killed by a failure that happens without it.
-/

namespace MullXCTest.Invocation

open ResultBundle RunFile MutantExecutionTask XCTestRunInvocation Interleaving
open XCTestInvocation (Launch Runner baselineLaunch)

/-- No kill is reported unless the baseline has passed. -/
def KillsNeedBaseline (baseline : ExecutionResult) (results : List MutationResult) : Prop :=
  baseline.status ≠ .passed →
    ∀ r ∈ results, r.result.status ≠ .failed ∧ r.result.status ≠ .timedout

section XCTest

variable {runner : Runner} {testBundle : String} {xctestArgs : List String}
  {configuration : Configuration} {split : Splitting} {mutants : List Mutant}

/-- A covered mutant has the result of a run with its identifier. -/
theorem xctest_covered {r : MutationResult}
    (h : r ∈ XCTestInvocation.run runner testBundle xctestArgs configuration split mutants)
    (hcovered : r.mutant.isCovered = true) :
    ∃ taskID position launch, launch.environment = [r.mutant.identifier] ∧
      launch.timeout =
        (runner.baseline (baselineLaunch testBundle configuration)).runningTime * 10 ∧
      r.result = runner.mutantRun taskID position launch := by
  obtain ⟨taskID, position, hresult⟩ := XCTestInvocation.mem_run h
  rw [XCTestInvocation.MutantExecutionTask.mutantResult, if_pos hcovered] at hresult
  exact ⟨taskID, position, _, rfl, rfl, hresult⟩

theorem xctest_notCovered {r : MutationResult}
    (h : r ∈ XCTestInvocation.run runner testBundle xctestArgs configuration split mutants)
    (hcovered : r.mutant.isCovered = false) : r.result.status = .notCovered := by
  obtain ⟨taskID, position, hresult⟩ := XCTestInvocation.mem_run h
  rw [hresult, XCTestInvocation.MutantExecutionTask.mutantResult, if_neg (by simp [hcovered])]

/-- Over consecutive batches there is one result for each mutant, in order. -/
theorem xctest_mutants (consecutive : Consecutive split)
    (hworkers : 0 < configuration.mutantExecutionWorkers) :
    (XCTestInvocation.run runner testBundle xctestArgs configuration split mutants).map
        MutationResult.mutant = mutants := by
  rw [XCTestInvocation.run_mutants (consecutive.length_le mutants _ hworkers)]
  exact consecutive.flatten_eq mutants _ hworkers

/-- A run depends on the baseline by its running time only. -/
theorem xctest_baseline (baseline' : Launch → ExecutionResult)
    (h : ∀ launch, (baseline' launch).runningTime = (runner.baseline launch).runningTime) :
    XCTestInvocation.run ⟨baseline', runner.mutantRun⟩ testBundle xctestArgs configuration split
        mutants =
      XCTestInvocation.run runner testBundle xctestArgs configuration split mutants := by
  unfold XCTestInvocation.run
  simp only [XCTestInvocation.MutantExecutionTask.operatorCall_storage,
    XCTestInvocation.MutantExecutionTask.mutantResult,
    XCTestInvocation.MutantExecutionTask.launch, XCTestInvocation.task, h]

end XCTest

section XCTestRun

variable {tools : Tools} {config : XCTestRunConfig} {xctestrunFile : String}

/-- The results that a task has stored are those of what it has read, and behind the first store
it does nothing but store. -/
structure StoresLast (task : RunningTask) : Prop where
  stored : ∀ r ∈ task.locals.storage,
    r.result = targetResult task.locals.result task.locals.failureTargets r.mutant
  ahead : ∃ before, ∃ mutants : List Mutant, task.todo = before ++ mutants.map Action.store ∧
    (∀ mutant, Action.store mutant ∉ before) ∧ (before ≠ [] → task.locals.storage = [])

theorem perform_storage {taskID : Nat} {world world' : World} {locals locals' : Locals}
    {action : Action} (h : perform tools taskID world locals action = .ok (world', locals'))
    (hno : ∀ mutant, Action.store mutant ≠ action) : locals'.storage = locals.storage := by
  cases action with
  | copyFile source destination => cases h; rfl
  | edit path edit => cases h; rfl
  | xcodebuild command => cases h; rfl
  | getFailureTestTargets resultFile =>
      obtain ⟨-, failureTargets, rfl⟩ := perform_getFailureTestTargets _ _ h
      rfl
  | store mutant => exact absurd rfl (hno mutant)

theorem storesLast_perform {taskID : Nat} {world world' : World} {task : RunningTask}
    {locals' : Locals} {action : Action} {rest : List Action} (keeps : StoresLast task)
    (htodo : task.todo = action :: rest)
    (hp : perform tools taskID world task.locals action = .ok (world', locals')) :
    StoresLast ⟨locals', rest⟩ := by
  obtain ⟨hstored, before, mutants, hahead, hno, hempty⟩ := keeps
  rw [htodo] at hahead
  cases before with
  | nil =>
      cases mutants with
      | nil => cases hahead
      | cons mutant mutants =>
          obtain ⟨rfl, hrest⟩ := List.cons.inj hahead
          cases hp
          refine ⟨?_, [], mutants, hrest, hno, fun h => absurd rfl h⟩
          intro r hr
          rcases List.mem_append.mp hr with hr | hr
          · exact hstored r hr
          · obtain rfl := List.mem_singleton.mp hr
            rfl
  | cons first before =>
      obtain ⟨rfl, hrest⟩ := List.cons.inj hahead
      have hnothing : locals'.storage = [] := by
        rw [perform_storage hp fun mutant heq => hno mutant (heq ▸ List.mem_cons_self)]
        exact hempty (List.cons_ne_nil _ _)
      refine ⟨?_, before, mutants, hrest, ?_, fun _ => hnothing⟩
      · intro r hr
        rw [hnothing] at hr
        cases hr
      · intro mutant hmem
        exact hno mutant (List.mem_cons_of_mem _ hmem)

theorem storesLast_program (taskID : Nat) (baseline : ExecutionResult) (batch : List Mutant) :
    StoresLast ⟨{}, program taskID config xctestrunFile baseline batch⟩ := by
  refine ⟨?_, _, batch, rfl, ?_, fun _ => rfl⟩
  · intro r hr
    cases hr
  · intro mutant hmem
    simp [generateActions] at hmem

/-- Every task of every reachable state only stores behind what it has read. -/
theorem storesLast_reachable {world : World} {baseline : ExecutionResult} {workers : Nat}
    {batches : List (List Mutant)} {t : System}
    (hrun : Relation.ReflTransGen (Turn (systemStep tools))
      (startSystem config xctestrunFile baseline workers batches world) t) :
    ∀ task ∈ t.tasks, StoresLast task := by
  refine Transition.invariant (fun s => ∀ task ∈ s.tasks, StoresLast task) hrun ?_ ?_
  · intro task htask
    obtain ⟨taskID, htask⟩ := List.mem_iff_getElem?.mp htask
    obtain ⟨batch, -, rfl⟩ := startTasks_cases htask
    exact storesLast_program taskID baseline batch
  · intro s t hs hturn task htask
    obtain ⟨-, taskID, old, action, rest, hold, htodo, hcases⟩ := turn_cases hturn
    rcases hcases with ⟨world, locals, hp, rfl⟩ | ⟨fault, -, rfl⟩
    · rcases List.mem_or_eq_of_mem_set htask with hmem | rfl
      · exact hs task hmem
      · exact storesLast_perform (hs old (List.mem_of_getElem? hold)) htodo hp
    · exact hs task htask

/-- A stored mutant has failed if the failures name it, and has passed otherwise. -/
theorem StoresLast.status {task : RunningTask} (h : StoresLast task) {r : MutationResult}
    (hr : r ∈ task.locals.storage) :
    (r.result.status = .failed ↔ ∃ targets, task.locals.failureTargets = .ok targets ∧
        r.mutant.identifier ∈ targets) ∧
      (r.result.status = .failed ∨ r.result.status = .passed) := by
  rw [h.stored r hr]
  unfold targetResult
  cases hread : task.locals.failureTargets with
  | error message => simp
  | ok targets => by_cases hmem : r.mutant.identifier ∈ targets <;> simp [hmem]

/-- A run depends on the baseline by its running time only. -/
theorem run_baseline {tools : InvocationTools} {configuration : Configuration}
    {split : Splitting} {world : World} {mutants : List Mutant}
    (baselineRun' : Command → Option Plist → Process)
    (h : ∀ command file, (baselineRun' command file).elapsed =
      (tools.baselineRun command file).elapsed) :
    run { tools with baselineRun := baselineRun' } config configuration split world mutants =
      run tools config configuration split world mutants := by
  unfold run startSystem startTasks program command
  simp only [executionResult, h]

end XCTestRun

/-- **The status of the baseline has no say.** In mull-xctest a covered mutant has the result of a
run with its identifier and another one is reported as not covered, each mutant once and in order
where the batches are consecutive; in mull-xctestrun a stored mutant has failed exactly if the
failures that its task read name it. Both runs depend on the baseline by its running time only. -/
theorem verdicts_without_baseline (runner : Runner) (testBundle : String)
    (xctestArgs : List String) (tools : InvocationTools) (config : XCTestRunConfig)
    (configuration : Configuration) (split : Splitting) (world : World) (mutants : List Mutant) :
    ((∀ r ∈ XCTestInvocation.run runner testBundle xctestArgs configuration split mutants,
        (r.mutant.isCovered = true →
          ∃ taskID position launch, launch.environment = [r.mutant.identifier] ∧
            launch.timeout =
              (runner.baseline (baselineLaunch testBundle configuration)).runningTime * 10 ∧
            r.result = runner.mutantRun taskID position launch) ∧
        (r.mutant.isCovered = false → r.result.status = .notCovered)) ∧
      (Consecutive split → 0 < configuration.mutantExecutionWorkers →
        (XCTestInvocation.run runner testBundle xctestArgs configuration split mutants).map
          MutationResult.mutant = mutants) ∧
      ∀ baseline' : Launch → ExecutionResult,
        (∀ launch, (baseline' launch).runningTime = (runner.baseline launch).runningTime) →
          XCTestInvocation.run ⟨baseline', runner.mutantRun⟩ testBundle xctestArgs configuration
              split mutants =
            XCTestInvocation.run runner testBundle xctestArgs configuration split mutants) ∧
    ((∀ s t, run tools config configuration split world mutants = .executing s →
        Relation.ReflTransGen (Turn (systemStep tools.toTools)) s t →
          ∀ task ∈ t.tasks, ∀ r ∈ task.locals.storage,
            (r.result.status = .failed ↔ ∃ targets, task.locals.failureTargets = .ok targets ∧
                r.mutant.identifier ∈ targets) ∧
              (r.result.status = .failed ∨ r.result.status = .passed)) ∧
      ∀ baselineRun' : Command → Option Plist → Process,
        (∀ command file, (baselineRun' command file).elapsed =
            (tools.baselineRun command file).elapsed) →
          run { tools with baselineRun := baselineRun' } config configuration split world mutants =
            run tools config configuration split world mutants) := by
  refine ⟨⟨fun r hr => ⟨xctest_covered hr, xctest_notCovered hr⟩, xctest_mutants, xctest_baseline⟩,
    ?_, run_baseline⟩
  intro s t hs hturns task htask r hr
  obtain ⟨file, baseline, rfl⟩ := run_eq_executing hs
  exact (storesLast_reachable hturns task htask).status hr

section Example

/-- Tests that fail with and without mutants. -/
def failingRunner : Runner where
  baseline _ := ⟨.failed, .process 1, 100⟩
  mutantRun _ _ _ := ⟨.failed, .process 1, 100⟩

/-- The same for mull-xctestrun. -/
def failingTools : InvocationTools :=
  { oracleTools fun _ _ => true with baselineRun := fun _ _ => ⟨false, 65, 100, none⟩ }

/-- The runs would be the same after a baseline that passes. -/
theorem verdicts_without_baseline_example :
    XCTestInvocation.run ⟨fun _ => ⟨.passed, .process 0, 100⟩, failingRunner.mutantRun⟩
        "AppTests.xctest" [] ⟨3000, 1, true⟩ halves [⟨"add_1", true⟩] =
        XCTestInvocation.run failingRunner "AppTests.xctest" [] ⟨3000, 1, true⟩ halves
          [⟨"add_1", true⟩] ∧
      (XCTestInvocation.run failingRunner "AppTests.xctest" [] ⟨3000, 1, true⟩ halves
          [⟨"add_1", true⟩]).map MutationResult.mutant = [⟨"add_1", true⟩] ∧
      run { failingTools with baselineRun := fun _ _ => ⟨false, 0, 100, none⟩ } exampleConfig
          ⟨3000, 1, true⟩ halves exampleWorld [⟨"add_1", true⟩] =
        run failingTools exampleConfig ⟨3000, 1, true⟩ halves exampleWorld [⟨"add_1", true⟩] := by
  obtain ⟨⟨-, hmutants, hxctest⟩, -, hxctestrun⟩ := verdicts_without_baseline failingRunner
    "AppTests.xctest" [] failingTools exampleConfig ⟨3000, 1, true⟩ halves exampleWorld
    [⟨"add_1", true⟩]
  exact ⟨hxctest _ fun _ => rfl, hmutants consecutive_halves Nat.one_pos,
    hxctestrun _ fun _ _ => rfl⟩

/-- Both drivers report a kill where the tests fail without the mutant as well. -/
theorem not_killsNeedBaseline_example :
    ¬ KillsNeedBaseline
        (failingRunner.baseline (baselineLaunch "AppTests.xctest" ⟨3000, 1, true⟩))
        (XCTestInvocation.run failingRunner "AppTests.xctest" [] ⟨3000, 1, true⟩ halves
          [⟨"add_1", true⟩]) ∧
      ¬ AlwaysReturns failingTools
        (KillsNeedBaseline (executionResult ⟨false, 65, 100, none⟩))
        (run failingTools exampleConfig ⟨3000, 1, true⟩ halves exampleWorld [⟨"add_1", true⟩]) := by
  constructor
  · intro h
    exact (h (by decide) _ (List.mem_singleton.mpr rfl)).1 rfl
  · intro h
    have healthy : Healthy failingTools exampleConfig fun _ _ => true :=
      (healthy_oracleTools _ _).of_baselineRun _
    have hworkers : 0 < (⟨3000, 1, true⟩ : Configuration).mutantExecutionWorkers := Nat.one_pos
    obtain ⟨s, hrun, hexact⟩ := run_executing healthy
      (inTime_of_never (timedOut_oracleTools fun _ _ => true)) consecutive_halves
      prepared_exampleWorld hworkers (List.cons_ne_nil ⟨"add_1", true⟩ [])
    rw [hrun] at h
    obtain ⟨t, hturns, hfinal⟩ := Transition.exists_final h.1 s
    have hmem : (⟨"add_1", true⟩, .failed) ∈ statuses (collected t) := by
      rw [(hexact t hturns hfinal).2.2]
      exact List.mem_singleton.mpr rfl
    obtain ⟨r, hr, heq⟩ := List.mem_map.mp hmem
    exact ((h.2 t hturns hfinal).2.2 (by decide) r hr).1 (Prod.mk.inj heq).2

end Example

end MullXCTest.Invocation
