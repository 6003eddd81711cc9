import MullXCTest.Invocation.Isolation

/-!
# A second run over the bundles of a first

xcodebuild does not write over a bundle, and nobody looks at its exit code. So a run with
the result bundle directory of an earlier one reads the bundles that it finds there,
and what it reports is what the earlier run has reported.
-/

namespace MullXCTest.Invocation

open ResultBundle RunFile MutantExecutionTask Interleaving

namespace XCTestRunInvocation

/-- The statuses of some mutants by the failures that were read. -/
def statusesBy (failureTargets : Except String (Finset String)) (mutants : List Mutant) :
    List (Mutant × ExecutionStatus) :=
  mutants.map fun mutant => (mutant, (targetResult {} failureTargets mutant).status)

section Task

variable {tools : Tools} {config : XCTestRunConfig} {xctestrunFile : String}
  {baseline : ExecutionResult} {batch : List Mutant} {s t : System} {taskID : Nat}

/-- A call leaves the bundle that it has read, and what it stores is decided by it. -/
theorem operatorCall_eq_ok {world world' : World} {locals' : Locals}
    (h : operatorCall tools taskID config xctestrunFile baseline batch world =
      .ok (world', locals')) :
    world'.bundles (resultBundlePath config.resultBundleDir config.testTarget taskID) =
        readBundle tools taskID config xctestrunFile baseline batch world ∧
      ∃ failureTargets,
        getFailureTestTargets tools.parse
            (readBundle tools taskID config xctestrunFile baseline batch world) =
          .ok failureTargets ∧
        statuses locals'.storage = statusesBy failureTargets batch := by
  rw [operatorCall_eq] at h
  cases hread : getFailureTestTargets tools.parse
      (readBundle tools taskID config xctestrunFile baseline batch world) with
  | error fault =>
      rw [hread] at h
      cases h
  | ok failureTargets =>
      rw [hread] at h
      obtain ⟨rfl, rfl⟩ := Prod.mk.inj (Except.ok.inj h)
      exact ⟨World.bundles_setBundle_self .., failureTargets, rfl,
        by simp [statuses, statusesBy, finalLocals, targetResult]⟩

/-- The results of a task that has returned are those of its bundle. -/
theorem statuses_of_returned {task : RunningTask} (separated : Separated config xctestrunFile s)
    (reached : Relation.ReflTransGen (Turn (systemStep tools)) s t)
    (hstart : s.tasks[taskID]? = some ⟨{}, program taskID config xctestrunFile baseline batch⟩)
    (htask : t.tasks[taskID]? = some task) (hreturned : task.todo = []) :
    t.world.bundles (resultBundlePath config.resultBundleDir config.testTarget taskID) =
        readBundle tools taskID config xctestrunFile baseline batch s.world ∧
      ∃ failureTargets, getFailureTestTargets tools.parse
          (t.world.bundles (resultBundlePath config.resultBundleDir config.testTarget taskID)) =
            .ok failureTargets ∧
        statuses task.locals.storage = statusesBy failureTargets batch := by
  obtain ⟨done, hprogram, hdone⟩ := performAll_of_reached separated reached hstart htask
  rw [hreturned, List.append_nil] at hprogram
  subst hprogram
  obtain ⟨hbundle, failureTargets, hread, hstatuses⟩ := operatorCall_eq_ok hdone
  rw [bundles_taskWorld, readBundle_taskWorld] at hbundle
  rw [readBundle_taskWorld, ← hbundle] at hread
  exact ⟨hbundle, failureTargets, hread, hstatuses⟩

/-- A task that finds a bundle returns with the results of that bundle. -/
theorem operatorCall_of_bundle {world : World} {bundle : Bundle}
    {failureTargets : Except String (Finset String)}
    (refuses : ∀ command file bundle, (tools.xcodebuild command file (some bundle)).written = none)
    (hbundle : world.bundles
      (resultBundlePath config.resultBundleDir config.testTarget taskID) = some bundle)
    (hread : getFailureTestTargets tools.parse (some bundle) = .ok failureTargets) :
    ∃ world' locals', operatorCall tools taskID config xctestrunFile baseline batch world =
        .ok (world', locals') ∧
      statuses locals'.storage = statusesBy failureTargets batch := by
  have hkept : readBundle tools taskID config xctestrunFile baseline batch world =
      some bundle := by
    rw [readBundle, runProcess, hbundle, refuses]
    rfl
  rw [operatorCall_eq, hkept, hread]
  exact ⟨_, _, rfl, by simp [statuses, statusesBy, finalLocals, targetResult]⟩

end Task

section Run

variable {tools tools' : InvocationTools} {config config' : XCTestRunConfig}
  {configuration configuration' : Configuration} {split : Splitting} {world world' : World}
  {mutants : List Mutant} {s s' t t' : System}

/-- The second run is given the directory of the first, where the bundles still are, and its
xcodebuild writes over none of them. The run files, the tests and the other tools may differ. -/
structure LaterRun (tools tools' : InvocationTools) (config config' : XCTestRunConfig)
    (left world' : World) : Prop where
  resultBundleDir : config'.resultBundleDir = config.resultBundleDir
  testTarget : config'.testTarget = config.testTarget
  parse : tools'.parse = tools.parse
  refuses : ∀ command file bundle,
    (tools'.xcodebuild command file (some bundle)).written = none
  bundles : world'.bundles = left.bundles

theorem statuses_collected (t : System) :
    statuses (collected t) = t.tasks.flatMap fun task => statuses task.locals.storage :=
  List.map_flatMap

/-- The same batches are started in both runs. -/
theorem startTasks_batch {xctestrunFile xctestrunFile' : String}
    {baseline baseline' : ExecutionResult} {workers taskID : Nat} {batches : List (List Mutant)} :
    (∃ batch,
      (startTasks config xctestrunFile baseline workers batches)[taskID]? =
          some ⟨{}, program taskID config xctestrunFile baseline batch⟩ ∧
        (startTasks config' xctestrunFile' baseline' workers batches)[taskID]? =
          some ⟨{}, program taskID config' xctestrunFile' baseline' batch⟩) ∨
      (startTasks config xctestrunFile baseline workers batches)[taskID]? = none ∧
        (startTasks config' xctestrunFile' baseline' workers batches)[taskID]? = none := by
  cases hstart : (startTasks config xctestrunFile baseline workers batches)[taskID]? with
  | none =>
      refine .inr ⟨rfl, ?_⟩
      rw [List.getElem?_eq_none_iff] at hstart ⊢
      simpa [startTasks] using hstart
  | some task =>
      obtain ⟨batch, hbatch, rfl⟩ := startTasks_cases hstart
      refine .inl ⟨batch, rfl, ?_⟩
      have hlt := (List.getElem?_eq_some_iff.mp hstart).1
      rw [startTasks, List.length_zipWith, List.length_range] at hlt
      rw [startTasks, List.getElem?_zipWith, hbatch, List.getElem?_range (lt_min_iff.mp hlt).1]

/-- Where all tasks of a run have returned and each has left a bundle, each task of a later run
finds a bundle with the statuses of its counterpart. -/
theorem task_repeats
    (h : run tools config configuration split world mutants = .executing s)
    (reached : Relation.ReflTransGen (Turn (systemStep tools.toTools)) s t)
    (returned : ∀ task ∈ t.tasks, task.todo = [])
    (left : ∀ taskID < t.tasks.length,
      t.world.bundles (resultBundlePath config.resultBundleDir config.testTarget taskID) ≠ none)
    (later : LaterRun tools tools' config config' t.world world') {xctestrunFile' : String}
    {baseline' : ExecutionResult} {world'' : World} (hbundles : world''.bundles = world'.bundles)
    (taskID : Nat) :
    (t.tasks[taskID]? = none ∧
        (startTasks config' xctestrunFile' baseline' configuration.mutantExecutionWorkers
          (split mutants configuration.mutantExecutionWorkers))[taskID]? = none) ∨
      ∃ batch task world₁ locals', t.tasks[taskID]? = some task ∧
        (startTasks config' xctestrunFile' baseline' configuration.mutantExecutionWorkers
          (split mutants configuration.mutantExecutionWorkers))[taskID]? =
            some ⟨{}, program taskID config' xctestrunFile' baseline' batch⟩ ∧
        operatorCall tools'.toTools taskID config' xctestrunFile' baseline' batch world'' =
          .ok (world₁, locals') ∧
        statuses locals'.storage = statuses task.locals.storage := by
  obtain ⟨file, baseline, rfl⟩ := run_eq_executing h
  rcases @startTasks_batch config config' (singleTargetRunFile config) xctestrunFile' baseline
      baseline' configuration.mutantExecutionWorkers taskID
      (split mutants configuration.mutantExecutionWorkers) with
    ⟨batch, hstart, hstart'⟩ | ⟨hnone, hnone'⟩
  · have hlt : taskID < t.tasks.length := by
      rw [length_tasks reached]
      exact (List.getElem?_eq_some_iff.mp hstart).1
    have htask := List.getElem?_eq_getElem hlt
    obtain ⟨bundle, hbundle⟩ := Option.ne_none_iff_exists'.mp (left taskID hlt)
    obtain ⟨-, failureTargets, hread, hstatuses⟩ := statuses_of_returned separated_start reached
      hstart htask (returned _ (List.mem_of_getElem? htask))
    have hbundle' : world''.bundles
        (resultBundlePath config'.resultBundleDir config'.testTarget taskID) = some bundle := by
      rw [hbundles, later.bundles, later.resultBundleDir, later.testTarget, hbundle]
    rw [hbundle, ← later.parse] at hread
    obtain ⟨world₁, locals', hcall, hstatuses'⟩ :=
      operatorCall_of_bundle later.refuses hbundle' hread
    exact .inr ⟨batch, _, world₁, locals', htask, hstart', hcall, hstatuses'.trans hstatuses.symm⟩
  · refine .inl ⟨?_, hnone'⟩
    rw [List.getElem?_eq_none_iff, length_tasks reached]
    exact List.getElem?_eq_none_iff.mp hnone

/-- **A second run repeats the first.** Where all tasks of a run have returned and each has left a
bundle, a later run of the same mutants with the same bundle directory ends in every interleaving
without a fault and with the same statuses, whatever the tests do by then. -/
theorem second_run_repeats
    (h : run tools config configuration split world mutants = .executing s)
    (reached : Relation.ReflTransGen (Turn (systemStep tools.toTools)) s t)
    (returned : ∀ task ∈ t.tasks, task.todo = [])
    (left : ∀ taskID < t.tasks.length,
      t.world.bundles (resultBundlePath config.resultBundleDir config.testTarget taskID) ≠ none)
    (later : LaterRun tools tools' config config' t.world world')
    (hworkers : configuration'.mutantExecutionWorkers = configuration.mutantExecutionWorkers)
    (h' : run tools' config' configuration' split world' mutants = .executing s')
    (reached' : Relation.ReflTransGen (Turn (systemStep tools'.toTools)) s' t')
    (hfinal : Transition.Final (Turn (systemStep tools'.toTools)) t') :
    t'.fault = none ∧ (∀ task ∈ t'.tasks, task.todo = []) ∧
      statuses (collected t') = statuses (collected t) := by
  obtain ⟨file', baseline', rfl⟩ := run_eq_executing h'
  rw [hworkers] at reached'
  have hrepeats := @task_repeats _ _ _ config' _ _ _ world' _ _ _ h reached returned left later
    (singleTargetRunFile config') baseline'
    (world'.setRunFile (singleTargetRunFile config') file') rfl
  have hfault : t'.fault = none := by
    apply goesOn_of_calls _ reached'
    intro taskID task hstart
    rcases hrepeats taskID with ⟨-, hnone⟩ | ⟨batch, -, world₁, locals', -, hstart', hcall, -⟩
    · rw [hnone] at hstart
      cases hstart
    · obtain rfl := Option.some.inj (hstart.symm.trans hstart')
      exact ⟨world₁, locals', hcall⟩
  have hends : ∀ taskID : Nat, (t.tasks[taskID]? = none ∧ t'.tasks[taskID]? = none) ∨
      ∃ (task : RunningTask) (locals' : Locals), t.tasks[taskID]? = some task ∧
        t'.tasks[taskID]? = some ⟨locals', []⟩ ∧
        statuses locals'.storage = statuses task.locals.storage := by
    intro taskID
    rcases hrepeats taskID with ⟨hnone, hnone'⟩ |
      ⟨batch, task, world₁, locals', htask, hstart', hcall, hstatuses⟩
    · refine .inl ⟨hnone, ?_⟩
      rw [List.getElem?_eq_none_iff, length_tasks reached']
      exact List.getElem?_eq_none_iff.mp hnone'
    · exact .inr ⟨task, locals', htask,
        task_of_final separated_start reached' hfinal hfault hstart' hcall, hstatuses⟩
  refine ⟨hfault, ?_, ?_⟩
  · intro task' hmem
    obtain ⟨taskID, htask'⟩ := List.mem_iff_getElem?.mp hmem
    rcases hends taskID with ⟨-, hnone⟩ | ⟨task, locals', -, heq, -⟩
    · rw [hnone] at htask'
      cases htask'
    · obtain rfl := Option.some.inj (htask'.symm.trans heq)
      rfl
  · have hmap : t'.tasks.map (fun task => statuses task.locals.storage) =
        t.tasks.map fun task => statuses task.locals.storage := by
      apply List.ext_getElem?
      intro taskID
      rw [List.getElem?_map, List.getElem?_map]
      rcases hends taskID with ⟨hnone, hnone'⟩ | ⟨task, locals', htask, htask', hstatuses⟩
      · rw [hnone, hnone']
      · rw [htask, htask']
        exact congrArg some hstatuses
    rw [statuses_collected, statuses_collected, List.flatMap, List.flatMap, hmap]

end Run

section Example

def exampleMutants : List Mutant := [⟨"add_1", true⟩, ⟨"sub_2", true⟩]

/-- The tests have been repaired in between. -/
def laterTools : InvocationTools := oracleTools fun _ _ => false

theorem laterRun_laterTools (left : World) :
    LaterRun (oracleTools exampleOracle) laterTools exampleConfig exampleConfig left left where
  resultBundleDir := rfl
  testTarget := rfl
  parse := rfl
  refuses := by
    intro command file bundle
    cases file <;> rfl
  bundles := rfl

/-- Where there is a run file and no bundle in its way, a bundle is written. -/
theorem readBundle_oracleTools {testsFail : TestOracle} {taskID : Nat}
    {config : XCTestRunConfig} {xctestrunFile : String} {baseline : ExecutionResult}
    {batch : List Mutant} {world : World} {base : Plist}
    (hsrc : world.runFiles xctestrunFile = some base)
    (hbundle : world.bundles
      (resultBundlePath config.resultBundleDir config.testTarget taskID) = none) :
    readBundle (oracleTools testsFail).toTools taskID config xctestrunFile baseline batch world ≠
      none := by
  simp [readBundle, runProcess, executedRunFile, hsrc, hbundle, oracleTools]

/-- In every interleaving the first run ends with these results and its bundles. -/
theorem firstRun_ends :
    ∃ s t : System, run (oracleTools exampleOracle) exampleConfig ⟨3000, 2, true⟩ halves
          exampleWorld exampleMutants = .executing s ∧
      Relation.ReflTransGen
        (Turn (systemStep (oracleTools exampleOracle).toTools)) s t ∧
      (∀ task ∈ t.tasks, task.todo = []) ∧
      statuses (collected t) = [(⟨"add_1", true⟩, .failed), (⟨"sub_2", true⟩, .passed)] ∧
      ∀ taskID < t.tasks.length, t.world.bundles
        (resultBundlePath exampleConfig.resultBundleDir exampleConfig.testTarget taskID) ≠
          none := by
  obtain ⟨s, hrun, hexact⟩ := run_executing (healthy_oracleTools exampleOracle exampleConfig)
    (inTime_oracleTools _ _ ⟨3000, 2, true⟩ _ _ _)
    consecutive_halves prepared_exampleWorld Nat.two_pos (List.cons_ne_nil _ _)
  obtain ⟨t, reached, hfinal⟩ := Transition.exists_final turn_wellFounded s
  obtain ⟨-, returned, hstatuses⟩ := hexact t reached hfinal
  refine ⟨s, t, hrun, reached, returned, hstatuses, ?_⟩
  cases hrun
  intro taskID hlt
  have htask := List.getElem?_eq_getElem hlt
  rw [length_tasks reached] at hlt
  obtain ⟨batch, -, hstart⟩ := startTasks_cases (List.getElem?_eq_getElem hlt)
  rw [(statuses_of_returned separated_start reached (hstart ▸ List.getElem?_eq_getElem hlt) htask
    (returned _ (List.mem_of_getElem? htask))).1]
  exact readBundle_oracleTools (World.runFiles_setRunFile_self ..) rfl

/-- The mutant that failed in the first run is reported again, though no test fails any more. -/
theorem second_run_repeats_example :
    ∃ s t s' t' : System, run (oracleTools exampleOracle) exampleConfig ⟨3000, 2, true⟩ halves
          exampleWorld exampleMutants = .executing s ∧
      Relation.ReflTransGen
        (Turn (systemStep (oracleTools exampleOracle).toTools)) s t ∧
      run laterTools exampleConfig ⟨3000, 2, true⟩ halves t.world exampleMutants =
        .executing s' ∧
      Relation.ReflTransGen
        (Turn (systemStep laterTools.toTools)) s' t' ∧
      statuses (collected t') = [(⟨"add_1", true⟩, .failed), (⟨"sub_2", true⟩, .passed)] := by
  obtain ⟨s, t, hrun, reached, returned, hstatuses, left⟩ := firstRun_ends
  have hfile : t.world.runFiles exampleConfig.xctestrunFile = some exampleRunFile :=
    xctestrunFile_reached hrun reached
  obtain ⟨s', hrun'⟩ : ∃ s', run laterTools exampleConfig ⟨3000, 2, true⟩ halves t.world
      exampleMutants = .executing s' := by
    unfold run
    rw [hfile]
    exact ⟨_, rfl⟩
  obtain ⟨t', reached', hfinal⟩ := Transition.exists_final turn_wellFounded s'
  refine ⟨s, t, s', t', hrun, reached, hrun', reached', ?_⟩
  rw [(second_run_repeats hrun reached returned left (laterRun_laterTools _) rfl hrun' reached'
    hfinal).2.2, hstatuses]

end Example

end XCTestRunInvocation

end MullXCTest.Invocation
