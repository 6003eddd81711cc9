import MullXCTest.Invocation.GeneratedTargets

/-!
# The tasks of mull-xctestrun do not disturb each other

With tools that fail in any way the tasks still write to nothing but their own run file
and their own bundle. So the rest of the world is the same in every state of a run,
xcodebuild is given the run file that its task has made, and all interleavings that
no fault ends come to one state.
-/

namespace MullXCTest.Invocation

open RunFile MutantExecutionTask Interleaving

namespace XCTestRunInvocation

variable {tools : Tools} {config : XCTestRunConfig} {xctestrunFile : String} {s t t' : System}

/-- Nothing is different outside the run files and the bundles of that many tasks. -/
structure SameOutside (config : XCTestRunConfig) (xctestrunFile : String) (workers : Nat)
    (world world' : World) : Prop where
  runFiles : ∀ path, (∀ taskID < workers, path ≠ localRunFile taskID xctestrunFile) →
    world'.runFiles path = world.runFiles path
  bundles : ∀ path,
    (∀ taskID < workers,
      path ≠ resultBundlePath config.resultBundleDir config.testTarget taskID) →
    world'.bundles path = world.bundles path

/-- One action of a task changes nothing but what the task owns. -/
theorem sameOutside_turn (separated : Separated config xctestrunFile s)
    (h : Turn (systemStep tools) s t) :
    SameOutside config xctestrunFile s.tasks.length s.world t.world := by
  obtain ⟨-, taskID, task, action, rest, htask, htodo, hcases⟩ := turn_cases h
  have hlt := (List.getElem?_eq_some_iff.mp htask).1
  rcases hcases with ⟨world, locals, hp, rfl⟩ | ⟨fault, -, rfl⟩
  · have hown := separated.own taskID task htask action (htodo ▸ List.mem_cons_self)
    have same := sameBut_perform hown hp
    exact ⟨fun path hpath => same.runFiles path (hpath taskID hlt),
      fun path hpath => same.bundles path (hpath taskID hlt)⟩
  · exact ⟨fun _ _ => rfl, fun _ _ => rfl⟩

theorem sameOutside (separated : Separated config xctestrunFile s)
    (run : Relation.ReflTransGen (Turn (systemStep tools)) s t) :
    SameOutside config xctestrunFile s.tasks.length s.world t.world := by
  induction run with
  | refl => exact ⟨fun _ _ => rfl, fun _ _ => rfl⟩
  | @tail t u hrun hturn ih =>
      have hstep := sameOutside_turn
        (separated_reachable separated hrun (turn_cases hturn).1) hturn
      rw [length_tasks hrun] at hstep
      constructor
      · intro path hpath
        rw [hstep.runFiles path hpath, ih.runFiles path hpath]
      · intro path hpath
        rw [hstep.bundles path hpath, ih.bundles path hpath]

/-- The views of the tasks tell the tasks. -/
theorem tasks_of_agentViews
    (views : ∀ taskID, agentView config xctestrunFile taskID t =
      agentView config xctestrunFile taskID t') : t.tasks = t'.tasks := by
  apply List.ext_getElem?
  intro taskID
  have hview := congrArg (Option.map Prod.snd) (views taskID)
  simpa [agentView, Option.map_map, Function.comp_def] using hview

theorem taskWorld_of_agentViews
    (views : ∀ taskID, agentView config xctestrunFile taskID t =
      agentView config xctestrunFile taskID t') {taskID : Nat} (hlt : taskID < t.tasks.length) :
    taskWorld taskID config xctestrunFile t.world =
      taskWorld taskID config xctestrunFile t'.world := by
  have hview := views taskID
  rw [agentView, agentView, ← tasks_of_agentViews views, List.getElem?_eq_getElem hlt] at hview
  exact (Prod.mk.inj (Option.some.inj hview)).1

/-- Where the tasks have the same views and the rest of the world is the same, so is the world. -/
theorem eq_of_agentViews (hlength : t.tasks.length = s.tasks.length)
    (outside : SameOutside config xctestrunFile s.tasks.length s.world t.world)
    (outside' : SameOutside config xctestrunFile s.tasks.length s.world t'.world)
    (hfault : t.fault = t'.fault)
    (views : ∀ taskID, agentView config xctestrunFile taskID t =
      agentView config xctestrunFile taskID t') : t = t' := by
  have htasks := tasks_of_agentViews views
  have hworlds : ∀ taskID < s.tasks.length,
      taskWorld taskID config xctestrunFile t.world =
        taskWorld taskID config xctestrunFile t'.world :=
    fun taskID hlt => taskWorld_of_agentViews views (hlength ▸ hlt)
  have hfiles : t.world.runFiles = t'.world.runFiles := by
    funext path
    by_cases hown : ∃ taskID < s.tasks.length, path = localRunFile taskID xctestrunFile
    · obtain ⟨taskID, hlt, rfl⟩ := hown
      exact (taskWorld_eq_iff.mp (hworlds taskID hlt)).2.1
    · have hpath : ∀ taskID < s.tasks.length, path ≠ localRunFile taskID xctestrunFile :=
        fun taskID hlt heq => hown ⟨taskID, hlt, heq⟩
      rw [outside.runFiles path hpath, outside'.runFiles path hpath]
  have hbundles : t.world.bundles = t'.world.bundles := by
    funext path
    by_cases hown : ∃ taskID < s.tasks.length,
        path = resultBundlePath config.resultBundleDir config.testTarget taskID
    · obtain ⟨taskID, hlt, rfl⟩ := hown
      exact (taskWorld_eq_iff.mp (hworlds taskID hlt)).2.2
    · have hpath : ∀ taskID < s.tasks.length,
          path ≠ resultBundlePath config.resultBundleDir config.testTarget taskID :=
        fun taskID hlt heq => hown ⟨taskID, hlt, heq⟩
      rw [outside.bundles path hpath, outside'.bundles path hpath]
  obtain ⟨⟨files, bundles⟩, tasks, fault⟩ := t
  obtain ⟨⟨files', bundles'⟩, tasks', fault'⟩ := t'
  simp only at hfiles hbundles htasks hfault
  rw [hfiles, hbundles, htasks, hfault]

/-- In an interleaving a task has done the first of its actions, as it does them alone. -/
theorem alone_prefix {taskID : Nat} {world : World} {locals : Locals} {todo : List Action}
    {agent : Option (World × RunningTask)}
    (run : Relation.ReflTransGen (Alone (agentNext tools) taskID) (some (world, ⟨locals, todo⟩))
      agent) :
    ∃ done world' locals' todo', agent = some (world', ⟨locals', todo'⟩) ∧ todo = done ++ todo' ∧
      performAll tools taskID world locals done = .ok (world', locals') := by
  induction run with
  | refl => exact ⟨[], world, locals, todo, rfl, rfl, rfl⟩
  | @tail _ agent _ hstep ih =>
      obtain ⟨done, world', locals', todo', rfl, rfl, hdone⟩ := ih
      cases todo' with
      | nil => cases hstep
      | cons action rest =>
          cases hp : perform tools taskID world' locals' action with
          | error fault =>
              simp [Alone, agentNext, taskStep, hp, bind, Except.bind, Except.map] at hstep
          | ok p =>
              simp only [Alone, agentNext, taskStep, hp, bind, Except.bind, pure, Except.pure,
                Except.map, Except.ok.injEq, Option.some.injEq, Option.map_some] at hstep
              refine ⟨done ++ [action], p.1, p.2, rest, hstep.symm, by simp, ?_⟩
              rw [performAll_append, hdone]
              simp [bind, Except.bind, performAll, hp]

/-- A state after a fault is the one before it but for the fault. -/
theorem exists_goesOn (hgoesOn : s.fault = none)
    (run : Relation.ReflTransGen (Turn (systemStep tools)) s t) :
    ∃ u, Relation.ReflTransGen (Turn (systemStep tools)) s u ∧ u.fault = none ∧
      u.world = t.world ∧ u.tasks = t.tasks := by
  rcases run.cases_tail with rfl | ⟨u, hrun, hturn⟩
  · exact ⟨_, .refl, hgoesOn, rfl, rfl⟩
  · obtain ⟨hfault, taskID, task, action, rest, -, -, hcases⟩ := turn_cases hturn
    rcases hcases with ⟨world, locals, -, rfl⟩ | ⟨fault, -, rfl⟩
    · exact ⟨_, hrun.tail hturn, rfl, rfl, rfl⟩
    · exact ⟨u, hrun, hfault, rfl, rfl⟩

/-- What a task has done by a state of an interleaving, it does alone. -/
theorem performAll_of_reached (separated : Separated config xctestrunFile s)
    (reached : Relation.ReflTransGen (Turn (systemStep tools)) s t) {taskID : Nat}
    {locals : Locals} {todo : List Action} {task : RunningTask}
    (hstart : s.tasks[taskID]? = some ⟨locals, todo⟩) (htask : t.tasks[taskID]? = some task) :
    ∃ done, todo = done ++ task.todo ∧
      performAll tools taskID (taskWorld taskID config xctestrunFile s.world) locals done =
        .ok (taskWorld taskID config xctestrunFile t.world, task.locals) := by
  obtain ⟨u, hrun, hfault, hworld, htasks⟩ := exists_goesOn separated.goesOn reached
  have halone := independent.alone separated hrun (separated_reachable separated hrun hfault)
    taskID
  rw [agentView, agentView, hstart, htasks, htask, hworld] at halone
  obtain ⟨done, world', locals', todo', hview, htodo, hdone⟩ := alone_prefix halone
  obtain ⟨rfl, rfl⟩ := Prod.mk.inj (Option.some.inj hview)
  exact ⟨done, htodo, hdone⟩

/-- Only xcodebuild is given a run file. -/
theorem executed_perform {taskID : Nat} {world world' : World} {locals locals' : Locals}
    {action : Action} (h : perform tools taskID world locals action = .ok (world', locals'))
    (hother : ∀ command, action ≠ .xcodebuild command) :
    locals'.process = locals.process ∧ locals'.executed = locals.executed := by
  cases action with
  | copyFile source destination => cases h; exact ⟨rfl, rfl⟩
  | edit path edit => cases h; exact ⟨rfl, rfl⟩
  | xcodebuild command => exact absurd rfl (hother command)
  | getFailureTestTargets resultFile =>
      obtain ⟨-, failureTargets, rfl⟩ := perform_getFailureTestTargets _ _ h
      exact ⟨rfl, rfl⟩
  | store mutant => cases h; exact ⟨rfl, rfl⟩

theorem executed_performAll {taskID : Nat} {done : List Action} {world world' : World}
    {locals locals' : Locals}
    (h : performAll tools taskID world locals done = .ok (world', locals'))
    (hother : ∀ command, Action.xcodebuild command ∉ done) :
    locals'.process = locals.process ∧ locals'.executed = locals.executed := by
  induction done generalizing world locals with
  | nil => cases h; exact ⟨rfl, rfl⟩
  | cons action rest ih =>
      obtain ⟨⟨world₁, locals₁⟩, hp, hrest⟩ := Outcome.bind_eq_ok.mp h
      obtain ⟨hprocess, hexecuted⟩ := ih hrest fun command hmem =>
        hother command (List.mem_cons_of_mem _ hmem)
      obtain ⟨hprocess₁, hexecuted₁⟩ := executed_perform hp fun command heq =>
        hother command (heq ▸ List.mem_cons_self)
      exact ⟨hprocess.trans hprocess₁, hexecuted.trans hexecuted₁⟩

/-- A task that has run xcodebuild ran it on the run file for its batch. -/
theorem executed_eq {taskID : Nat} {baseline : ExecutionResult} {batch : List Mutant}
    {world world' : World} {locals' : Locals} {done todo : List Action}
    (hprogram : program taskID config xctestrunFile baseline batch = done ++ todo)
    (h : performAll tools taskID world {} done = .ok (world', locals'))
    (hprocess : locals'.process ≠ none) :
    locals'.process = some (runProcess tools taskID config xctestrunFile baseline batch world) ∧
      locals'.executed = executedRunFile tools taskID config xctestrunFile batch world := by
  have hgenerate : ∀ command, Action.xcodebuild command ∉
      generateActions taskID config xctestrunFile batch := by simp [generateActions]
  have hreport : ∀ path, ∀ command, Action.xcodebuild command ∉
      Action.getFailureTestTargets path :: batch.map .store := by simp
  rw [program_eq] at hprogram
  rcases List.append_eq_append_iff.mp hprogram with ⟨c, rfl, hc⟩ | ⟨c, hdone, -⟩
  · rw [performAll_append, performAll_run] at h
    exact executed_performAll h fun command hmem =>
      hreport _ command (hc ▸ List.mem_append_left _ hmem)
  · cases c using List.reverseRecOn with
    | nil =>
        rw [List.append_nil] at hdone
        subst hdone
        rw [performAll_run] at h
        obtain ⟨-, rfl⟩ := Prod.mk.inj (Except.ok.inj h)
        exact ⟨rfl, rfl⟩
    | append_singleton c action =>
        rw [← List.append_assoc] at hdone
        have hbefore := (List.append_inj' hdone rfl).1
        have hnone := (executed_performAll h fun command hmem =>
          hgenerate command (hbefore ▸ List.mem_append_left _ hmem)).1
        exact absurd hnone hprocess

/-- An interleaving that comes to its end without a fault shows where all others lead. -/
theorem leads_to_final (separated : Separated config xctestrunFile s)
    (run : Relation.ReflTransGen (Turn (systemStep tools)) s t)
    (hfinal : Transition.Final (Turn (systemStep tools)) t) (hfault : t.fault = none) {u : System}
    (run' : Relation.ReflTransGen (Turn (systemStep tools)) s u) :
    u.fault = none ∧ Relation.ReflTransGen (Turn (systemStep tools)) u t := by
  have hgood := separated_reachable separated run hfault
  have good : ∀ t', Relation.ReflTransGen (Turn (systemStep tools)) s t' →
      Separated config xctestrunFile t' := fun _ =>
    independent.good_of_joined separated separated (.refl _) run hgood hfinal
  refine ⟨(good u run').goesOn, ?_⟩
  obtain ⟨t', hrest, hfinal'⟩ := Transition.exists_final turn_wellFounded u
  have hgood' := good t' (run'.trans hrest)
  have views := independent.views_agree separated separated (.refl _) run hgood hfinal
    (run'.trans hrest) hgood' hfinal'
  obtain rfl : t = t' := eq_of_agentViews (length_tasks run) (sameOutside separated run)
    (sameOutside separated (run'.trans hrest)) (hfault.trans hgood'.goesOn.symm) views
  exact hrest

/-- **The order of the tasks does not matter.** Whatever the tools do, no interleaving of the tasks
of the executor goes on for ever. Either every one that comes to an end is ended by a fault, or
none is, and then there is one state in which all of them end, with the same run files, bundles
and results; every partial interleaving can be continued to it. -/
theorem interleavings_confluent (tools : Tools) (config : XCTestRunConfig) (xctestrunFile : String)
    (baseline : ExecutionResult) (workers : Nat) (batches : List (List Mutant)) (world : World) :
    (WellFounded fun t s => Turn (systemStep tools) s t) ∧
      ((∀ t, Relation.ReflTransGen (Turn (systemStep tools))
            (startSystem config xctestrunFile baseline workers batches world) t →
          Transition.Final (Turn (systemStep tools)) t → t.fault ≠ none) ∨
        ∃ t, Relation.ReflTransGen (Turn (systemStep tools))
            (startSystem config xctestrunFile baseline workers batches world) t ∧
          Transition.Final (Turn (systemStep tools)) t ∧
          ∀ u, Relation.ReflTransGen (Turn (systemStep tools))
              (startSystem config xctestrunFile baseline workers batches world) u →
            u.fault = none ∧ Relation.ReflTransGen (Turn (systemStep tools)) u t) := by
  refine ⟨turn_wellFounded, or_iff_not_imp_left.mpr fun hfaults => ?_⟩
  push Not at hfaults
  obtain ⟨t, hrun, hfinal, hfault⟩ := hfaults
  exact ⟨t, hrun, hfinal, fun u hu => leads_to_final separated_start hrun hfinal hfault hu⟩

section Run

variable {tools : InvocationTools} {configuration : Configuration} {split : Splitting}
  {world : World} {mutants : List Mutant} {s t : System}

/-- What a run may have changed of the run files and result bundles when it is in a state, and what
its tasks have run by then. -/
structure Isolated (tools : InvocationTools) (config : XCTestRunConfig)
    (configuration : Configuration) (split : Splitting) (world : World) (mutants : List Mutant)
    (s t : System) : Prop where
  xctestrunFile : t.world.runFiles config.xctestrunFile = world.runFiles config.xctestrunFile
  singleTarget : t.world.runFiles (singleTargetRunFile config) =
    s.world.runFiles (singleTargetRunFile config)
  runFiles : ∀ path, path ≠ singleTargetRunFile config →
    (∀ taskID < configuration.mutantExecutionWorkers,
      path ≠ localRunFile taskID (singleTargetRunFile config)) →
    t.world.runFiles path = world.runFiles path
  bundles : ∀ path,
    (∀ taskID < configuration.mutantExecutionWorkers,
      path ≠ resultBundlePath config.resultBundleDir config.testTarget taskID) →
    t.world.bundles path = world.bundles path
  executed : ∀ taskID task, t.tasks[taskID]? = some task → task.locals.process ≠ none →
    ∃ batch, (split mutants configuration.mutantExecutionWorkers)[taskID]? = some batch ∧
      task.locals.executed = executedRunFile tools.toTools taskID config
        (singleTargetRunFile config) batch s.world

theorem length_startTasks_le (baseline : ExecutionResult) (workers : Nat)
    (batches : List (List Mutant)) :
    (startTasks config xctestrunFile baseline workers batches).length ≤ workers := by
  rw [startTasks, List.length_zipWith, List.length_range]
  exact Nat.min_le_left _ _

/-- The executor starts in a world where the base file is new. -/
theorem world_executing (h : run tools config configuration split world mutants = .executing s) :
    (∀ path, path ≠ singleTargetRunFile config →
      s.world.runFiles path = world.runFiles path) ∧ s.world.bundles = world.bundles := by
  obtain ⟨file, baseline, rfl⟩ := run_eq_executing h
  exact ⟨fun path hpath => World.runFiles_setRunFile_ne _ _ _ hpath, rfl⟩

theorem sameOutside_run (h : run tools config configuration split world mutants = .executing s)
    (reached : Relation.ReflTransGen (Turn (systemStep tools.toTools)) s t) :
    SameOutside config (singleTargetRunFile config) configuration.mutantExecutionWorkers s.world
      t.world := by
  obtain ⟨file, baseline, rfl⟩ := run_eq_executing h
  have hworkers := @length_startTasks_le config (singleTargetRunFile config) baseline
    configuration.mutantExecutionWorkers (split mutants configuration.mutantExecutionWorkers)
  have outside := sameOutside separated_start reached
  constructor
  · intro path hpath
    exact outside.runFiles path fun taskID hlt => hpath taskID (hlt.trans_le hworkers)
  · intro path hpath
    exact outside.bundles path fun taskID hlt => hpath taskID (hlt.trans_le hworkers)

/-- The xctestrun file of the user is never written. -/
theorem xctestrunFile_reached
    (h : run tools config configuration split world mutants = .executing s)
    (reached : Relation.ReflTransGen (Turn (systemStep tools.toTools)) s t) :
    t.world.runFiles config.xctestrunFile = world.runFiles config.xctestrunFile := by
  rw [(sameOutside_run h reached).runFiles]
  · exact (world_executing h).1 _ (xctestrunFile_ne_singleTargetRunFile config)
  · exact fun taskID _ => xctestrunFile_ne_localRunFile config taskID

end Run

section Example

end Example

end XCTestRunInvocation

end MullXCTest.Invocation
