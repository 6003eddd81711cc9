import MullXCTest.Invocation.XCTestRunTask

/-!
# The files of a task

Every task of mull-xctestrun copies one run file that all tasks share, and works on
a copy and a result bundle of its own. Its actions change nothing else and do
nothing else with the rest of the world, so that they come to the same on these
files alone.
-/

namespace MullXCTest.Invocation

open ResultBundle RunFile

namespace MutantExecutionTask

variable {tools : Tools} {taskID : Nat} {config : XCTestRunConfig} {xctestrunFile : String}

/-- An action on the files of a task. -/
def Action.Own (taskID : Nat) (config : XCTestRunConfig) (xctestrunFile : String) : Action → Prop
  | .copyFile source destination =>
      source = xctestrunFile ∧ destination = localRunFile taskID xctestrunFile
  | .edit path _ => path = localRunFile taskID xctestrunFile
  | .xcodebuild command =>
      command.runFile = some (localRunFile taskID xctestrunFile) ∧
        command.resultBundle =
          some (resultBundlePath config.resultBundleDir config.testTarget taskID)
  | .getFailureTestTargets resultFile =>
      resultFile = resultBundlePath config.resultBundleDir config.testTarget taskID
  | .store _ => True

/-- A task does nothing but such actions. -/
theorem own_program {baseline : ExecutionResult} {mutants : List Mutant} :
    ∀ action ∈ program taskID config xctestrunFile baseline mutants,
      action.Own taskID config xctestrunFile := by
  intro action h
  simp only [program, generateActions, List.mem_append, List.mem_cons, List.mem_map,
    List.not_mem_nil, or_false] at h
  rcases h with ((rfl | ⟨edit, -, rfl⟩) | rfl | rfl) | ⟨mutant, -, rfl⟩
  · exact ⟨rfl, rfl⟩
  · rfl
  · exact ⟨runFile_command, resultBundle_command⟩
  · rfl
  · trivial

section Paths

theorem localRunFile_injective {m n : Nat}
    (h : localRunFile m xctestrunFile = localRunFile n xctestrunFile) : m = n := by
  unfold localRunFile at h
  apply Decimal.repr_injective
  exact (String.append_right_inj _).mp ((String.append_left_inj _).mp h)

theorem localRunFile_ne (taskID : Nat) : xctestrunFile ≠ localRunFile taskID xctestrunFile := by
  apply ne_of_length_lt
  simp only [localRunFile, String.toList_append, List.length_append]
  have hsuffix : ".xctestrun".toList.length = 10 := by decide
  omega

end Paths

/-- Two worlds that differ in the run file and the bundle of a task at most. -/
structure SameBut (taskID : Nat) (config : XCTestRunConfig) (xctestrunFile : String)
    (world world' : World) : Prop where
  runFiles : ∀ path, path ≠ localRunFile taskID xctestrunFile →
    world'.runFiles path = world.runFiles path
  bundles : ∀ path, path ≠ resultBundlePath config.resultBundleDir config.testTarget taskID →
    world'.bundles path = world.bundles path

/-- An action of a task changes nothing but the files of the task. -/
theorem sameBut_perform {world world' : World} {locals locals' : Locals} {action : Action}
    (own : action.Own taskID config xctestrunFile)
    (h : perform tools taskID world locals action = .ok (world', locals')) :
    SameBut taskID config xctestrunFile world world' := by
  cases action with
  | copyFile source destination =>
      obtain ⟨rfl, rfl⟩ := own
      cases h
      exact ⟨fun _ hpath => World.runFiles_setRunFile_ne _ _ _ hpath, fun _ _ => rfl⟩
  | edit path edit =>
      obtain rfl := own
      cases h
      exact ⟨fun _ hpath => World.runFiles_setRunFile_ne _ _ _ hpath, fun _ _ => rfl⟩
  | xcodebuild command =>
      cases h
      rw [writeBundle, own.2]
      exact ⟨fun _ _ => rfl, fun _ hpath => World.bundles_setBundle_ne _ _ _ hpath⟩
  | getFailureTestTargets resultFile =>
      obtain ⟨rfl, -⟩ := perform_getFailureTestTargets _ _ h
      exact ⟨fun _ _ => rfl, fun _ _ => rfl⟩
  | store mutant =>
      cases h
      exact ⟨fun _ _ => rfl, fun _ _ => rfl⟩

/-- The files of a task, without the rest of the world. -/
def taskWorld (taskID : Nat) (config : XCTestRunConfig) (xctestrunFile : String)
    (world : World) : World where
  runFiles path :=
    if path = xctestrunFile ∨ path = localRunFile taskID xctestrunFile then world.runFiles path
    else none
  bundles path :=
    if path = resultBundlePath config.resultBundleDir config.testTarget taskID then
      world.bundles path
    else none

section TaskWorld

variable (world : World) (file : Option Plist) (bundle : Option Bundle)

@[simp] theorem runFiles_taskWorld_source :
    (taskWorld taskID config xctestrunFile world).runFiles xctestrunFile =
      world.runFiles xctestrunFile := by
  simp [taskWorld]

@[simp] theorem runFiles_taskWorld_local :
    (taskWorld taskID config xctestrunFile world).runFiles (localRunFile taskID xctestrunFile) =
      world.runFiles (localRunFile taskID xctestrunFile) := by
  simp [taskWorld]

@[simp] theorem bundles_taskWorld :
    (taskWorld taskID config xctestrunFile world).bundles
        (resultBundlePath config.resultBundleDir config.testTarget taskID) =
      world.bundles (resultBundlePath config.resultBundleDir config.testTarget taskID) := by
  simp [taskWorld]

@[simp] theorem taskWorld_setRunFile :
    taskWorld taskID config xctestrunFile
        (world.setRunFile (localRunFile taskID xctestrunFile) file) =
      (taskWorld taskID config xctestrunFile world).setRunFile
        (localRunFile taskID xctestrunFile) file := by
  apply World.ext
  · funext path
    by_cases hpath : path = localRunFile taskID xctestrunFile
    · subst hpath
      simp
    · rw [World.runFiles_setRunFile_ne _ _ _ hpath]
      simp only [taskWorld, World.runFiles_setRunFile_ne _ _ _ hpath]
  · rfl

@[simp] theorem taskWorld_setBundle :
    taskWorld taskID config xctestrunFile
        (world.setBundle (resultBundlePath config.resultBundleDir config.testTarget taskID)
          bundle) =
      (taskWorld taskID config xctestrunFile world).setBundle
        (resultBundlePath config.resultBundleDir config.testTarget taskID) bundle := by
  apply World.ext
  · rfl
  · funext path
    by_cases hpath : path = resultBundlePath config.resultBundleDir config.testTarget taskID
    · subst hpath
      simp
    · rw [World.bundles_setBundle_ne _ _ _ hpath]
      simp only [taskWorld, World.bundles_setBundle_ne _ _ _ hpath]

/-- The three files of a task tell its world. -/
theorem taskWorld_eq_iff {world world' : World} :
    taskWorld taskID config xctestrunFile world = taskWorld taskID config xctestrunFile world' ↔
      world.runFiles xctestrunFile = world'.runFiles xctestrunFile ∧
        world.runFiles (localRunFile taskID xctestrunFile) =
          world'.runFiles (localRunFile taskID xctestrunFile) ∧
        world.bundles (resultBundlePath config.resultBundleDir config.testTarget taskID) =
          world'.bundles (resultBundlePath config.resultBundleDir config.testTarget taskID) := by
  constructor
  · intro h
    have hfiles := congrFun (congrArg World.runFiles h)
    have hbundles := congrFun (congrArg World.bundles h)
    exact ⟨by simpa using hfiles xctestrunFile,
      by simpa using hfiles (localRunFile taskID xctestrunFile),
      by simpa using hbundles (resultBundlePath config.resultBundleDir config.testTarget taskID)⟩
  · rintro ⟨hsource, hlocal, hbundle⟩
    apply World.ext
    · funext path
      simp only [taskWorld]
      split_ifs with hpath
      · rcases hpath with rfl | rfl
        · exact hsource
        · exact hlocal
      · rfl
    · funext path
      simp only [taskWorld]
      split_ifs with hpath
      · rw [hpath, hbundle]
      · rfl

end TaskWorld

/-- The files of the other tasks are as they were. -/
theorem SameBut.taskWorld_eq {world world' : World} {other : Nat}
    (same : SameBut taskID config xctestrunFile world world') (h : other ≠ taskID) :
    taskWorld other config xctestrunFile world' = taskWorld other config xctestrunFile world := by
  apply World.ext
  · funext path
    simp only [taskWorld]
    split_ifs with hpath
    · apply same.runFiles
      rcases hpath with rfl | rfl
      · exact localRunFile_ne taskID
      · exact fun heq => h (localRunFile_injective heq)
    · rfl
  · funext path
    simp only [taskWorld]
    split_ifs with hpath
    · subst hpath
      exact same.bundles _ fun heq => h (resultBundlePath_injective heq)
    · rfl

/-- An action of a task comes to the same on the files of the task alone. -/
theorem perform_taskWorld (world : World) (locals : Locals) {action : Action}
    (own : action.Own taskID config xctestrunFile) :
    perform tools taskID (taskWorld taskID config xctestrunFile world) locals action =
      (perform tools taskID world locals action).map
        fun p => (taskWorld taskID config xctestrunFile p.1, p.2) := by
  cases action with
  | copyFile source destination =>
      obtain ⟨rfl, rfl⟩ := own
      simp [perform, Except.map]
  | edit path edit =>
      obtain rfl := own
      simp [perform, Except.map]
  | xcodebuild command =>
      obtain ⟨hfile, hbundle⟩ := own
      simp [perform, namedRunFile, namedBundle, writeBundle, hfile, hbundle, Except.map]
  | getFailureTestTargets resultFile =>
      obtain rfl := own
      rw [perform, perform, bundles_taskWorld]
      cases ResultBundle.getFailureTestTargets tools.parse _ with
      | error fault => rfl
      | ok failureTargets => rfl
  | store mutant => rfl

theorem performAll_taskWorld {actions : List Action} (world : World) (locals : Locals)
    (own : ∀ action ∈ actions, action.Own taskID config xctestrunFile) :
    performAll tools taskID (taskWorld taskID config xctestrunFile world) locals actions =
      (performAll tools taskID world locals actions).map
        fun p => (taskWorld taskID config xctestrunFile p.1, p.2) := by
  induction actions generalizing world locals with
  | nil => rfl
  | cons action rest ih =>
      obtain ⟨hown, hrest⟩ := List.forall_mem_cons.mp own
      rw [performAll, performAll, perform_taskWorld world locals hown]
      cases perform tools taskID world locals action with
      | error fault => rfl
      | ok p => exact ih p.1 p.2 hrest

section Calls

variable {baseline : ExecutionResult} (mutants : List Mutant) (world : World)

@[simp] theorem executedRunFile_taskWorld :
    executedRunFile tools taskID config xctestrunFile mutants
        (taskWorld taskID config xctestrunFile world) =
      executedRunFile tools taskID config xctestrunFile mutants world := by
  simp [executedRunFile]

@[simp] theorem readBundle_taskWorld :
    readBundle tools taskID config xctestrunFile baseline mutants
        (taskWorld taskID config xctestrunFile world) =
      readBundle tools taskID config xctestrunFile baseline mutants world := by
  simp [readBundle, runProcess]

end Calls

end MutantExecutionTask

end MullXCTest.Invocation
