import MullXCTest.Invocation.Execution
import MullXCTest.Library.Outcome

/-!
# The task of mull-xctestrun

`MutantExecutionTask::operator()` as the sequence of its actions on the run files and
result bundles that it shares with the rest of the world. Every action works on the
files that it names, and xcodebuild on those that its arguments name. The external
tools are parameters. The error flags of the edits are never looked at, and an error
of the reader only reaches the debug log.
-/

namespace MullXCTest.Invocation

open ResultBundle RunFile

/-- The run files and the result bundles by their paths. -/
@[ext] structure World where
  runFiles : String → Option Plist
  bundles : String → Option Bundle

namespace World

def setRunFile (world : World) (path : String) (file : Option Plist) : World :=
  { world with runFiles := Function.update world.runFiles path file }

def setBundle (world : World) (path : String) (bundle : Option Bundle) : World :=
  { world with bundles := Function.update world.bundles path bundle }

section Access

variable (world : World) (path : String) (file : Option Plist) (bundle : Option Bundle)

@[simp] theorem runFiles_setRunFile_self : (world.setRunFile path file).runFiles path = file :=
  Function.update_self ..

theorem runFiles_setRunFile_ne {other : String} (h : other ≠ path) :
    (world.setRunFile path file).runFiles other = world.runFiles other :=
  Function.update_of_ne h ..

@[simp] theorem bundles_setRunFile : (world.setRunFile path file).bundles = world.bundles := rfl

@[simp] theorem bundles_setBundle_self : (world.setBundle path bundle).bundles path = bundle :=
  Function.update_self ..

theorem bundles_setBundle_ne {other : String} (h : other ≠ path) :
    (world.setBundle path bundle).bundles other = world.bundles other :=
  Function.update_of_ne h ..

@[simp] theorem runFiles_setBundle : (world.setBundle path bundle).runFiles = world.runFiles := rfl

@[simp] theorem setRunFile_setRunFile (file' : Option Plist) :
    (world.setRunFile path file).setRunFile path file' = world.setRunFile path file' := by
  simp [setRunFile]

@[simp] theorem setRunFile_eq_self : world.setRunFile path (world.runFiles path) = world := by
  simp [setRunFile]

end Access

end World

/-- The external tools. An edit fails or not by its position among the edits of the task;
xcodebuild finds the run file and the result bundle as they are when it starts. -/
structure Tools where
  editFails : (taskID position : Nat) → Bool
  xcodebuild : Command → Option Plist → Option Bundle → Process
  parse : String → Except String Json

/-- The edits of `GenerateXCRunFile`. -/
def generateEdits (srcTestTarget : String) (mutants : List Mutant) : List Edit :=
  mutants.flatMap (fun mutant =>
    let newTarget := srcTestTarget ++ "-" ++ mutant.identifier
    [.duplicateTestTarget srcTestTarget newTarget,
      .addEnvironmentVariable newTarget mutant.identifier,
      .setBlueprintName newTarget mutant.identifier]) ++
    [.deleteTestTarget srcTestTarget]

/-- Edits in a row, the first of them at a position. -/
def applyEdits (fails : Nat → Bool) : Nat → List Edit → Plist → Plist
  | _, [], file => file
  | position, edit :: rest, file =>
      applyEdits fails (position + 1) rest (edit.run (fails position) file)

namespace MutantExecutionTask

/-- What a task does, on the files that it names. -/
inductive Action
  | copyFile (source destination : String)
  | edit (path : String) (edit : Edit)
  | xcodebuild (command : Command)
  | getFailureTestTargets (resultFile : String)
  | store (mutant : Mutant)

/-- The locals of a task with its storage and counter, the number of edits that it has made,
and what it ran. -/
structure Locals where
  edits : Nat := 0
  executed : Option Plist := none
  process : Option Process := none
  result : ExecutionResult := {}
  failureTargets : Except String (Finset String) := .error ""
  storage : List MutationResult := []
  counter : Nat := 0

/-- The body of the loop over the mutants: a mutant has passed unless the targets were read
and it is among them. -/
def targetResult (result : ExecutionResult) (failureTargets : Except String (Finset String))
    (mutant : Mutant) : ExecutionResult where
  exitStatus := .converted result.status
  status :=
    match failureTargets with
    | .error _ => .passed
    | .ok targets => if mutant.identifier ∈ targets then .failed else .passed

/-- The run file that a command names, if it names one that is there. -/
def namedRunFile (world : World) (command : Command) : Option Plist :=
  command.runFile.bind world.runFiles

/-- The result bundle that is in the way of a command. -/
def namedBundle (world : World) (command : Command) : Option Bundle :=
  command.resultBundle.bind world.bundles

/-- The world when xcodebuild has written a bundle, or none, where it was told to. -/
def writeBundle (world : World) (command : Command) (written : Option Bundle) : World :=
  match command.resultBundle with
  | none => world
  | some path => world.setBundle path (written <|> world.bundles path)

variable (tools : Tools) (taskID : Nat)

/-- One action. A copy that has no source leaves the destination as it is. -/
def perform (world : World) (locals : Locals) : Action → Except Fault (World × Locals)
  | .copyFile source destination =>
      .ok (world.setRunFile destination (world.runFiles source <|> world.runFiles destination),
        locals)
  | .edit path edit =>
      .ok (world.setRunFile path
          ((world.runFiles path).map fun file =>
            edit.run (tools.editFails taskID locals.edits) file),
        { locals with edits := locals.edits + 1 })
  | .xcodebuild command =>
      let file := namedRunFile world command
      let process := tools.xcodebuild command file (namedBundle world command)
      .ok (writeBundle world command process.written,
        { locals with
          executed := file
          process := some process
          result := executionResult process })
  | .getFailureTestTargets resultFile => do
      let failureTargets ←
        ResultBundle.getFailureTestTargets tools.parse (world.bundles resultFile)
      return (world, { locals with failureTargets })
  | .store mutant =>
      .ok (world,
        { locals with
          storage := locals.storage ++
            [⟨targetResult locals.result locals.failureTargets mutant, mutant⟩]
          counter := locals.counter + 1 })

/-- Reading the failures changes nothing else. -/
theorem perform_getFailureTestTargets {world world' : World} {locals locals' : Locals}
    {resultFile : String}
    (h : perform tools taskID world locals (.getFailureTestTargets resultFile) =
      .ok (world', locals')) :
    world' = world ∧ ∃ failureTargets, locals' = { locals with failureTargets } := by
  obtain ⟨failureTargets, -, h⟩ := Outcome.bind_eq_ok.mp h
  obtain ⟨rfl, rfl⟩ := Prod.mk.inj (Except.ok.inj h)
  exact ⟨rfl, failureTargets, rfl⟩

/-- Actions in a row. -/
def performAll (world : World) (locals : Locals) : List Action → Except Fault (World × Locals)
  | [] => .ok (world, locals)
  | action :: rest => do
      let (world, locals) ← perform tools taskID world locals action
      performAll world locals rest

variable (config : XCTestRunConfig) (xctestrunFile : String) (baseline : ExecutionResult)

def localRunFile : String :=
  xctestrunFile ++ ".mull-xctrn-" ++ taskID.repr ++ ".xctestrun"

/-- The call of `RunXcodeBuildTest`. The length of the range is taken as an `int`. -/
def command (length : Nat) : Command :=
  let count := (BitVec.ofNat 32 length).toInt
  xcodeBuildTestCommand (localRunFile taskID xctestrunFile)
    (some (resultBundlePath config.resultBundleDir config.testTarget taskID))
    config.xcodebuildArgs [] (baseline.runningTime * count * 10)
    (logFile config.logPath (taskID.repr ++ ".log"))

/-- The actions of `GenerateXCRunFile`. -/
def generateActions (mutants : List Mutant) : List Action :=
  .copyFile xctestrunFile (localRunFile taskID xctestrunFile) ::
    (generateEdits config.testTarget mutants).map (.edit (localRunFile taskID xctestrunFile))

/-- The actions of `operator()` on a range of mutants. -/
def program (mutants : List Mutant) : List Action :=
  generateActions taskID config xctestrunFile mutants ++
    [.xcodebuild (command taskID config xctestrunFile baseline mutants.length),
      .getFailureTestTargets
        (resultBundlePath config.resultBundleDir config.testTarget taskID)] ++
    mutants.map .store

/-- `operator()` from its first action to its return. -/
def operatorCall (mutants : List Mutant) (world : World) : Except Fault (World × Locals) :=
  performAll tools taskID world {} (program taskID config xctestrunFile baseline mutants)

/-- The run file that `operator()` hands to xcodebuild. -/
def executedRunFile (mutants : List Mutant) (world : World) : Option Plist :=
  (world.runFiles xctestrunFile <|> world.runFiles (localRunFile taskID xctestrunFile)).map
    (applyEdits (tools.editFails taskID) 0 (generateEdits config.testTarget mutants))

/-- What becomes of xcodebuild in `operator()`. -/
def runProcess (mutants : List Mutant) (world : World) : Process :=
  tools.xcodebuild (command taskID config xctestrunFile baseline mutants.length)
    (executedRunFile tools taskID config xctestrunFile mutants world)
    (world.bundles (resultBundlePath config.resultBundleDir config.testTarget taskID))

/-- The bundle that `operator()` reads. -/
def readBundle (mutants : List Mutant) (world : World) : Option Bundle :=
  (runProcess tools taskID config xctestrunFile baseline mutants world).written <|>
    world.bundles (resultBundlePath config.resultBundleDir config.testTarget taskID)

/-- The files when `operator()` has run xcodebuild. -/
def leftWorld (mutants : List Mutant) (world : World) : World :=
  (world.setRunFile (localRunFile taskID xctestrunFile)
      (executedRunFile tools taskID config xctestrunFile mutants world)).setBundle
    (resultBundlePath config.resultBundleDir config.testTarget taskID)
    (readBundle tools taskID config xctestrunFile baseline mutants world)

/-- What a task has done when it returns. -/
def finalLocals (mutants : List Mutant) (world : World)
    (failureTargets : Except String (Finset String)) : Locals :=
  let process := runProcess tools taskID config xctestrunFile baseline mutants world
  { edits := (generateEdits config.testTarget mutants).length
    executed := executedRunFile tools taskID config xctestrunFile mutants world
    process := some process
    result := executionResult process
    failureTargets
    storage := mutants.map fun mutant =>
      ⟨targetResult (executionResult process) failureTargets mutant, mutant⟩
    counter := mutants.length }

section Command

variable {taskID config xctestrunFile baseline} {length : Nat}

theorem localRunFile_ne_of_not_suffix {text : String}
    (h : ¬ ".xctestrun".toList <:+ text.toList) : text ≠ localRunFile taskID xctestrunFile :=
  ne_append_of_not_suffix _ h

theorem tests_command :
    (command taskID config xctestrunFile baseline length).Tests config.xcodebuildArgs
      (localRunFile taskID xctestrunFile)
      (resultBundlePath config.resultBundleDir config.testTarget taskID) :=
  tests_xcodeBuildTestCommand ..

@[simp] theorem runFile_command :
    (command taskID config xctestrunFile baseline length).runFile =
      some (localRunFile taskID xctestrunFile) :=
  tests_command.runFile_eq (localRunFile_ne_of_not_suffix (by decide))
    (ne_resultBundlePath (by decide))

@[simp] theorem resultBundle_command :
    (command taskID config xctestrunFile baseline length).resultBundle =
      some (resultBundlePath config.resultBundleDir config.testTarget taskID) :=
  tests_command.resultBundle_eq (ne_resultBundlePath (by decide))

end Command

section Result

variable {tools taskID config xctestrunFile baseline}

theorem performAll_append (first second : List Action) (world : World) (locals : Locals) :
    performAll tools taskID world locals (first ++ second) =
      performAll tools taskID world locals first >>= fun p =>
        performAll tools taskID p.1 p.2 second := by
  induction first generalizing world locals with
  | nil => rfl
  | cons action rest ih =>
      simp only [List.cons_append, performAll]
      cases perform tools taskID world locals action with
      | error fault => rfl
      | ok p => exact ih p.1 p.2

theorem performAll_edits (path : String) (edits : List Edit) (world : World) (locals : Locals) :
    performAll tools taskID world locals (edits.map (.edit path)) =
      .ok (world.setRunFile path
          ((world.runFiles path).map (applyEdits (tools.editFails taskID) locals.edits edits)),
        { locals with edits := locals.edits + edits.length }) := by
  induction edits generalizing world locals with
  | nil => simp [performAll, applyEdits, Option.map_id']
  | cons edit rest ih =>
      simp only [List.map_cons, performAll, perform, bind, Except.bind, ih, Option.map_map,
        World.runFiles_setRunFile_self, World.setRunFile_setRunFile]
      congr 3
      simp only [List.length_cons]
      omega

theorem performAll_store (mutants : List Mutant) (world : World) (locals : Locals) :
    performAll tools taskID world locals (mutants.map .store) =
      .ok (world,
        { locals with
          storage := locals.storage ++ mutants.map fun mutant =>
            ⟨targetResult locals.result locals.failureTargets mutant, mutant⟩
          counter := locals.counter + mutants.length }) := by
  induction mutants generalizing locals with
  | nil => simp [performAll]
  | cons mutant rest ih =>
      simp only [List.map_cons, performAll, perform, bind, Except.bind, ih, List.append_assoc,
        List.singleton_append, List.length_cons]
      congr 3
      omega

/-- The actions up to the run of xcodebuild hand it the run file with the edits. -/
theorem performAll_generate (mutants : List Mutant) (world : World) :
    performAll tools taskID world {} (generateActions taskID config xctestrunFile mutants) =
      .ok (world.setRunFile (localRunFile taskID xctestrunFile)
          (executedRunFile tools taskID config xctestrunFile mutants world),
        { edits := (generateEdits config.testTarget mutants).length }) := by
  rw [generateActions, performAll, perform]
  simp [bind, Except.bind, performAll_edits, executedRunFile]

/-- xcodebuild finds the file that was generated and the bundle that was there, and what it writes
is read next. -/
theorem perform_xcodebuild (mutants : List Mutant) (world : World) (locals : Locals) :
    perform tools taskID
        (world.setRunFile (localRunFile taskID xctestrunFile)
          (executedRunFile tools taskID config xctestrunFile mutants world)) locals
        (.xcodebuild (command taskID config xctestrunFile baseline mutants.length)) =
      .ok (leftWorld tools taskID config xctestrunFile baseline mutants world,
        { locals with
          executed := executedRunFile tools taskID config xctestrunFile mutants world
          process := some (runProcess tools taskID config xctestrunFile baseline mutants world)
          result := executionResult
            (runProcess tools taskID config xctestrunFile baseline mutants world) }) := by
  simp [perform, namedRunFile, namedBundle, writeBundle, leftWorld, readBundle, runProcess]

/-- The actions up to the return of xcodebuild. -/
theorem performAll_run (mutants : List Mutant) (world : World) :
    performAll tools taskID world {} (generateActions taskID config xctestrunFile mutants ++
        [.xcodebuild (command taskID config xctestrunFile baseline mutants.length)]) =
      .ok (leftWorld tools taskID config xctestrunFile baseline mutants world,
        { edits := (generateEdits config.testTarget mutants).length
          executed := executedRunFile tools taskID config xctestrunFile mutants world
          process := some (runProcess tools taskID config xctestrunFile baseline mutants world)
          result := executionResult
            (runProcess tools taskID config xctestrunFile baseline mutants world) }) := by
  rw [performAll_append, performAll_generate]
  simp only [bind, Except.bind, performAll, perform_xcodebuild]

/-- The run of xcodebuild is the last thing before the bundle is read. -/
theorem program_eq (mutants : List Mutant) :
    program taskID config xctestrunFile baseline mutants =
      (generateActions taskID config xctestrunFile mutants ++
          [.xcodebuild (command taskID config xctestrunFile baseline mutants.length)]) ++
        .getFailureTestTargets
            (resultBundlePath config.resultBundleDir config.testTarget taskID) ::
          mutants.map .store := by
  simp [program]

/-- A task returns if the reader of its bundle does. -/
theorem operatorCall_eq (mutants : List Mutant) (world : World) :
    operatorCall tools taskID config xctestrunFile baseline mutants world =
      (ResultBundle.getFailureTestTargets tools.parse
        (readBundle tools taskID config xctestrunFile baseline mutants world)).map
          fun failureTargets =>
            (leftWorld tools taskID config xctestrunFile baseline mutants world,
              finalLocals tools taskID config xctestrunFile baseline mutants world
                failureTargets) := by
  rw [operatorCall, program_eq, performAll_append, performAll_run]
  simp only [bind, Except.bind, performAll]
  rw [perform, leftWorld, World.bundles_setBundle_self]
  cases ResultBundle.getFailureTestTargets tools.parse _ with
  | error fault => rfl
  | ok failureTargets =>
      simp [bind, Except.bind, pure, Except.pure, performAll_store, Except.map, finalLocals]

end Result

end MutantExecutionTask

section Example

def exampleConfig : XCTestRunConfig := ⟨"App.xctestrun", "AppTests", "results", [], ""⟩

/-- The entry of a test target without variables. -/
def exampleTarget : TestTarget := ⟨some "AppTests", ∅, []⟩

/-- A run file with the test target and nothing else. -/
def exampleRunFile : Plist :=
  AList.singleton "AppTests" exampleTarget

/-- The run file of the user, and no bundles. -/
def exampleWorld : World where
  runFiles := fun path => if path = "App.xctestrun" then some exampleRunFile else none
  bundles := fun _ => none

end Example

end MullXCTest.Invocation
