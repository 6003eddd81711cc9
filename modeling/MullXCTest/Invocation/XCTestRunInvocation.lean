import MullXCTest.Invocation.TaskFiles
import MullXCTest.Library.Interleaving
import Mathlib.Algebra.GroupWithZero.Nat

/-!
# A run of mull-xctestrun

`XCTestRunInvocation::run` behind the extraction of the mutants: the base run file,
the baseline, and the tasks of the executor on the files that they share. Every
task works on a copy and a bundle of its own, so that its result is the one that
it would have alone, whatever the others do in between. A reader that faults ends
the process with all its tasks.
-/

namespace MullXCTest.Invocation

open ResultBundle RunFile Interleaving

/-- The tools of a run: those of its tasks, and what the main thread uses before them. -/
structure InvocationTools extends Tools where
  baseEditFails : Nat → Bool
  plutilSucceeds : Bool
  baselineRun : Command → Option Plist → Process

structure Configuration where
  timeout : Int
  mutantExecutionWorkers : Nat
  captureMutantOutput : Bool

/-- The splitting of mull's `TaskExecutor`: consecutive batches for a number of tasks. -/
abbrev Splitting := List Mutant → Nat → List (List Mutant)

/-- `XCTestRunFile::getTargets`. -/
def getTargets (plutilSucceeds : Bool) (file : Option Plist) : Except String (List String) :=
  match plutilSucceeds, file with
  | true, some file => .ok (targetNames file)
  | _, _ => .error "failed to convert xctestrun file to json."

/-- What `GenerateSingleTargetXCRunFile` leaves in the local file. -/
def generateSingleTargetXCRunFile (fails : Nat → Bool) (plutilSucceeds : Bool)
    (srcRunFile localRunFile : Option Plist) (srcTestTarget : String) :
    Except String (Option Plist) := do
  let file := srcRunFile <|> localRunFile
  let targets ← getTargets plutilSucceeds file
  let deletions := (targets.filter (· ≠ srcTestTarget)).map Edit.deleteTestTarget
  return file.map (applyEdits fails 0 deletions)

namespace XCTestRunInvocation

open MutantExecutionTask

section System

/-- A task with the actions that are still to come. -/
structure RunningTask where
  locals : Locals
  todo : List Action

/-- The world and the tasks of the executor, by their `taskID`, and the fault that has ended the
process, if one has. -/
structure System where
  world : World
  tasks : List RunningTask
  fault : Option Fault := none

variable (tools : Tools)

/-- The next action of a task, if there is one. -/
def taskStep (taskID : Nat) (world : World) (task : RunningTask) :
    Except Fault (Option (World × RunningTask)) :=
  match task.todo with
  | [] => .ok none
  | action :: rest => do
      let (world, locals) ← perform tools taskID world task.locals action
      return some (world, ⟨locals, rest⟩)

/-- The next action of a task in the process, as long as there is one. -/
def systemStep (taskID : Nat) (s : System) : Option System :=
  match s.fault, s.tasks[taskID]? with
  | none, some task =>
      match taskStep tools taskID s.world task with
      | .error fault => some { s with fault := some fault }
      | .ok none => none
      | .ok (some (world, task)) => some { s with world, tasks := s.tasks.set taskID task }
  | _, _ => none

/-- A task together with its files. -/
def agentView (config : XCTestRunConfig) (xctestrunFile : String) (taskID : Nat) (s : System) :
    Option (World × RunningTask) :=
  s.tasks[taskID]?.map fun task => (taskWorld taskID config xctestrunFile s.world, task)

def agentNext (taskID : Nat) :
    Option (World × RunningTask) → Except Fault (Option (Option (World × RunningTask)))
  | none => .ok none
  | some (world, task) => (taskStep tools taskID world task).map (Option.map some)

/-- The storages of the tasks, one after the other. -/
def collected (s : System) : List MutationResult :=
  s.tasks.flatMap fun task => task.locals.storage

/-- The process goes on, and every task works on its own files. -/
structure Separated (config : XCTestRunConfig) (xctestrunFile : String) (s : System) : Prop where
  goesOn : s.fault = none
  own : ∀ (taskID : Nat) (task : RunningTask), s.tasks[taskID]? = some task →
    ∀ action ∈ task.todo, action.Own taskID config xctestrunFile

end System

section Steps

variable {tools : Tools} {taskID : Nat} {s t : System} {task : RunningTask}

/-- A turn is the next action of a task, or its fault. -/
theorem turn_cases (h : Turn (systemStep tools) s t) :
    s.fault = none ∧ ∃ taskID task action rest,
      s.tasks[taskID]? = some task ∧ task.todo = action :: rest ∧
        ((∃ world locals, perform tools taskID s.world task.locals action = .ok (world, locals) ∧
            t = ⟨world, s.tasks.set taskID ⟨locals, rest⟩, none⟩) ∨
          ∃ fault, perform tools taskID s.world task.locals action = .error fault ∧
            t = { s with fault := some fault }) := by
  obtain ⟨taskID, hstep⟩ := h
  unfold systemStep at hstep
  split at hstep
  · next task hfault htask =>
      obtain ⟨locals, todo⟩ := task
      cases todo with
      | nil => cases hstep
      | cons action rest =>
          refine ⟨hfault, taskID, _, action, rest, htask, rfl, ?_⟩
          simp only [taskStep] at hstep
          cases hp : perform tools taskID s.world locals action with
          | error fault =>
              rw [hp] at hstep
              exact .inr ⟨fault, rfl, (Option.some.inj hstep).symm⟩
          | ok p =>
              rw [hp] at hstep
              refine .inl ⟨p.1, p.2, rfl, ?_⟩
              rw [← hfault]
              exact (Option.some.inj hstep).symm
  · cases hstep

theorem length_tasks_turn (h : Turn (systemStep tools) s t) : t.tasks.length = s.tasks.length := by
  obtain ⟨-, taskID, task, action, rest, -, -, ⟨world, locals, -, rfl⟩ | ⟨fault, -, rfl⟩⟩ :=
    turn_cases h
  · exact List.length_set
  · rfl

theorem length_tasks (run : Relation.ReflTransGen (Turn (systemStep tools)) s t) :
    t.tasks.length = s.tasks.length := by
  induction run with
  | refl => rfl
  | tail _ hturn ih => rw [length_tasks_turn hturn, ih]

/-- The actions still to come, and the fault that may. -/
def remaining (s : System) : Nat :=
  (s.tasks.map fun task => task.todo.length).sum + if s.fault = none then 1 else 0

theorem sum_map_set_lt {α : Type} {f : α → Nat} {l : List α} {i : Nat} {a b : α}
    (ha : l[i]? = some a) (hlt : f b < f a) : ((l.set i b).map f).sum < (l.map f).sum := by
  induction l generalizing i with
  | nil => simp at ha
  | cons c l ih =>
      cases i with
      | zero =>
          obtain rfl : c = a := by simpa using ha
          simpa using hlt
      | succ i => simpa using ih (i := i) (by simpa using ha)

theorem remaining_turn (h : Turn (systemStep tools) s t) : remaining t < remaining s := by
  obtain ⟨hfault, taskID, task, action, rest, htask, htodo, hcases⟩ := turn_cases h
  rcases hcases with ⟨world, locals, -, rfl⟩ | ⟨fault, -, rfl⟩
  · have hlt : rest.length < task.todo.length := by simp [htodo]
    have hsum := @sum_map_set_lt _ (fun task => task.todo.length) _ _ _ ⟨locals, rest⟩ htask hlt
    simp only [remaining, hfault]
    omega
  · simp [remaining, hfault]

/-- No interleaving goes on for ever. -/
theorem turn_wellFounded : WellFounded fun t s => Turn (systemStep tools) s t :=
  Transition.terminates wellFounded_lt fun _ _ => remaining_turn

end Steps

section Independence

variable {tools : Tools} {config : XCTestRunConfig} {xctestrunFile : String} {taskID : Nat}
  {s t : System} {task : RunningTask}

/-- The next action of a task of its own comes to the same on its files alone. -/
theorem taskStep_taskWorld (world : World)
    (own : ∀ action ∈ task.todo, action.Own taskID config xctestrunFile) :
    taskStep tools taskID (taskWorld taskID config xctestrunFile world) task =
      (taskStep tools taskID world task).map
        (Option.map fun p => (taskWorld taskID config xctestrunFile p.1, p.2)) := by
  obtain ⟨locals, todo⟩ := task
  cases todo with
  | nil => rfl
  | cons action rest =>
      simp only [taskStep, perform_taskWorld world locals (own action List.mem_cons_self)]
      cases perform tools taskID world locals action with
      | error fault => rfl
      | ok p => rfl

/-- What a task does next by its own view. -/
theorem agentNext_agentView (separated : Separated config xctestrunFile s)
    (htask : s.tasks[taskID]? = some task) :
    agentNext tools taskID (agentView config xctestrunFile taskID s) =
      (taskStep tools taskID s.world task).map
        (Option.map fun p => some (taskWorld taskID config xctestrunFile p.1, p.2)) := by
  rw [agentView, htask, Option.map_some, agentNext,
    taskStep_taskWorld s.world (separated.own taskID task htask)]
  cases taskStep tools taskID s.world task with
  | error fault => rfl
  | ok next => cases next <;> rfl

theorem systemStep_eq (hfault : s.fault = none) (htask : s.tasks[taskID]? = some task) :
    systemStep tools taskID s =
      match taskStep tools taskID s.world task with
      | .error fault => some { s with fault := some fault }
      | .ok none => none
      | .ok (some (world, task)) => some { s with world, tasks := s.tasks.set taskID task } := by
  rw [systemStep, hfault, htask]

/-- A step of a task of its own is about its files only, and leaves less to do. -/
theorem taskStep_own {world world' : World} {task' : RunningTask}
    (own : ∀ action ∈ task.todo, action.Own taskID config xctestrunFile)
    (h : taskStep tools taskID world task = .ok (some (world', task'))) :
    SameBut taskID config xctestrunFile world world' ∧
      ∀ action ∈ task'.todo, action.Own taskID config xctestrunFile := by
  obtain ⟨locals, todo⟩ := task
  cases todo with
  | nil => cases h
  | cons action rest =>
      obtain ⟨hown, hrest⟩ := List.forall_mem_cons.mp own
      obtain ⟨p, hp, heq⟩ := Outcome.bind_eq_ok.mp h
      obtain ⟨rfl, rfl⟩ := Prod.mk.inj (Option.some.inj (Except.ok.inj heq))
      exact ⟨sameBut_perform hown hp, hrest⟩

theorem separated_set (separated : Separated config xctestrunFile s) (world : World)
    (own : ∀ action ∈ task.todo, action.Own taskID config xctestrunFile) :
    Separated config xctestrunFile { s with world, tasks := s.tasks.set taskID task } where
  goesOn := separated.goesOn
  own := by
    intro other task' htask'
    by_cases hother : other = taskID
    · subst hother
      have hlt := (List.getElem?_eq_some_iff.mp htask').1
      rw [List.getElem?_set_self (by simpa using hlt)] at htask'
      obtain rfl := Option.some.inj htask'
      exact own
    · rw [List.getElem?_set_ne (Ne.symm hother)] at htask'
      exact separated.own other task' htask'

/-- The tasks are independent of each other. -/
theorem independent :
    Independent (Separated config xctestrunFile) (systemStep tools) (agentView config xctestrunFile)
      (agentNext tools) where
  ended := by
    intro taskID s separated hnext
    cases htask : s.tasks[taskID]? with
    | none => simp [systemStep, separated.goesOn, htask]
    | some task =>
        rw [agentNext_agentView separated htask] at hnext
        rw [systemStep_eq separated.goesOn htask]
        cases hstep : taskStep tools taskID s.world task with
        | error fault => rw [hstep] at hnext; cases hnext
        | ok next =>
            cases next with
            | none => rfl
            | some p => rw [hstep] at hnext; cases hnext
  moves := by
    intro taskID s v separated hnext
    cases htask : s.tasks[taskID]? with
    | none => rw [agentView, htask] at hnext; cases hnext
    | some task =>
        rw [agentNext_agentView separated htask] at hnext
        cases hstep : taskStep tools taskID s.world task with
        | error fault => rw [hstep] at hnext; cases hnext
        | ok next =>
            cases next with
            | none => rw [hstep] at hnext; cases hnext
            | some p =>
                rw [hstep] at hnext
                obtain rfl := Option.some.inj (Except.ok.inj hnext)
                obtain ⟨same, hown⟩ := taskStep_own (separated.own taskID task htask) hstep
                have hlt : taskID < s.tasks.length := (List.getElem?_eq_some_iff.mp htask).1
                refine ⟨_, by rw [systemStep_eq separated.goesOn htask, hstep],
                  separated_set separated p.1 hown, ?_, ?_⟩
                · simp only [agentView, List.getElem?_set_self hlt, Option.map_some]
                · intro other hother
                  simp only [agentView, List.getElem?_set_ne (Ne.symm hother),
                    same.taskWorld_eq hother]
  crashes := by
    intro taskID s fault separated hnext
    cases htask : s.tasks[taskID]? with
    | none => rw [agentView, htask] at hnext; cases hnext
    | some task =>
        rw [agentNext_agentView separated htask] at hnext
        cases hstep : taskStep tools taskID s.world task with
        | error fault =>
            refine ⟨_, by rw [systemStep_eq separated.goesOn htask, hstep], ?_, ?_⟩
            · intro separated'
              cases separated'.goesOn
            · intro other
              rfl
        | ok next => rw [hstep] at hnext; cases next <;> cases hnext

/-- Every task keeps to its own files. -/
theorem separated_reachable (separated : Separated config xctestrunFile s)
    (run : Relation.ReflTransGen (Turn (systemStep tools)) s t) (hfault : t.fault = none) :
    Separated config xctestrunFile t := by
  have hown := Transition.invariant
    (fun t : System => ∀ (taskID : Nat) (task : RunningTask), t.tasks[taskID]? = some task →
      ∀ action ∈ task.todo, action.Own taskID config xctestrunFile) run separated.own ?_
  · exact ⟨hfault, hown⟩
  · intro s t hs hturn
    obtain ⟨-, taskID, task, action, rest, htask, htodo, hcases⟩ := turn_cases hturn
    rcases hcases with ⟨world, locals, -, rfl⟩ | ⟨fault, -, rfl⟩
    · apply (@separated_set config xctestrunFile taskID { s with fault := none } ⟨locals, rest⟩
        ⟨rfl, hs⟩ world _).own
      intro action' hmem
      exact hs taskID task htask action' (htodo ▸ List.mem_cons_of_mem _ hmem)
    · exact hs

/-- Alone, a task goes through its actions in order. -/
theorem alone_of_performAll {todo : List Action} {world world' : World} {locals locals' : Locals}
    (h : performAll tools taskID world locals todo = .ok (world', locals')) (after : List Action) :
    Relation.ReflTransGen (Alone (agentNext tools) taskID)
      (some (world, ⟨locals, todo ++ after⟩)) (some (world', ⟨locals', after⟩)) := by
  induction todo generalizing world locals with
  | nil =>
      obtain ⟨rfl, rfl⟩ := Prod.mk.inj (Except.ok.inj h)
      exact .refl
  | cons action rest ih =>
      obtain ⟨⟨world, locals⟩, hp, hrest⟩ := Outcome.bind_eq_ok.mp h
      refine .head ?_ (ih hrest)
      simp [Alone, agentNext, taskStep, hp, bind, Except.bind, Except.map, pure, Except.pure]

/-- A task that does the first of its actions without a fault may do them before all others. -/
theorem agent_of_performAll (separated : Separated config xctestrunFile s) {locals locals' : Locals}
    {todo after : List Action} {world' : World}
    (htask : s.tasks[taskID]? = some ⟨locals, todo ++ after⟩)
    (h : performAll tools taskID s.world locals todo = .ok (world', locals')) :
    Relation.ReflTransGen (Alone (agentNext tools) taskID)
      (agentView config xctestrunFile taskID s)
      (some (taskWorld taskID config xctestrunFile world', ⟨locals', after⟩)) := by
  rw [agentView, htask]
  apply alone_of_performAll
  rw [performAll_taskWorld, h]
  · rfl
  · intro action hmem
    exact separated.own taskID _ htask action (List.mem_append_left _ hmem)

/-- A task that returns when it is alone returns in every interleaving that no fault ends, with the
same locals. -/
theorem task_of_final (separated : Separated config xctestrunFile s)
    (run : Relation.ReflTransGen (Turn (systemStep tools)) s t)
    (hfinal : Transition.Final (Turn (systemStep tools)) t) (hfault : t.fault = none)
    {locals locals' : Locals} {todo : List Action} {world' : World}
    (htask : s.tasks[taskID]? = some ⟨locals, todo⟩)
    (h : performAll tools taskID s.world locals todo = .ok (world', locals')) :
    t.tasks[taskID]? = some ⟨locals', []⟩ := by
  have hsolo := agent_of_performAll separated (htask.trans (by rw [List.append_nil])) h
  have hview := independent.view_eq separated run (separated_reachable separated run hfault)
    hfinal hsolo rfl
  obtain ⟨task', htask', heq⟩ := Option.map_eq_some_iff.mp hview
  rw [htask', (Prod.mk.inj heq).2]

end Independence

section Run

/-- The tasks of the executor on their batches, before their first actions. -/
def startTasks (config : XCTestRunConfig) (xctestrunFile : String) (baseline : ExecutionResult)
    (workers : Nat) (batches : List (List Mutant)) : List RunningTask :=
  List.zipWith
    (fun taskID batch => ⟨{}, program taskID config xctestrunFile baseline batch⟩)
    (List.range workers) batches

/-- The system that the executor starts with. -/
def startSystem (config : XCTestRunConfig) (xctestrunFile : String) (baseline : ExecutionResult)
    (workers : Nat) (batches : List (List Mutant)) (world : World) : System where
  world := world
  tasks := startTasks config xctestrunFile baseline workers batches

/-- What `run` comes to: a fatal error, its return, or the start of the executor. -/
inductive RunStart
  | fatal (message : String)
  | returned (mutationResults : List MutationResult)
  | executing (s : System)

/-- The variable `singleTargetRunFile`. -/
def singleTargetRunFile (config : XCTestRunConfig) : String :=
  config.xctestrunFile ++ ".mull-xctrn-base.xctestrun"

def run (tools : InvocationTools) (config : XCTestRunConfig) (configuration : Configuration)
    (split : Splitting) (world : World) (mutants : List Mutant) : RunStart :=
  if mutants.isEmpty then .returned []
  else
    match generateSingleTargetXCRunFile tools.baseEditFails tools.plutilSucceeds
        (world.runFiles config.xctestrunFile) (world.runFiles (singleTargetRunFile config))
        config.testTarget with
    | .error message => .fatal message
    | .ok file =>
        let world := world.setRunFile (singleTargetRunFile config) file
        let command := xcodeBuildTestCommand (singleTargetRunFile config) none
          config.xcodebuildArgs [] configuration.timeout (logFile config.logPath "baseline.log")
        let baseline := executionResult (tools.baselineRun command (namedRunFile world command))
        .executing
          (startSystem config (singleTargetRunFile config) baseline
            configuration.mutantExecutionWorkers
            (split mutants configuration.mutantExecutionWorkers) world)

/-- Every interleaving comes to an end without a fault, with the tasks returned and results of this
kind. -/
def AlwaysReturns (tools : InvocationTools) (results : List MutationResult → Prop) :
    RunStart → Prop
  | .fatal _ => False
  | .returned mutationResults => results mutationResults
  | .executing s =>
      (WellFounded fun t s => Turn (systemStep tools.toTools) s t) ∧
      ∀ t, Relation.ReflTransGen (Turn (systemStep tools.toTools)) s t →
        Transition.Final (Turn (systemStep tools.toTools)) t →
          t.fault = none ∧ (∀ task ∈ t.tasks, task.todo = []) ∧ results (collected t)

variable {tools : Tools} {config : XCTestRunConfig} {xctestrunFile : String}
  {baseline : ExecutionResult} {workers : Nat} {batches : List (List Mutant)} {world : World}

@[simp] theorem tasks_startSystem :
    (startSystem config xctestrunFile baseline workers batches world).tasks =
      startTasks config xctestrunFile baseline workers batches := rfl

theorem startTasks_getElem? {taskID : Nat} {batch : List Mutant}
    (hworkers : batches.length ≤ workers) (hbatch : batches[taskID]? = some batch) :
    (startTasks config xctestrunFile baseline workers batches)[taskID]? =
      some ⟨{}, program taskID config xctestrunFile baseline batch⟩ := by
  have hlt := (List.getElem?_eq_some_iff.mp hbatch).1
  rw [startTasks, List.getElem?_zipWith, hbatch, List.getElem?_range (by omega)]

/-- A task of the executor has a batch, and nothing of its program is done. -/
theorem startTasks_cases {taskID : Nat} {task : RunningTask}
    (h : (startTasks config xctestrunFile baseline workers batches)[taskID]? = some task) :
    ∃ batch, batches[taskID]? = some batch ∧
      task = ⟨{}, program taskID config xctestrunFile baseline batch⟩ := by
  obtain ⟨taskID', batch, hrange, hbatch, rfl⟩ := List.getElem?_zipWith_eq_some.mp h
  obtain ⟨-, rfl⟩ := List.getElem?_eq_some_iff.mp hrange
  simp only [List.getElem_range]
  exact ⟨batch, hbatch, rfl⟩

/-- The tasks of the executor work on their own files. -/
theorem separated_start :
    Separated config xctestrunFile
      (startSystem config xctestrunFile baseline workers batches world) where
  goesOn := rfl
  own := by
    intro taskID task htask
    obtain ⟨batch, -, rfl⟩ := startTasks_cases htask
    exact own_program

/-- Where every task returns alone, no fault ends an interleaving. -/
theorem goesOn_of_calls {t : System}
    (hcalls : ∀ (taskID : Nat) (task : RunningTask),
      (startTasks config xctestrunFile baseline workers batches)[taskID]? = some task →
        ∃ world' locals, performAll tools taskID world task.locals task.todo =
          .ok (world', locals))
    (run : Relation.ReflTransGen (Turn (systemStep tools))
      (startSystem config xctestrunFile baseline workers batches world) t) : t.fault = none := by
  refine (independent.good_of_ends separated_start ?_ run).goesOn
  intro taskID
  cases htask : (startTasks config xctestrunFile baseline workers batches)[taskID]? with
  | none => exact ⟨none, by rw [agentView, startSystem, htask]; exact .refl, rfl⟩
  | some task =>
      obtain ⟨world', locals, hcall⟩ := hcalls taskID task htask
      exact ⟨_, agent_of_performAll separated_start (htask.trans (by rw [List.append_nil])) hcall,
        rfl⟩

/-- Where every task returns alone, every interleaving ends without a fault and with the locals
that the tasks have alone. -/
theorem tasks_of_final {t : System} {final : Nat → List Mutant → Locals}
    (hworkers : batches.length ≤ workers)
    (hcalls : ∀ taskID batch, batches[taskID]? = some batch → ∃ world',
      operatorCall tools taskID config xctestrunFile baseline batch world =
        .ok (world', final taskID batch))
    (run : Relation.ReflTransGen (Turn (systemStep tools))
      (startSystem config xctestrunFile baseline workers batches world) t)
    (hfinal : Transition.Final (Turn (systemStep tools)) t) :
    t.fault = none ∧ t.tasks = batches.zipIdx.map fun p => ⟨final p.2 p.1, []⟩ := by
  have hfault : t.fault = none := by
    apply goesOn_of_calls _ run
    intro taskID task hstart
    obtain ⟨batch, hbatch, rfl⟩ := startTasks_cases hstart
    obtain ⟨world', hcall⟩ := hcalls taskID batch hbatch
    exact ⟨_, _, hcall⟩
  refine ⟨hfault, ?_⟩
  have hlength : t.tasks.length = batches.length := by
    rw [length_tasks run]
    simpa [startSystem, startTasks] using hworkers
  apply List.ext_getElem?
  intro taskID
  cases hbatch : batches[taskID]? with
  | none =>
      have hle := List.getElem?_eq_none_iff.mp hbatch
      rw [List.getElem?_eq_none (by omega), List.getElem?_eq_none (by simpa using hle)]
  | some batch =>
      obtain ⟨world', hcall⟩ := hcalls taskID batch hbatch
      rw [task_of_final separated_start run hfinal hfault (startTasks_getElem? hworkers hbatch)
        hcall]
      simp [hbatch]

/-- The baseline is run on the base file. -/
theorem namedRunFile_baseline (world : World) (file : Option Plist) (timeout : Int)
    (logPath : String) :
    namedRunFile (world.setRunFile (singleTargetRunFile config) file)
        (xcodeBuildTestCommand (singleTargetRunFile config) none config.xcodebuildArgs [] timeout
          logPath) =
      file := by
  have hfile : "-xctestrun" ≠ singleTargetRunFile config := ne_append_of_not_suffix _ (by decide)
  rw [namedRunFile, runFile_xcodeBuildTestCommand _ _ _ _ hfile]
  exact World.runFiles_setRunFile_self ..

/-- Where `run` comes to the executor, one file is new and each task has its batch. -/
theorem run_eq_executing {tools : InvocationTools} {configuration : Configuration}
    {split : Splitting} {mutants : List Mutant} {s : System}
    (h : run tools config configuration split world mutants = .executing s) :
    ∃ file baseline, s =
      startSystem config (singleTargetRunFile config) baseline
        configuration.mutantExecutionWorkers (split mutants configuration.mutantExecutionWorkers)
        (world.setRunFile (singleTargetRunFile config) file) := by
  unfold run at h
  split_ifs at h
  split at h
  · cases h
  · cases h
    exact ⟨_, _, rfl⟩

end Run

end XCTestRunInvocation

end MullXCTest.Invocation
