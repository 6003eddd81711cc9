import MullXCTest.Library.Transition
import Mathlib.Algebra.GroupWithZero.Nat

/-!
# `PthreadTaskExecutor`

`execute` as a step relation on the calling thread and its workers. A task's
`operator()` is the sequence of its writes to the storage and to the progress
counter that it was given, one write a step, so that the writes of different
workers interleave in every way. A pair of iterators is the list of the elements
between them. mull's `taskBatches` and `progress_reporter` are parameters, and
the pthread calls succeed.
-/

namespace MullXCTest.TaskExecutor

variable {α β : Type}

/-- A write of a task to what it shares with the calling thread. -/
inductive Write (β : Type)
  | push (output : β)
  | increment

/-- `operator()` of a task, on a range of the input. -/
abbrev Task (α β : Type) := List α → List (Write β)

/-- What is pushed to the storage by a sequence of writes. -/
def outputs : List (Write β) → List β
  | [] => []
  | .push output :: rest => output :: outputs rest
  | .increment :: rest => outputs rest

/-- What is added to the progress counter by a sequence of writes. -/
def increments : List (Write β) → Nat
  | [] => 0
  | .push _ :: rest => increments rest
  | .increment :: rest => increments rest + 1

theorem outputs_append (writes rest : List (Write β)) :
    outputs (writes ++ rest) = outputs writes ++ outputs rest := by
  induction writes with
  | nil => rfl
  | cons write writes ih => cases write <;> simp [outputs, ih]

theorem increments_append (writes rest : List (Write β)) :
    increments (writes ++ rest) = increments writes + increments rest := by
  induction writes with
  | nil => simp [increments]
  | cons write writes ih => cases write <;> simp [increments, ih, Nat.add_right_comm]

/-- The writes of a task that treats the elements of its range one after the other. -/
theorem outputs_flatMap (writes : α → List (Write β)) (range : List α) :
    outputs (range.flatMap writes) = range.flatMap fun a => outputs (writes a) := by
  induction range with
  | nil => rfl
  | cons a rest ih => simp [outputs_append, ih]

theorem increments_flatMap (writes : α → List (Write β)) (range : List α) :
    increments (range.flatMap writes) = (range.map fun a => increments (writes a)).sum := by
  induction range with
  | nil => rfl
  | cons a rest ih => simp [increments_append, ih]

/-- A task that loops over its range and counts an element in the head of the loop, so also
behind a `continue`. The body gives what is stored for the element at a position. -/
def forEach (body : Nat → α → List β) : Task α β :=
  fun range => range.zipIdx.flatMap fun p => (body p.2 p.1).map .push ++ [.increment]

theorem outputs_map_push (stored : List β) : outputs (stored.map .push) = stored := by
  induction stored with
  | nil => rfl
  | cons b rest ih => simp [outputs, ih]

theorem increments_map_push (stored : List β) : increments (stored.map .push) = 0 := by
  induction stored with
  | nil => rfl
  | cons b rest ih => simp [increments, ih]

theorem outputs_forEach (body : Nat → α → List β) (range : List α) :
    outputs (forEach body range) = range.zipIdx.flatMap fun p => body p.2 p.1 := by
  simp [forEach, outputs_flatMap, outputs_append, outputs_map_push, outputs]

theorem outputs_forEach_const (body : α → List β) (range : List α) :
    outputs (forEach (fun _ => body) range) = range.flatMap body := by
  calc
    outputs (forEach (fun _ => body) range) = range.zipIdx.flatMap fun p => body p.1 :=
      outputs_forEach _ range
    _ = (range.zipIdx.map Prod.fst).flatMap body := by rw [List.flatMap_map]
    _ = range.flatMap body := by rw [List.zipIdx_map_fst]

/-- Every element is counted once, whatever is stored for it. -/
theorem increments_forEach (body : Nat → α → List β) (range : List α) :
    increments (forEach body range) = range.length := by
  simp [forEach, increments_flatMap, increments_append, increments_map_push, increments,
    List.map_const']

/-- A running task: the writes still to come, its storage and its counter. -/
structure Worker (β : Type) where
  todo : List (Write β)
  storage : List β
  counter : Nat

namespace Worker

/-- The next write of a worker. -/
def step (worker : Worker β) : Option (Worker β) :=
  match worker.todo with
  | [] => none
  | .push output :: rest =>
      some { worker with todo := rest, storage := worker.storage ++ [output] }
  | .increment :: rest => some { worker with todo := rest, counter := worker.counter + 1 }

/-- The storage of a worker when it returns. -/
def final (worker : Worker β) : List β :=
  worker.storage ++ outputs worker.todo

/-- The counter of a worker when it returns. -/
def finalCounter (worker : Worker β) : Nat :=
  worker.counter + increments worker.todo

end Worker

/-- The calling thread: in the loop that creates the threads, in the loop that joins them, in
`reporter.join()`, in the task of `executeSequentially`, or back from `execute`. -/
inductive Caller (β : Type)
  | spawning
  | joining (i : Nat)
  | reporting
  | sequential (worker : Worker β)
  | returned

/-- `input` is the member `in`. -/
structure PthreadTaskExecutor (α β : Type) where
  input : List α
  out : List β
  tasks : List (Task α β)
  taskBatches : Nat → Nat → List Nat
  /-- `progress_reporter` with this total ends on these counters. -/
  reporterEnds : Nat → List Nat → Prop

/-- `rest` are the elements from the iterator `end` on. Workers stay where they are when they have
ended, and the task of `executeSequentially` comes to them, with its counter. -/
structure State (α β : Type) where
  caller : Caller β
  rest : List α
  workers : List (Worker β)
  out : List β

namespace PthreadTaskExecutor

variable (e : PthreadTaskExecutor α β)

/-- The variable `workers` of `executeInParallel`. -/
def count : Nat :=
  min e.input.length e.tasks.length

def batches : List Nat :=
  e.taskBatches e.input.length e.count

/-- The state in which `execute` has chosen its branch. -/
def start : State α β :=
  match e.tasks, e.input with
  | [], _ => ⟨.returned, e.input, [], e.out⟩
  | _, [] => ⟨.returned, e.input, [], e.out⟩
  | task :: _, _ :: _ =>
      if e.tasks.length = 1 ∨ e.input.length = 1 then
        ⟨.sequential ⟨task e.input, e.out, 0⟩, e.input, [], e.out⟩
      else ⟨.spawning, e.input, [], e.out⟩

/-- One step of the calling thread or of a worker. The iterator `end` is never advanced past
the end of the input, and no batch or task is taken from behind its vector. -/
inductive Step : State α β → State α β → Prop
  | spawn {rest : List α} {workers : List (Worker β)} {out : List β} {group : Nat}
      {task : Task α β} (more : workers.length < e.count)
      (batch : e.batches[workers.length]? = some group)
      (moved : e.tasks[workers.length]? = some task) (advance : group ≤ rest.length) :
      Step ⟨.spawning, rest, workers, out⟩
        ⟨.spawning, rest.drop group, workers ++ [⟨task (rest.take group), [], 0⟩], out⟩
  | spawned {rest : List α} {workers : List (Worker β)} {out : List β}
      (all : ¬ workers.length < e.count) :
      Step ⟨.spawning, rest, workers, out⟩ ⟨.joining 0, rest, workers, out⟩
  | work {caller : Caller β} {rest : List α} {before after : List (Worker β)}
      {worker worker' : Worker β} {out : List β} (write : worker.step = some worker') :
      Step ⟨caller, rest, before ++ worker :: after, out⟩
        ⟨caller, rest, before ++ worker' :: after, out⟩
  | join {i : Nat} {rest : List α} {workers : List (Worker β)} {worker : Worker β}
      {out : List β} (thread : workers[i]? = some worker) (ended : worker.todo = []) :
      Step ⟨.joining i, rest, workers, out⟩ ⟨.joining (i + 1), rest, workers, out⟩
  | joined {rest : List α} {workers : List (Worker β)} {out : List β} :
      Step ⟨.joining workers.length, rest, workers, out⟩ ⟨.reporting, rest, workers, out⟩
  | append {rest : List α} {workers : List (Worker β)} {out : List β}
      (reported : e.reporterEnds e.input.length (workers.map Worker.counter)) :
      Step ⟨.reporting, rest, workers, out⟩
        ⟨.returned, rest, workers, out ++ workers.flatMap Worker.storage⟩
  | run {rest : List α} {workers : List (Worker β)} {worker worker' : Worker β}
      {out : List β} (write : worker.step = some worker') :
      Step ⟨.sequential worker, rest, workers, out⟩
        ⟨.sequential worker', rest, workers, worker'.storage⟩
  | ran {rest : List α} {workers : List (Worker β)} {worker : Worker β} {out : List β}
      (ended : worker.todo = [])
      (reported : e.reporterEnds e.input.length [worker.counter]) :
      Step ⟨.sequential worker, rest, workers, out⟩ ⟨.returned, rest, workers ++ [worker], out⟩

/-- A state that some interleaving of the threads leads to. -/
def Reachable (s : State α β) : Prop :=
  Relation.ReflTransGen e.Step e.start s

end PthreadTaskExecutor

end MullXCTest.TaskExecutor
