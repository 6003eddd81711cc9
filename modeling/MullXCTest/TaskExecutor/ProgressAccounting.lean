import MullXCTest.TaskExecutor.SequentialRefinement

/-!
# Progress accounting

With tasks that count every element of their ranges once, the counters never add up
to more than the input and to exactly the input when the tasks have returned. A
reporter that waits for this sum ends, and `execute` returns.
-/

namespace MullXCTest.TaskExecutor

open Transition

variable {α β : Type}

/-- The progress counters that are there in a state. -/
def State.counters (s : State α β) : List Nat :=
  match s.caller with
  | .sequential worker => [worker.counter]
  | _ => s.workers.map Worker.counter

/-- All workers are there and have returned. -/
def State.Ended (s : State α β) : Prop :=
  match s.caller with
  | .spawning => False
  | .sequential worker => worker.todo = []
  | _ => ∀ worker ∈ s.workers, worker.todo = []

/-- mull's `progress_reporter`: its loop ends when the counters add up to the total. -/
def ReporterWaits (e : PthreadTaskExecutor α β) : Prop :=
  e.reporterEnds = fun total counters => counters.sum = total

/-- The counters never exceed the input. With some task they add up to it when the workers have
returned, and so whenever `execute` has. No interleaving goes on for ever, and none stops before
`execute` has returned. -/
structure AccountingCompletes (e : PthreadTaskExecutor α β) : Prop where
  bounded : ∀ s, e.Reachable s → s.counters.sum ≤ e.input.length
  exact : e.tasks ≠ [] → ∀ s, e.Reachable s → s.Ended → s.counters.sum = e.input.length
  returned : e.tasks ≠ [] → ∀ s, e.Reachable s → s.caller = .returned →
    s.counters.sum = e.input.length
  ends : WellFounded fun t s => e.Step s t
  returns : ∀ s, e.Reachable s → Final e.Step s → s.caller = .returned

namespace PthreadTaskExecutor

variable {e : PthreadTaskExecutor α β}

theorem sum_counter_le (workers : List (Worker β)) :
    (workers.map Worker.counter).sum ≤ (workers.map Worker.finalCounter).sum := by
  induction workers with
  | nil => exact Nat.le_refl _
  | cons worker rest ih =>
      simp only [List.map_cons, List.sum_cons]
      exact Nat.add_le_add (Nat.le_add_right _ _) ih

theorem counters_sum_le (s : State α β) : s.counters.sum ≤ s.counted := by
  obtain ⟨caller, rest, workers, out⟩ := s
  have hworkers := sum_counter_le workers
  cases caller with
  | spawning => exact Nat.le_trans hworkers (Nat.le_add_right _ _)
  | sequential worker =>
      simp only [State.counters, State.counted, List.sum_singleton]
      exact Nat.le_add_right _ _
  | _ => exact hworkers

theorem counters_sum_of_ended {s : State α β} (h : s.Ended) : s.counters.sum = s.counted := by
  obtain ⟨caller, rest, workers, out⟩ := s
  have hworkers : (∀ worker ∈ workers, worker.todo = []) →
      (workers.map Worker.counter).sum = (workers.map Worker.finalCounter).sum := by
    intro hended
    exact congrArg List.sum
      (List.map_congr_left fun w hw => (Worker.finalCounter_of_ended (hended w hw)).symm)
  cases caller with
  | spawning => exact h.elim
  | sequential worker =>
      simpa [State.counters, State.counted] using (Worker.finalCounter_of_ended h).symm
  | joining i => exact hworkers h
  | reporting => exact hworkers h
  | returned => exact hworkers h

/-- `execute` returns behind all workers. -/
theorem ended_of_returned (splits : Splits e) {s : State α β} (h : e.Reachable s)
    (hreturned : s.caller = .returned) : s.Ended := by
  have hinv := inv_reachable splits h
  simp only [Inv, hreturned] at hinv
  simpa only [State.Ended, hreturned] using hinv

/-- Tasks that count every element once complete their accounting. -/
theorem accountingCompletes (splits : Splits e) (waits : ReporterWaits e)
    (increments : ∀ task ∈ e.tasks, ∀ range, increments (task range) = range.length) :
    AccountingCompletes e := by
  have counts : Counts e := ⟨increments, fun _ _ h => by rw [waits]; exact h⟩
  have exact : e.tasks ≠ [] → ∀ s, e.Reachable s → s.Ended →
      s.counters.sum = e.input.length := by
    intro htasks s h hended
    exact (counters_sum_of_ended hended).trans (counted_reachable splits counts htasks h)
  refine ⟨?_, exact, ?_, step_wellFounded, fun s => returned_of_final splits counts⟩
  · intro s h
    by_cases htasks : e.tasks = []
    · rw [reachable_of_tasks_nil htasks h]
      exact Nat.zero_le _
    · exact counted_reachable splits counts htasks h ▸ counters_sum_le s
  · intro htasks s h hreturned
    exact exact htasks s h (ended_of_returned splits h hreturned)

end PthreadTaskExecutor

/-- Some interleaving returns with all elements counted. -/
theorem AccountingCompletes.exists_returned {e : PthreadTaskExecutor α β}
    (completes : AccountingCompletes e) (htasks : e.tasks ≠ []) :
    ∃ s, e.Reachable s ∧ s.caller = .returned ∧ s.counters.sum = e.input.length := by
  obtain ⟨s, hrun, hfinal⟩ := exists_final completes.ends e.start
  have hreturned := completes.returns s hrun hfinal
  exact ⟨s, hrun, hreturned, completes.returned htasks s hrun hreturned⟩

end MullXCTest.TaskExecutor
