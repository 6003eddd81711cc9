import MullXCTest.TaskExecutor.PthreadTaskExecutor
import Mathlib.Algebra.BigOperators.Group.List.Basic
import Mathlib.Data.Prod.Lex

/-!
# `execute` refines a sequential run

What `out` will hold in the end is the same in every state of a run: what is in
it, what the workers have pushed and will still push, and the outputs of the
elements that no worker has yet. The number of counter increments is kept in the
same way, so that the reporter ends, and a rank that every step lowers shows that
every run does.
-/

namespace MullXCTest.TaskExecutor

open Transition

variable {α β : Type}

namespace Worker

variable {worker worker' : Worker β}

/-- A write moves from what is still to come to what is done. -/
theorem final_step (h : worker.step = some worker') : worker'.final = worker.final := by
  obtain ⟨todo, storage, counter⟩ := worker
  rcases todo with _ | ⟨output | _, rest⟩ <;> simp only [step, reduceCtorEq, Option.some.injEq] at h
  · subst h
    simp [final, outputs]
  · subst h
    simp [final, outputs]

theorem finalCounter_step (h : worker.step = some worker') :
    worker'.finalCounter = worker.finalCounter := by
  obtain ⟨todo, storage, counter⟩ := worker
  rcases todo with _ | ⟨output | _, rest⟩ <;> simp only [step, reduceCtorEq, Option.some.injEq] at h
  · subst h
    simp [finalCounter, increments]
  · subst h
    simp only [finalCounter, increments]
    omega

theorem length_todo_step (h : worker.step = some worker') :
    worker'.todo.length < worker.todo.length := by
  obtain ⟨todo, storage, counter⟩ := worker
  rcases todo with _ | ⟨output | _, rest⟩ <;> simp only [step, reduceCtorEq, Option.some.injEq] at h
  · subst h
    simp
  · subst h
    simp

theorem todo_ne_nil_of_step (h : worker.step = some worker') : worker.todo ≠ [] := by
  intro hnil
  simp [step, hnil] at h

theorem exists_step (h : worker.todo ≠ []) : ∃ worker', worker.step = some worker' := by
  obtain ⟨todo, storage, counter⟩ := worker
  rcases todo with _ | ⟨output | _, rest⟩
  · exact absurd rfl h
  · exact ⟨_, rfl⟩
  · exact ⟨_, rfl⟩

theorem final_of_ended (h : worker.todo = []) : worker.final = worker.storage := by
  simp [final, h, outputs]

theorem finalCounter_of_ended (h : worker.todo = []) : worker.finalCounter = worker.counter := by
  simp [finalCounter, h, increments]

end Worker

/-- What is assumed of mull's `taskBatches` and of the tasks: batches of the asked number
that add up, and on every range the outputs of its elements in order. -/
structure Assumed (e : PthreadTaskExecutor α β) (output : α → List β) : Prop where
  tasks_ne_nil : e.tasks ≠ []
  batches_length : ∀ items tasks, 0 < tasks → (e.taskBatches items tasks).length = tasks
  batches_sum : ∀ items tasks, 0 < tasks → (e.taskBatches items tasks).sum = items
  appends : ∀ task ∈ e.tasks, ∀ range, outputs (task range) = range.flatMap output

/-- A task that counts every element of its range once, and mull's reporter, which ends when
the counters add up to the total. -/
structure Counts (e : PthreadTaskExecutor α β) : Prop where
  increments : ∀ task ∈ e.tasks, ∀ range, increments (task range) = range.length
  reporterEnds : ∀ total counters, counters.sum = total → e.reporterEnds total counters

/-- Batches for the workers that cover the input, empty ones allowed. -/
structure Splits (e : PthreadTaskExecutor α β) : Prop where
  length : 0 < e.count → e.batches.length = e.count
  sum : 0 < e.count → e.batches.sum = e.input.length

theorem Assumed.splits {e : PthreadTaskExecutor α β} {output : α → List β}
    (assumed : Assumed e output) : Splits e where
  length := assumed.batches_length _ _
  sum := assumed.batches_sum _ _

namespace State

/-- What `out` will hold when the caller returns. -/
def produced (output : α → List β) (s : State α β) : List β :=
  match s.caller with
  | .spawning => s.out ++ s.workers.flatMap Worker.final ++ s.rest.flatMap output
  | .joining _ => s.out ++ s.workers.flatMap Worker.final
  | .reporting => s.out ++ s.workers.flatMap Worker.final
  | .sequential worker => worker.final
  | .returned => s.out

/-- What the counters will add up to. -/
def counted (s : State α β) : Nat :=
  match s.caller with
  | .spawning => (s.workers.map Worker.finalCounter).sum + s.rest.length
  | .sequential worker => worker.finalCounter
  | _ => (s.workers.map Worker.finalCounter).sum

end State

namespace PthreadTaskExecutor

variable (e : PthreadTaskExecutor α β)

/-- The batches not yet given to a worker cover the rest of the input, and every worker that
was joined has ended. -/
def Inv (s : State α β) : Prop :=
  match s.caller with
  | .spawning => 0 < e.count ∧ s.rest.length = (e.batches.drop s.workers.length).sum
  | .joining i => i ≤ s.workers.length ∧ ∀ worker ∈ s.workers.take i, worker.todo = []
  | .reporting => ∀ worker ∈ s.workers, worker.todo = []
  | .sequential worker => s.workers = [] ∧ worker.storage = s.out
  | .returned => ∀ worker ∈ s.workers, worker.todo = []

/-- The phases still to come, and the writes still to come in the present one. -/
def rank (s : State α β) : Nat ×ₗ Nat :=
  match s.caller with
  | .spawning =>
      toLex (2 * (e.count - s.workers.length) + s.workers.length + 3,
        (s.workers.map fun worker => worker.todo.length).sum)
  | .joining i =>
      toLex (s.workers.length - i + 2, (s.workers.map fun worker => worker.todo.length).sum)
  | .reporting => toLex (1, (s.workers.map fun worker => worker.todo.length).sum)
  | .sequential worker =>
      toLex (1, worker.todo.length + (s.workers.map fun worker => worker.todo.length).sum)
  | .returned => toLex (0, (s.workers.map fun worker => worker.todo.length).sum)

variable {e}

theorem rank_step {s t : State α β} (h : e.Step s t) : e.rank t < e.rank s := by
  cases h with
  | spawn more batch moved advance =>
      apply Prod.Lex.left
      simp only [List.length_append, List.length_singleton]
      omega
  | spawned all =>
      apply Prod.Lex.left
      simp only
      omega
  | @work caller rest before after worker worker' out write =>
      have hlt := Worker.length_todo_step write
      cases caller <;> simp [rank, Prod.Lex.toLex_lt_toLex, hlt]
  | @join i rest workers worker out thread ended =>
      obtain ⟨hi, -⟩ := List.getElem?_eq_some_iff.mp thread
      apply Prod.Lex.left
      simp only
      omega
  | joined =>
      apply Prod.Lex.left
      omega
  | append reported => exact Prod.Lex.left _ _ Nat.zero_lt_one
  | run write =>
      have hlt := Worker.length_todo_step write
      simp [rank, Prod.Lex.toLex_lt_toLex, hlt]
  | ran ended reported => exact Prod.Lex.left _ _ Nat.zero_lt_one

/-- No interleaving goes on for ever. -/
theorem step_wellFounded : WellFounded fun t s => e.Step s t :=
  terminates wellFounded_lt fun _ _ => rank_step

theorem drop_batches {i group : Nat} (batch : e.batches[i]? = some group) :
    (e.batches.drop i).sum = group + (e.batches.drop (i + 1)).sum := by
  obtain ⟨hi, rfl⟩ := List.getElem?_eq_some_iff.mp batch
  rw [List.drop_eq_getElem_cons hi, List.sum_cons]

theorem inv_step {s t : State α β} (hs : e.Inv s) (h : e.Step s t) : e.Inv t := by
  cases h with
  | spawn more batch moved advance =>
      have hsum := drop_batches batch
      simp only [Inv, List.length_append, List.length_singleton, List.length_drop] at hs ⊢
      exact ⟨hs.1, by omega⟩
  | spawned all => simp [Inv]
  | @work caller rest before after worker worker' out write =>
      have hne := Worker.todo_ne_nil_of_step write
      cases caller with
      | spawning => simpa [Inv] using hs
      | joining i =>
          obtain ⟨hi, hended⟩ := hs
          refine ⟨by simpa using hi, ?_⟩
          have hle : i ≤ before.length := by
            by_contra hlt
            refine hne (hended worker ?_)
            rw [List.take_append, List.mem_append]
            apply Or.inr
            obtain ⟨j, hj⟩ : ∃ j, i - before.length = j + 1 := ⟨i - before.length - 1, by omega⟩
            simp [hj]
          simpa [List.take_append_of_le_length hle] using hended
      | reporting => exact absurd (hs worker (by simp)) hne
      | sequential worker => exact absurd hs.1 (by simp)
      | returned => exact absurd (hs worker (by simp)) hne
  | @join i rest workers worker out thread ended =>
      obtain ⟨hi, rfl⟩ := List.getElem?_eq_some_iff.mp thread
      refine ⟨hi, ?_⟩
      intro w hw
      rw [List.take_succ_eq_append_getElem hi, List.mem_append, List.mem_singleton] at hw
      rcases hw with hw | rfl
      · exact hs.2 w hw
      · exact ended
  | joined => exact fun w hw => hs.2 w (by simpa using hw)
  | append reported => exact hs
  | run write => exact ⟨hs.1, rfl⟩
  | @ran rest workers worker out ended reported =>
      obtain ⟨hworkers, -⟩ := hs
      simp only at hworkers
      simp [Inv, hworkers, ended]

section Conserved

variable {output : α → List β}

theorem rest_eq_nil (splits : Splits e) {rest : List α} {workers : List (Worker β)}
    {out : List β} (hinv : e.Inv ⟨.spawning, rest, workers, out⟩)
    (all : ¬ workers.length < e.count) : rest = [] := by
  obtain ⟨hcount, hs⟩ := hinv
  have hlength := splits.length hcount
  simp only at hs
  rw [List.drop_eq_nil_of_le (by omega), List.sum_nil] at hs
  exact List.length_eq_zero_iff.mp hs

theorem produced_step (assumed : Assumed e output) {s t : State α β}
    (hs : e.Inv s) (h : e.Step s t) : t.produced output = s.produced output := by
  cases h with
  | @spawn rest workers out group task more batch moved advance =>
      have houtputs := assumed.appends task (List.mem_of_getElem? moved) (rest.take group)
      have hsplit : rest.flatMap output =
          (rest.take group).flatMap output ++ (rest.drop group).flatMap output := by
        rw [← List.flatMap_append, List.take_append_drop]
      simp [State.produced, Worker.final, houtputs, hsplit]
  | @spawned rest workers out all =>
      have hrest : rest = [] := rest_eq_nil assumed.splits hs all
      simp [State.produced, hrest]
  | @work caller rest before after worker worker' out write =>
      have hfinal := Worker.final_step write
      cases caller <;> simp [State.produced, hfinal]
  | join thread ended => rfl
  | joined => rfl
  | @append rest workers out reported =>
      have hstorage : workers.flatMap Worker.storage = workers.flatMap Worker.final :=
        List.flatMap_congr fun w hw => (Worker.final_of_ended (hs w hw)).symm
      simp [State.produced, hstorage]
  | run write => exact Worker.final_step write
  | ran ended reported => exact hs.2.symm.trans (Worker.final_of_ended ended).symm

theorem counted_step (splits : Splits e) (counts : Counts e) {s t : State α β} (hs : e.Inv s)
    (h : e.Step s t) : t.counted = s.counted := by
  cases h with
  | @spawn rest workers out group task more batch moved advance =>
      have hincrements := counts.increments task (List.mem_of_getElem? moved) (rest.take group)
      simp only [State.counted, List.map_append, List.map_cons, List.map_nil, List.sum_append,
        List.sum_singleton, Worker.finalCounter, hincrements, List.length_take, List.length_drop]
      omega
  | @spawned rest workers out all =>
      have hrest : rest = [] := rest_eq_nil splits hs all
      simp [State.counted, hrest]
  | @work caller rest before after worker worker' out write =>
      have hfinal := Worker.finalCounter_step write
      cases caller <;> simp [State.counted, hfinal]
  | join thread ended => rfl
  | joined => rfl
  | append reported => rfl
  | run write => exact Worker.finalCounter_step write
  | @ran rest workers worker out ended reported =>
      obtain ⟨hworkers, -⟩ := hs
      simp only at hworkers
      simp [State.counted, hworkers]

/-- The state that `execute` starts in, for its three branches. -/
theorem start_cases :
    (e.count = 0 ∧ e.start = ⟨.returned, e.input, [], e.out⟩) ∨
      (∃ task ∈ e.tasks, e.start = ⟨.sequential ⟨task e.input, e.out, 0⟩, e.input, [], e.out⟩) ∨
      (0 < e.count ∧ e.start = ⟨.spawning, e.input, [], e.out⟩) := by
  cases htasks : e.tasks with
  | nil => exact Or.inl ⟨by simp [count, htasks], by simp [start, htasks]⟩
  | cons task tasks =>
      cases hinput : e.input with
      | nil => exact Or.inl ⟨by simp [count, hinput], by simp [start, htasks, hinput]⟩
      | cons a rest =>
          by_cases hsingle : (task :: tasks).length = 1 ∨ (a :: rest).length = 1
          · refine Or.inr (Or.inl ⟨task, by simp, ?_⟩)
            simp only [start, htasks, hinput]
            exact if_pos hsingle
          · refine Or.inr (Or.inr ⟨by simp [count, hinput, htasks], ?_⟩)
            simp only [start, htasks, hinput]
            exact if_neg hsingle

theorem inv_start (splits : Splits e) : e.Inv e.start := by
  rcases start_cases (e := e) with ⟨-, h⟩ | ⟨task, -, h⟩ | ⟨hcount, h⟩ <;> rw [h]
  · simp [Inv]
  · exact ⟨rfl, rfl⟩
  · exact ⟨hcount, (splits.sum hcount).symm⟩

theorem input_eq_nil (htasks : e.tasks ≠ []) (hcount : e.count = 0) : e.input = [] := by
  have hpos := List.length_pos_iff.mpr htasks
  apply List.length_eq_zero_iff.mp
  unfold count at hcount
  omega

theorem produced_start (assumed : Assumed e output) :
    e.start.produced output = e.out ++ e.input.flatMap output := by
  rcases start_cases (e := e) with ⟨hcount, h⟩ | ⟨task, htask, h⟩ | ⟨-, h⟩ <;> rw [h]
  · simp [State.produced, input_eq_nil assumed.tasks_ne_nil hcount]
  · simp [State.produced, Worker.final, assumed.appends task htask]
  · simp [State.produced]

theorem counted_start (counts : Counts e) (htasks : e.tasks ≠ []) :
    e.start.counted = e.input.length := by
  rcases start_cases (e := e) with ⟨hcount, h⟩ | ⟨task, htask, h⟩ | ⟨-, h⟩ <;> rw [h]
  · simp [State.counted, input_eq_nil htasks hcount]
  · simp [State.counted, Worker.finalCounter, counts.increments task htask]
  · simp [State.counted]

theorem inv_reachable (splits : Splits e) {s : State α β} (h : e.Reachable s) : e.Inv s :=
  invariant e.Inv h (inv_start splits) fun _ _ => inv_step

/-- The counters will add up to the input. -/
theorem counted_reachable (splits : Splits e) (counts : Counts e) (htasks : e.tasks ≠ [])
    {s : State α β} (h : e.Reachable s) : s.counted = e.input.length := by
  calc
    s.counted = e.start.counted :=
      conserved h (inv_start splits) (fun _ _ => inv_step) fun _ _ => counted_step splits counts
    _ = e.input.length := counted_start counts htasks

/-- Without tasks `execute` is back at once. -/
theorem reachable_of_tasks_nil (htasks : e.tasks = []) {s : State α β} (h : e.Reachable s) :
    s = ⟨.returned, e.input, [], e.out⟩ := by
  have hstart : e.start = ⟨.returned, e.input, [], e.out⟩ := by simp [start, htasks]
  rw [Reachable, hstart] at h
  refine invariant (· = _) h rfl ?_
  rintro s t rfl hstep
  generalize hs : (⟨.returned, e.input, [], e.out⟩ : State α β) = s at hstep
  cases hstep <;> simp at hs

/-- A worker that has not ended can go on. -/
theorem ended_of_final {s : State α β} (hfinal : Final e.Step s) {worker : Worker β}
    (hmem : worker ∈ s.workers) : worker.todo = [] := by
  obtain ⟨caller, rest, workers, out⟩ := s
  by_contra hne
  obtain ⟨before, after, rfl⟩ := List.append_of_mem hmem
  obtain ⟨worker', hstep⟩ := Worker.exists_step hne
  exact hfinal _ (.work hstep)

theorem finalCounters_of_final {s : State α β} (hfinal : Final e.Step s) :
    s.workers.map Worker.counter = s.workers.map Worker.finalCounter :=
  List.map_congr_left fun _ hw => (Worker.finalCounter_of_ended (ended_of_final hfinal hw)).symm

/-- A run only stops where `execute` has returned. -/
theorem returned_of_final (splits : Splits e) (counts : Counts e) {s : State α β}
    (h : e.Reachable s) (hfinal : Final e.Step s) : s.caller = .returned := by
  by_cases htasks : e.tasks = []
  · rw [reachable_of_tasks_nil htasks h]
  have hinv := inv_reachable splits h
  have hcounted := counted_reachable splits counts htasks h
  obtain ⟨caller, rest, workers, out⟩ := s
  cases caller with
  | spawning =>
      exfalso
      obtain ⟨hcount, hrest⟩ := hinv
      by_cases more : workers.length < e.count
      · have hlength := splits.length hcount
        have htasks : workers.length < e.tasks.length := by
          unfold count at more
          omega
        have batch := List.getElem?_eq_getElem (hlength ▸ more : workers.length < e.batches.length)
        have hsum := drop_batches batch
        refine hfinal _ (.spawn more batch (List.getElem?_eq_getElem htasks) ?_)
        simp only at hrest
        omega
      · exact hfinal _ (.spawned more)
  | joining i =>
      exfalso
      rcases Nat.lt_or_eq_of_le (show i ≤ workers.length from hinv.1) with hlt | rfl
      · have thread : workers[i]? = some workers[i] := List.getElem?_eq_getElem hlt
        exact hfinal _ (.join thread (ended_of_final hfinal (List.getElem_mem hlt)))
      · exact hfinal _ .joined
  | reporting =>
      exfalso
      refine hfinal _ (.append (counts.reporterEnds _ _ ?_))
      rw [← hcounted]
      exact congrArg List.sum (finalCounters_of_final hfinal)
  | sequential worker =>
      exfalso
      by_cases hended : worker.todo = []
      · refine hfinal _ (.ran hended (counts.reporterEnds _ _ ?_))
        rw [← hcounted, List.sum_singleton]
        exact (Worker.finalCounter_of_ended hended).symm
      · obtain ⟨worker', hstep⟩ := Worker.exists_step hended
        exact hfinal _ (.run hstep)
  | returned => rfl

/-- When the caller has returned, `out` holds the outputs of all elements in input order. -/
theorem out_of_returned (assumed : Assumed e output) {s : State α β} (h : e.Reachable s)
    (hreturned : s.caller = .returned) : s.out = e.out ++ e.input.flatMap output := by
  calc
    s.out = s.produced output := by simp [State.produced, hreturned]
    _ = e.start.produced output :=
        conserved h (inv_start assumed.splits) (fun _ _ => inv_step)
          fun _ _ => produced_step assumed
    _ = e.out ++ e.input.flatMap output := produced_start assumed

/-- **`execute` refines a sequential run.** In every interleaving `out` ends up with what it
held, followed by the outputs of all elements in input order, as after one task run over the
whole range; no interleaving goes on for ever, and with tasks that count their elements none
stops before `execute` has returned. -/
theorem execute_refines_sequential (assumed : Assumed e output) :
    (∀ s, e.Reachable s → s.caller = .returned →
        s.out = e.out ++ e.input.flatMap output ∧
          ∀ task ∈ e.tasks, s.out = (Worker.mk (task e.input) e.out 0).final) ∧
      (WellFounded fun t s => e.Step s t) ∧
      (Counts e → ∀ s, e.Reachable s → Final e.Step s → s.caller = .returned) := by
  refine ⟨?_, step_wellFounded, fun counts s => returned_of_final assumed.splits counts⟩
  intro s hs hreturned
  have hout := out_of_returned assumed hs hreturned
  exact ⟨hout, fun task htask => by simp [hout, Worker.final, assumed.appends task htask]⟩

end Conserved

section Example

/-- Batches whose sizes differ by at most one, the larger ones first. -/
def evenBatches (items tasks : Nat) : List Nat :=
  (List.range tasks).map fun i => items / tasks + if i < items % tasks then 1 else 0

theorem evenBatches_sum {items tasks : Nat} (h : 0 < tasks) :
    (evenBatches items tasks).sum = items := by
  have hprefix : ∀ n, ((List.range n).map fun i =>
      items / tasks + if i < items % tasks then 1 else 0).sum =
        n * (items / tasks) + min n (items % tasks) := by
    intro n
    induction n with
    | zero => simp
    | succ n ih =>
        rw [List.range_succ, List.map_append, List.sum_append, ih, Nat.add_mul]
        simp only [List.map_cons, List.map_nil, List.sum_singleton]
        split_ifs <;> omega
  have hmod : items % tasks < tasks := Nat.mod_lt items h
  rw [evenBatches, hprefix, Nat.min_eq_right (Nat.le_of_lt hmod)]
  exact Nat.div_add_mod items tasks

/-- Three elements, two tasks that print what they read, and one output already there. -/
def exampleExecutor : PthreadTaskExecutor Nat String where
  input := [1, 2, 3]
  out := ["0"]
  tasks := List.replicate 2 fun range => range.flatMap fun n => [.push n.repr, .increment]
  taskBatches := evenBatches
  reporterEnds total counters := counters.sum = total

theorem assumed_example : Assumed exampleExecutor fun n => [n.repr] where
  tasks_ne_nil := List.cons_ne_nil _ _
  batches_length _ _ _ := by simp [exampleExecutor, evenBatches]
  batches_sum _ _ h := evenBatches_sum h
  appends task htask range := by
    obtain rfl := List.eq_of_mem_replicate htask
    exact outputs_flatMap _ range

theorem counts_example : Counts exampleExecutor where
  increments task htask range := by
    obtain rfl := List.eq_of_mem_replicate htask
    simp [increments_flatMap, increments]
  reporterEnds _ _ h := h

theorem execute_refines_sequential_example :
    ∃ s, exampleExecutor.Reachable s ∧ s.caller = .returned ∧ s.out = ["0", "1", "2", "3"] := by
  obtain ⟨hout, hwf, hreturned⟩ := execute_refines_sequential assumed_example
  obtain ⟨s, hrun, hfinal⟩ := exists_final hwf exampleExecutor.start
  have hcaller := hreturned counts_example s hrun hfinal
  exact ⟨s, hrun, hcaller, (hout s hrun hcaller).1⟩

end Example

end PthreadTaskExecutor

end MullXCTest.TaskExecutor
