import MullXCTest.Library.GrowingVector
import MullXCTest.Library.Simulation
import MullXCTest.TaskExecutor.SequentialRefinement

/-!
# The references of `PthreadTaskExecutor`

`executeInParallel` once more, with its vectors `storages` and `counters` as
allocations and with what the threads really hold: references to an element of
each. The calling thread appends to both vectors while the first threads already
write through theirs, so that an append which moves the elements would leave
them with references into memory that was given back.
-/

namespace MullXCTest.TaskExecutor

open GrowingVector Relation Transition

variable {α β : Type}

/-- A running thread: the writes still to come, `storageRef` and `counter`. -/
structure Thread (β : Type) where
  todo : List (Write β)
  storageRef : Reference
  counter : Reference

/-- A thread as a worker, as seen through its references. -/
def Thread.worker (storages : Vec (List β)) (counters : Vec Nat) (thread : Thread β) :
    Worker β where
  todo := thread.todo
  storage := (storages.read thread.storageRef).getD []
  counter := (counters.read thread.counter).getD 0

/-- The calling thread: between two turns of the loop that creates the threads, behind the first
and behind the second `push_back` of a turn, in the loop that joins them, in `reporter.join()`,
in the task of `executeSequentially`, or back from `execute`. -/
inductive Position (β : Type)
  | looping
  | storagePushed
  | counterPushed
  | joining (i : Nat)
  | reporting
  | sequential (todo : List (Write β)) (counter : Reference)
  | returned

/-- `rest` are the elements from the iterator `end` on, `out` is what the member `out` holds. -/
structure Memory (α β : Type) where
  position : Position β
  rest : List α
  storages : Vec (List β)
  counters : Vec Nat
  threads : List (Thread β)
  out : List β

namespace Memory

/-- The next write of some thread goes through a reference that dangles. -/
def Dangles (m : Memory α β) : Prop :=
  (∃ thread ∈ m.threads, ∃ output rest, thread.todo = .push output :: rest ∧
      ¬ m.storages.Valid thread.storageRef) ∨
    (∃ thread ∈ m.threads, ∃ rest, thread.todo = .increment :: rest ∧
      ¬ m.counters.Valid thread.counter) ∨
    ∃ rest counter, m.position = .sequential (.increment :: rest) counter ∧
      ¬ m.counters.Valid counter

/-- The workers without the allocations. What the calling thread has run itself is seen in the
counter that is left of it. -/
def workers (m : Memory α β) : List (Worker β) :=
  match m.position with
  | .returned =>
      if m.threads.isEmpty then m.counters.elements.map fun counter => ⟨[], m.out, counter⟩
      else m.threads.map (Thread.worker m.storages m.counters)
  | _ => m.threads.map (Thread.worker m.storages m.counters)

/-- The state without the allocations. -/
def view (m : Memory α β) : State α β where
  caller :=
    match m.position with
    | .looping => .spawning
    | .storagePushed => .spawning
    | .counterPushed => .spawning
    | .joining i => .joining i
    | .reporting => .reporting
    | .sequential todo counter =>
        .sequential ⟨todo, m.out, (m.counters.read counter).getD 0⟩
    | .returned => .returned
  rest := m.rest
  workers := m.workers
  out := m.out

/-- With threads there are no other workers. -/
theorem workers_middle {position : Position β} {rest : List α} {storages : Vec (List β)}
    {counters : Vec Nat} {before after : List (Thread β)} {thread : Thread β} {out : List β} :
    workers ⟨position, rest, storages, counters, before ++ thread :: after, out⟩ =
      (before ++ thread :: after).map (Thread.worker storages counters) := by
  cases position <;> simp [workers]

/-- The workers are the threads, or have ended. -/
theorem workers_cases (m : Memory α β) :
    m.workers = m.threads.map (Thread.worker m.storages m.counters) ∨
      ∀ worker ∈ m.workers, worker.todo = [] := by
  obtain ⟨position, rest, storages, counters, threads, out⟩ := m
  cases position with
  | returned =>
      cases threads with
      | nil =>
          apply Or.inr
          intro worker hmem
          obtain ⟨counter, -, rfl⟩ := List.mem_map.mp hmem
          rfl
      | cons thread threads => exact Or.inl rfl
  | _ => exact Or.inl rfl

/-- Before `execute` is back the workers are the threads. -/
theorem workers_of_view {m : Memory α β} {s : State α β} (h : m.view = s)
    (hcaller : s.caller ≠ .returned) :
    s.workers = m.threads.map (Thread.worker m.storages m.counters) := by
  subst h
  cases hposition : m.position <;> simp [view, workers, hposition] at hcaller ⊢

end Memory

namespace PthreadTaskExecutor

variable (e : PthreadTaskExecutor α β) (spare : Nat → Nat)

/-- The state in which `execute` has chosen its branch and made the first room. -/
def enter : Memory α β :=
  match e.tasks, e.input with
  | [], _ => ⟨.returned, e.input, .empty, .empty, [], e.out⟩
  | _, [] => ⟨.returned, e.input, .empty, .empty, [], e.out⟩
  | task :: _, _ :: _ =>
      if e.tasks.length = 1 ∨ e.input.length = 1 then
        let counters := Vec.empty.pushBack spare 0
        ⟨.sequential (task e.input) counters.back, e.input, .empty, counters, [], e.out⟩
      else
        ⟨.looping, e.input, Vec.empty.reserve e.count, Vec.empty.reserve e.count, [], e.out⟩

/-- One step of the calling thread or of a thread that it created. A write through a dangling
reference has no meaning, so no step starts with one. -/
inductive Moves : Memory α β → Memory α β → Prop
  | pushStorage {rest : List α} {storages : Vec (List β)} {counters : Vec Nat}
      {threads : List (Thread β)} {out : List β} {group : Nat}
      (more : threads.length < e.count) (batch : e.batches[threads.length]? = some group) :
      Moves ⟨.looping, rest, storages, counters, threads, out⟩
        ⟨.storagePushed, rest, storages.pushBack spare [], counters, threads, out⟩
  | pushCounter {rest : List α} {storages : Vec (List β)} {counters : Vec Nat}
      {threads : List (Thread β)} {out : List β} :
      Moves ⟨.storagePushed, rest, storages, counters, threads, out⟩
        ⟨.counterPushed, rest, storages, counters.pushBack spare 0, threads, out⟩
  | create {rest : List α} {storages : Vec (List β)} {counters : Vec Nat}
      {threads : List (Thread β)} {out : List β} {group : Nat} {task : Task α β}
      (batch : e.batches[threads.length]? = some group)
      (moved : e.tasks[threads.length]? = some task) (advance : group ≤ rest.length) :
      Moves ⟨.counterPushed, rest, storages, counters, threads, out⟩
        ⟨.looping, rest.drop group, storages, counters,
          threads ++ [⟨task (rest.take group), storages.back, counters.back⟩], out⟩
  | created {rest : List α} {storages : Vec (List β)} {counters : Vec Nat}
      {threads : List (Thread β)} {out : List β} (all : ¬ threads.length < e.count) :
      Moves ⟨.looping, rest, storages, counters, threads, out⟩
        ⟨.joining 0, rest, storages, counters, threads, out⟩
  | store {position : Position β} {rest : List α} {storages storages' : Vec (List β)}
      {counters : Vec Nat} {before after : List (Thread β)} {out : List β} {output : β}
      {todo : List (Write β)} {storageRef counter : Reference}
      (write : storages.modify storageRef (· ++ [output]) = some storages') :
      Moves ⟨position, rest, storages, counters,
          before ++ ⟨.push output :: todo, storageRef, counter⟩ :: after, out⟩
        ⟨position, rest, storages', counters,
          before ++ ⟨todo, storageRef, counter⟩ :: after, out⟩
  | count {position : Position β} {rest : List α} {storages : Vec (List β)}
      {counters counters' : Vec Nat} {before after : List (Thread β)} {out : List β}
      {todo : List (Write β)} {storageRef counter : Reference}
      (write : counters.modify counter (· + 1) = some counters') :
      Moves ⟨position, rest, storages, counters,
          before ++ ⟨.increment :: todo, storageRef, counter⟩ :: after, out⟩
        ⟨position, rest, storages, counters',
          before ++ ⟨todo, storageRef, counter⟩ :: after, out⟩
  | join {i : Nat} {rest : List α} {storages : Vec (List β)} {counters : Vec Nat}
      {threads : List (Thread β)} {out : List β} {thread : Thread β}
      (found : threads[i]? = some thread) (ended : thread.todo = []) :
      Moves ⟨.joining i, rest, storages, counters, threads, out⟩
        ⟨.joining (i + 1), rest, storages, counters, threads, out⟩
  | joined {rest : List α} {storages : Vec (List β)} {counters : Vec Nat}
      {threads : List (Thread β)} {out : List β} :
      Moves ⟨.joining threads.length, rest, storages, counters, threads, out⟩
        ⟨.reporting, rest, storages, counters, threads, out⟩
  | append {rest : List α} {storages : Vec (List β)} {counters : Vec Nat}
      {threads : List (Thread β)} {out : List β}
      (reported : e.reporterEnds e.input.length counters.elements) :
      Moves ⟨.reporting, rest, storages, counters, threads, out⟩
        ⟨.returned, rest, storages, counters, threads, out ++ storages.elements.flatten⟩
  | runStore {rest : List α} {storages : Vec (List β)} {counters : Vec Nat}
      {threads : List (Thread β)} {out : List β} {output : β} {todo : List (Write β)}
      {counter : Reference} :
      Moves ⟨.sequential (.push output :: todo) counter, rest, storages, counters, threads, out⟩
        ⟨.sequential todo counter, rest, storages, counters, threads, out ++ [output]⟩
  | runCount {rest : List α} {storages : Vec (List β)} {counters counters' : Vec Nat}
      {threads : List (Thread β)} {out : List β} {todo : List (Write β)} {counter : Reference}
      (write : counters.modify counter (· + 1) = some counters') :
      Moves ⟨.sequential (.increment :: todo) counter, rest, storages, counters, threads, out⟩
        ⟨.sequential todo counter, rest, storages, counters', threads, out⟩
  | ran {rest : List α} {storages : Vec (List β)} {counters : Vec Nat}
      {threads : List (Thread β)} {out : List β} {counter : Reference}
      (reported : e.reporterEnds e.input.length counters.elements) :
      Moves ⟨.sequential [] counter, rest, storages, counters, threads, out⟩
        ⟨.returned, rest, storages, counters, threads, out⟩

end PthreadTaskExecutor

namespace Thread

/-- What a thread holds of the two vectors. -/
def references (thread : Thread β) : Reference × Reference :=
  (thread.storageRef, thread.counter)

/-- Every thread holds the references to its own position in the two allocations. -/
def Linked (storages counters : Nat) (threads : List (Thread β)) : Prop :=
  threads.map references =
    (List.range threads.length).map fun i => (⟨storages, i⟩, ⟨counters, i⟩)

variable {storages counters : Nat} {threads : List (Thread β)}

theorem Linked.getElem? (h : Linked storages counters threads) {i : Nat} {thread : Thread β}
    (found : threads[i]? = some thread) :
    thread.storageRef = ⟨storages, i⟩ ∧ thread.counter = ⟨counters, i⟩ := by
  obtain ⟨hi, rfl⟩ := List.getElem?_eq_some_iff.mp found
  have hget := congrArg (·[i]?) h
  simpa [hi, references] using hget

theorem Linked.middle {before after : List (Thread β)} {thread : Thread β}
    (h : Linked storages counters (before ++ thread :: after)) :
    thread.storageRef = ⟨storages, before.length⟩ ∧ thread.counter = ⟨counters, before.length⟩ :=
  h.getElem? (by simp)

/-- One more thread, with the references to the next position. -/
theorem Linked.concat (h : Linked storages counters threads) (todo : List (Write β)) :
    Linked storages counters
      (threads ++ [⟨todo, ⟨storages, threads.length⟩, ⟨counters, threads.length⟩⟩]) := by
  simp only [Linked] at h ⊢
  simp [List.range_succ, h, references]

/-- No two threads refer to the same storage or to the same counter. -/
theorem Linked.pairwise (h : Linked storages counters threads) :
    threads.Pairwise fun thread thread' =>
      thread.storageRef ≠ thread'.storageRef ∧ thread.counter ≠ thread'.counter := by
  apply List.pairwise_iff_getElem.mpr
  intro i j hi hj hlt
  obtain ⟨hstorage, hcounter⟩ := h.getElem? (List.getElem?_eq_getElem hi)
  obtain ⟨hstorage', hcounter'⟩ := h.getElem? (List.getElem?_eq_getElem hj)
  rw [hstorage, hcounter, hstorage', hcounter']
  simp only [ne_eq, Reference.mk.injEq, true_and]
  omega

/-- The references do not depend on what the threads have still to do. -/
theorem Linked.congr {threads' : List (Thread β)} (h : Linked storages counters threads)
    (same : threads'.map references = threads.map references) :
    Linked storages counters threads' := by
  have hlength : threads'.length = threads.length := by
    simpa using congrArg List.length same
  rw [Linked, same, hlength]
  exact h

end Thread

namespace Memory

variable {m : Memory α β}

/-- How many elements are to be appended before the next thread is created. -/
def stage (m : Memory α β) : Nat :=
  match m.position with
  | .looping => 2
  | .storagePushed => 1
  | _ => 0

/-- There is still room for the workers that `executeInParallel` creates. -/
def Roomy (e : PthreadTaskExecutor α β) (m : Memory α β) : Prop :=
  e.count ≤ m.storages.capacity ∧ e.count ≤ m.counters.capacity

/-- The vectors hold one element for each thread and a fresh one behind a `push_back`, and until
the last thread is created they have the room they were given. -/
def Phase (e : PthreadTaskExecutor α β) (m : Memory α β) : Prop :=
  match m.position with
  | .looping =>
      Roomy e m ∧ m.storages.elements.length = m.threads.length ∧
        m.counters.elements.length = m.threads.length
  | .storagePushed =>
      Roomy e m ∧ m.threads.length < e.count ∧
        m.storages.elements.length = m.threads.length + 1 ∧
        m.storages.elements[m.threads.length]? = some [] ∧
        m.counters.elements.length = m.threads.length
  | .counterPushed =>
      Roomy e m ∧ m.threads.length < e.count ∧
        m.storages.elements.length = m.threads.length + 1 ∧
        m.storages.elements[m.threads.length]? = some [] ∧
        m.counters.elements.length = m.threads.length + 1 ∧
        m.counters.elements[m.threads.length]? = some 0
  | .sequential _ counter =>
      m.threads = [] ∧ counter = ⟨m.counters.allocation, 0⟩ ∧ m.counters.elements.length = 1
  | .joining _ =>
      m.storages.elements.length = m.threads.length ∧
        m.counters.elements.length = m.threads.length
  | .reporting =>
      m.storages.elements.length = m.threads.length ∧
        m.counters.elements.length = m.threads.length
  | .returned =>
      m.threads.length ≤ m.storages.elements.length ∧
        m.threads.length ≤ m.counters.elements.length

/-- Every thread refers to its own position of the two vectors, and they hold what the calling
thread has appended. -/
structure Safe (e : PthreadTaskExecutor α β) (m : Memory α β) : Prop where
  linked : Thread.Linked m.storages.allocation m.counters.allocation m.threads
  phase : m.Phase e

variable {e : PthreadTaskExecutor α β}

theorem Safe.lengths (h : Safe e m) :
    m.threads.length ≤ m.storages.elements.length ∧
      m.threads.length ≤ m.counters.elements.length := by
  have hphase := h.phase
  unfold Phase at hphase
  cases hposition : m.position <;> simp only [hposition] at hphase <;> try omega
  simp [hphase.1]

/-- A thread holds valid references. -/
theorem Safe.valid (h : Safe e m) {thread : Thread β} (hmem : thread ∈ m.threads) :
    m.storages.Valid thread.storageRef ∧ m.counters.Valid thread.counter := by
  obtain ⟨i, found⟩ := List.mem_iff_getElem?.mp hmem
  obtain ⟨hstorage, hcounter⟩ := h.linked.getElem? found
  obtain ⟨hi, -⟩ := List.getElem?_eq_some_iff.mp found
  obtain ⟨hstorages, hcounters⟩ := h.lengths
  rw [hstorage, hcounter]
  exact ⟨⟨rfl, hi.trans_le hstorages⟩, ⟨rfl, hi.trans_le hcounters⟩⟩

theorem Safe.not_dangles (h : Safe e m) : ¬ m.Dangles := by
  rintro (⟨thread, hmem, output, rest, -, hinvalid⟩ | ⟨thread, hmem, rest, -, hinvalid⟩ |
    ⟨rest, counter, hposition, hinvalid⟩)
  · exact hinvalid (h.valid hmem).1
  · exact hinvalid (h.valid hmem).2
  · have hphase := h.phase
    simp only [Phase, hposition] at hphase
    obtain ⟨-, rfl, hlength⟩ := hphase
    exact hinvalid ⟨rfl, hlength ▸ Nat.zero_lt_one⟩

end Memory

end MullXCTest.TaskExecutor
