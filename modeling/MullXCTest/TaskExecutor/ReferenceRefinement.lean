import MullXCTest.TaskExecutor.ReferenceSafety

/-!
# `PthreadTaskExecutor` with and without its references

Seen without the allocations, a step of the executor that works on references is
a step of the executor that gives each worker its own storage, or no step at all,
and every step of the latter is made of steps of the former.
-/

namespace MullXCTest.TaskExecutor

open GrowingVector Relation Transition Simulation

variable {α β : Type}

namespace Thread

variable {storages storages' : Vec (List β)} {counters counters' : Vec Nat}
  {threads : List (Thread β)}

theorem map_worker_congr
    (hstorages : ∀ thread ∈ threads,
      storages'.read thread.storageRef = storages.read thread.storageRef)
    (hcounters : ∀ thread ∈ threads, counters'.read thread.counter = counters.read thread.counter) :
    threads.map (worker storages' counters') = threads.map (worker storages counters) := by
  apply List.map_congr_left
  intro thread hmem
  simp only [worker, hstorages thread hmem, hcounters thread hmem]

/-- An append in place is not seen through the references that are there. -/
theorem map_worker_pushStorage (spare : Nat → Nat)
    (room : storages.elements.length < storages.capacity)
    (valid : ∀ thread ∈ threads, storages.Valid thread.storageRef) :
    threads.map (worker (storages.pushBack spare []) counters) =
      threads.map (worker storages counters) := by
  apply map_worker_congr
  · exact fun thread hmem => Vec.read_pushBack_of_room room (valid thread hmem)
  · exact fun _ _ => rfl

theorem map_worker_pushCounter (spare : Nat → Nat)
    (room : counters.elements.length < counters.capacity)
    (valid : ∀ thread ∈ threads, counters.Valid thread.counter) :
    threads.map (worker storages (counters.pushBack spare 0)) =
      threads.map (worker storages counters) := by
  apply map_worker_congr
  · exact fun _ _ => rfl
  · exact fun thread hmem => Vec.read_pushBack_of_room room (valid thread hmem)

/-- The other threads hold references to other positions. -/
theorem Linked.apart {before after : List (Thread β)} {thread : Thread β} {s c : Nat}
    (h : Linked s c (before ++ thread :: after)) :
    ∀ other ∈ before ++ after, thread.storageRef.index ≠ other.storageRef.index ∧
      thread.counter.index ≠ other.counter.index := by
  intro other hmem
  obtain ⟨hstorage, hcounter⟩ := h.middle
  obtain ⟨i, hne, hi⟩ : ∃ i, before.length ≠ i ∧
      (before ++ thread :: after)[i]? = some other := by
    rcases List.mem_append.mp hmem with hbefore | hafter
    · obtain ⟨i, hi, rfl⟩ := List.getElem_of_mem hbefore
      exact ⟨i, by omega, by simp [List.getElem?_append_left hi]⟩
    · obtain ⟨i, hi, rfl⟩ := List.getElem_of_mem hafter
      refine ⟨before.length + (i + 1), by omega, ?_⟩
      rw [List.getElem?_append_right (by omega)]
      simp [hi]
  obtain ⟨hstorage', hcounter'⟩ := h.getElem? hi
  rw [hstorage, hcounter, hstorage', hcounter']
  exact ⟨hne, hne⟩

/-- What a thread writes through its own references is seen of that thread only. -/
theorem Linked.map_worker {before after : List (Thread β)} {thread : Thread β} {s c : Nat}
    (h : Linked s c (before ++ thread :: after))
    (hstorages : ∀ r, thread.storageRef.index ≠ r.index → storages'.read r = storages.read r)
    (hcounters : ∀ r, thread.counter.index ≠ r.index → counters'.read r = counters.read r)
    (thread' : Thread β) :
    (before ++ thread' :: after).map (worker storages' counters') =
      before.map (worker storages counters) ++ worker storages' counters' thread' ::
        after.map (worker storages counters) := by
  have hsame : ∀ others ⊆ before ++ after,
      others.map (worker storages' counters') = others.map (worker storages counters) := by
    intro others hsubset
    apply map_worker_congr
    · exact fun other hmem => hstorages _ (h.apart other (hsubset hmem)).1
    · exact fun other hmem => hcounters _ (h.apart other (hsubset hmem)).2
  rw [List.map_append, List.map_cons, hsame before (List.subset_append_left _ _),
    hsame after (List.subset_append_right _ _)]

variable {output : β} {todo : List (Write β)} {storageRef counter : Reference}

theorem worker_store (write : storages.modify storageRef (· ++ [output]) = some storages') :
    (worker storages counters ⟨.push output :: todo, storageRef, counter⟩).step =
      some (worker storages' counters ⟨todo, storageRef, counter⟩) := by
  obtain ⟨stored, hstored⟩ := Vec.valid_iff_read.mp (Vec.modify_eq_some_iff.mp write).1
  simp [worker, Worker.step, Vec.read_modify write, hstored]

theorem worker_count (write : counters.modify counter (· + 1) = some counters') :
    (worker storages counters ⟨.increment :: todo, storageRef, counter⟩).step =
      some (worker storages counters' ⟨todo, storageRef, counter⟩) := by
  obtain ⟨counted, hcounted⟩ := Vec.valid_iff_read.mp (Vec.modify_eq_some_iff.mp write).1
  simp [worker, Worker.step, Vec.read_modify write, hcounted]

/-- With one element for each thread, the threads see all elements in order. -/
theorem Linked.storages_eq (h : Linked storages.allocation counters.allocation threads)
    (hlength : storages.elements.length = threads.length) :
    (threads.map (worker storages counters)).map Worker.storage = storages.elements := by
  apply List.ext_getElem?
  intro i
  by_cases hi : i < threads.length
  · have href := (h.getElem? (List.getElem?_eq_getElem hi)).1
    simp [worker, Vec.read, href, hi, hlength]
  · simp [hi, hlength]

theorem Linked.counters_eq (h : Linked storages.allocation counters.allocation threads)
    (hlength : counters.elements.length = threads.length) :
    (threads.map (worker storages counters)).map Worker.counter = counters.elements := by
  apply List.ext_getElem?
  intro i
  by_cases hi : i < threads.length
  · have href := (h.getElem? (List.getElem?_eq_getElem hi)).2
    simp [worker, Vec.read, href, hi, hlength]
  · simp [hi, hlength]

end Thread

namespace PthreadTaskExecutor

variable {e : PthreadTaskExecutor α β} {spare : Nat → Nat}

theorem view_enter : (e.enter spare).view = e.start := by
  cases htasks : e.tasks with
  | nil => simp [enter, start, htasks, Memory.view, Memory.workers, Vec.empty]
  | cons task tasks =>
      cases hinput : e.input with
      | nil => simp [enter, start, htasks, hinput, Memory.view, Memory.workers, Vec.empty]
      | cons a rest =>
          simp only [enter, start, htasks, hinput]
          split
          · simp [Memory.view, Memory.workers, Vec.read, Vec.back, Vec.pushBack, Vec.empty]
          · rfl

section Spawn

variable {rest : List α} {storages : Vec (List β)} {counters : Vec Nat} {threads : List (Thread β)}
  {out : List β}

theorem map_pushStorage (h : Memory.Safe e ⟨.looping, rest, storages, counters, threads, out⟩)
    (more : threads.length < e.count) :
    threads.map (Thread.worker (storages.pushBack spare []) counters) =
      threads.map (Thread.worker storages counters) := by
  obtain ⟨⟨hstorages, -⟩, hlength, -⟩ := h.phase
  simp only at hstorages hlength
  have room : storages.elements.length < storages.capacity := by omega
  exact Thread.map_worker_pushStorage spare room fun thread hmem => (h.valid hmem).1

theorem map_pushCounter
    (h : Memory.Safe e ⟨.storagePushed, rest, storages, counters, threads, out⟩) :
    threads.map (Thread.worker storages (counters.pushBack spare 0)) =
      threads.map (Thread.worker storages counters) := by
  obtain ⟨⟨-, hcounters⟩, more, -, -, hlength⟩ := h.phase
  simp only at hcounters hlength more
  have room : counters.elements.length < counters.capacity := by omega
  exact Thread.map_worker_pushCounter spare room fun thread hmem => (h.valid hmem).2

/-- The new thread sees the empty storage and the counter that were appended for it. -/
theorem view_create (h : Memory.Safe e ⟨.counterPushed, rest, storages, counters, threads, out⟩)
    (rest' : List α) (todo : List (Write β)) :
    Memory.view ⟨.looping, rest', storages, counters,
        threads ++ [⟨todo, storages.back, counters.back⟩], out⟩ =
      ⟨.spawning, rest', threads.map (Thread.worker storages counters) ++ [⟨todo, [], 0⟩],
        out⟩ := by
  obtain ⟨-, -, hlength, hlast, hlength', hlast'⟩ := h.phase
  simp only at hlength hlast hlength' hlast'
  have hfresh : Thread.worker storages counters ⟨todo, storages.back, counters.back⟩ =
      ⟨todo, [], 0⟩ := by
    simp only [Thread.worker, Vec.read_back, hlength, hlength', Nat.add_sub_cancel, hlast, hlast',
      Option.getD_some]
  simp only [Memory.view, Memory.workers, List.map_append, List.map_cons, List.map_nil, hfresh]

/-- Every thread has left its counter when the storages are appended. -/
theorem view_append {out' : List β} (hcounters : counters.elements.length = threads.length) :
    Memory.view ⟨.returned, rest, storages, counters, threads, out'⟩ =
      ⟨.returned, rest, threads.map (Thread.worker storages counters), out'⟩ := by
  cases threads with
  | nil =>
      have hempty : counters.elements = [] := List.length_eq_zero_iff.mp hcounters
      simp [Memory.view, Memory.workers, hempty]
  | cons thread threads => simp [Memory.view, Memory.workers]

end Spawn

/-- A move is a step of the executor without references, or is not seen there. -/
theorem view_moves {m m' : Memory α β} (h : m.Safe e) (step : e.Moves spare m m') :
    m'.view = m.view ∧ m'.stage < m.stage ∨ e.Step m.view m'.view := by
  cases step with
  | pushStorage more batch =>
      apply Or.inl
      exact ⟨by simp only [Memory.view, Memory.workers, map_pushStorage h more], Nat.one_lt_two⟩
  | pushCounter =>
      apply Or.inl
      exact ⟨by simp only [Memory.view, Memory.workers, map_pushCounter h], Nat.zero_lt_one⟩
  | create batch moved advance =>
      have more := h.phase.2.1
      apply Or.inr
      rw [view_create h]
      apply Step.spawn
      · simpa [Memory.workers] using more
      · simpa [Memory.workers] using batch
      · simpa [Memory.workers] using moved
      · exact advance
  | @created rest storages counters threads out all =>
      exact Or.inr (Step.spawned (by simpa [Memory.workers] using all))
  | @store position rest storages storages' counters before after out output todo storageRef
      counter write =>
      have hmap := h.linked.map_worker (fun r hne => Vec.read_modify_ne write hne)
        (fun r _ => (rfl : counters.read r = _)) ⟨todo, storageRef, counter⟩
      apply Or.inr
      simp only [Memory.view, Memory.workers_middle, hmap, List.map_append, List.map_cons]
      exact Step.work (Thread.worker_store write)
  | @count position rest storages counters counters' before after out todo storageRef counter
      write =>
      have hmap := h.linked.map_worker (fun r _ => (rfl : storages.read r = _))
        (fun r hne => Vec.read_modify_ne write hne) ⟨todo, storageRef, counter⟩
      apply Or.inr
      cases position with
      | sequential todo' counter' => exact absurd h.phase.1 (by simp)
      | _ =>
          simp only [Memory.view, Memory.workers_middle, hmap, List.map_append, List.map_cons]
          exact Step.work (Thread.worker_count write)
  | @join i rest storages counters threads out thread found ended =>
      apply Or.inr
      have found' : (threads.map (Thread.worker storages counters))[i]? =
          some (Thread.worker storages counters thread) := by
        rw [List.getElem?_map, found, Option.map_some]
      exact Step.join found' ended
  | @joined rest storages counters threads out =>
      apply Or.inr
      have hlength : threads.length = (threads.map (Thread.worker storages counters)).length := by
        simp
      simp only [Memory.view, Memory.workers]
      rw [hlength]
      exact Step.joined
  | @append rest storages counters threads out reported =>
      obtain ⟨hlinked, hstorages, hcounters⟩ := h
      apply Or.inr
      rw [view_append hcounters, ← hlinked.storages_eq hstorages, ← List.flatMap_def]
      apply Step.append
      simp only [Memory.workers]
      rwa [hlinked.counters_eq hcounters]
  | @runStore rest storages counters threads out output todo counter =>
      exact Or.inr (Step.run rfl)
  | @runCount rest storages counters counters' threads out todo counter write =>
      obtain ⟨-, hthreads, -⟩ := h
      simp only at hthreads
      subst hthreads
      obtain ⟨counted, hcounted⟩ := Vec.valid_iff_read.mp (Vec.modify_eq_some_iff.mp write).1
      apply Or.inr
      apply Step.run
      simp [Worker.step, Vec.read_modify write, hcounted]
  | @ran rest storages counters threads out counter reported =>
      obtain ⟨-, hthreads, hcounter, hlength⟩ := h
      simp only at hthreads hcounter hlength
      subst hthreads hcounter
      obtain ⟨counted, hcounted⟩ := List.length_eq_one_iff.mp hlength
      have hworkers : Memory.workers ⟨.returned, rest, storages, counters, [], out⟩ =
          [⟨[], out, (counters.read ⟨counters.allocation, 0⟩).getD 0⟩] := by
        simp [Memory.workers, Vec.read, hcounted]
      apply Or.inr
      simp only [Memory.view, hworkers]
      refine Step.ran rfl ?_
      simpa [Vec.read, hcounted] using reported

section Write

/-- A worker that can write is a thread. -/
theorem threads_of_write {m : Memory α β} {before after : List (Worker β)}
    {worker worker' : Worker β} (h : m.workers = before ++ worker :: after)
    (write : worker.step = some worker') :
    ∃ before' thread after', m.threads = before' ++ thread :: after' ∧
      before'.map (Thread.worker m.storages m.counters) = before ∧
      thread.worker m.storages m.counters = worker ∧
      after'.map (Thread.worker m.storages m.counters) = after := by
  rcases m.workers_cases with hthreads | hended
  · rw [h] at hthreads
    obtain ⟨before', rest', hsplit, hbefore, hrest⟩ := List.map_eq_append_iff.mp hthreads.symm
    obtain ⟨thread, after', rfl, hthread, hafter⟩ := List.map_eq_cons_iff.mp hrest
    exact ⟨before', thread, after', hsplit, hbefore, hthread, hafter⟩
  · have hmem : worker ∈ m.workers := h ▸ List.mem_append_right _ List.mem_cons_self
    exact absurd (hended worker hmem) (Worker.todo_ne_nil_of_step write)

variable {position : Position β} {rest : List α} {storages : Vec (List β)} {counters : Vec Nat}
  {out : List β}

/-- Every thread can make its next write, because its references are valid. -/
theorem moves_of_write {before after : List (Thread β)} {thread : Thread β} {worker' : Worker β}
    (h : Memory.Safe e ⟨position, rest, storages, counters, before ++ thread :: after, out⟩)
    (write : (thread.worker storages counters).step = some worker') :
    ∃ m', ReflTransGen (e.Moves spare)
        ⟨position, rest, storages, counters, before ++ thread :: after, out⟩ m' ∧
      m'.view = ⟨(Memory.view ⟨position, rest, storages, counters, [thread], out⟩).caller, rest,
        before.map (Thread.worker storages counters) ++ worker' ::
          after.map (Thread.worker storages counters), out⟩ := by
  obtain ⟨todo, storageRef, counter⟩ := thread
  obtain ⟨hstorage, hcounter⟩ := h.valid (List.mem_append_right _ List.mem_cons_self)
  rcases todo with _ | ⟨output | _, todo⟩
  · simp [Thread.worker, Worker.step] at write
  · obtain ⟨storages', hmodify⟩ := Vec.exists_modify hstorage (· ++ [output])
    obtain rfl := Option.some.inj ((Thread.worker_store hmodify).symm.trans write)
    refine ⟨_, .single (.store hmodify), ?_⟩
    have hmap := h.linked.map_worker (fun r hne => Vec.read_modify_ne hmodify hne)
      (fun r _ => (rfl : counters.read r = _)) ⟨todo, storageRef, counter⟩
    simp only [Memory.view, Memory.workers_middle, hmap]
  · obtain ⟨counters', hmodify⟩ := Vec.exists_modify hcounter (· + 1)
    obtain rfl := Option.some.inj ((Thread.worker_count hmodify).symm.trans write)
    refine ⟨_, .single (.count hmodify), ?_⟩
    have hmap := h.linked.map_worker (fun r _ => (rfl : storages.read r = _))
      (fun r hne => Vec.read_modify_ne hmodify hne) ⟨todo, storageRef, counter⟩
    cases position with
    | sequential todo' counter' => exact absurd h.phase.1 (by simp)
    | _ => simp only [Memory.view, Memory.workers_middle, hmap]

theorem moves_of_run {threads : List (Thread β)} {todo : List (Write β)} {counter : Reference}
    {worker' : Worker β}
    (h : Memory.Safe e ⟨.sequential todo counter, rest, storages, counters, threads, out⟩)
    (write : Worker.step ⟨todo, out, (counters.read counter).getD 0⟩ = some worker') :
    ∃ m', ReflTransGen (e.Moves spare)
        ⟨.sequential todo counter, rest, storages, counters, threads, out⟩ m' ∧
      m'.view = ⟨.sequential worker', rest, threads.map (Thread.worker storages counters),
        worker'.storage⟩ := by
  obtain ⟨hthreads, hcounter, hlength⟩ := h.phase
  simp only at hthreads hcounter hlength
  subst hthreads hcounter
  rcases todo with _ | ⟨output | _, todo⟩ <;>
    simp only [Worker.step, reduceCtorEq, Option.some.injEq] at write
  · subst write
    exact ⟨_, .single .runStore, rfl⟩
  · subst write
    have hvalid : counters.Valid ⟨counters.allocation, 0⟩ := ⟨rfl, hlength ▸ Nat.zero_lt_one⟩
    obtain ⟨counters', hmodify⟩ := Vec.exists_modify hvalid (· + 1)
    obtain ⟨counted, hcounted⟩ := Vec.valid_iff_read.mp hvalid
    refine ⟨_, .single (.runCount hmodify), ?_⟩
    simp [Memory.view, Memory.workers, Vec.read_modify hmodify, hcounted]

end Write

/-- A step of the executor without references is made of moves. -/
theorem moves_of_step {m : Memory α β} {s : State α β} (h : m.Safe e) (step : e.Step m.view s) :
    ∃ m', ReflTransGen (e.Moves spare) m m' ∧ m'.view = s := by
  obtain ⟨position, rest, storages, counters, threads, out⟩ := m
  generalize hview : Memory.view ⟨position, rest, storages, counters, threads, out⟩ = v at step
  have hworkers := Memory.workers_of_view hview
  simp only [Memory.view] at hview
  cases step with
  | @spawn rest' workers out' group task more batch moved advance =>
      obtain rfl := hworkers (by simp)
      obtain ⟨hcaller, rfl, -, rfl⟩ := State.mk.inj hview
      rw [List.length_map] at more batch moved
      cases position with
      | looping =>
          have h₁ : Memory.Safe e ⟨.storagePushed, rest, storages.pushBack spare [], counters,
              threads, out⟩ := safe_moves h (.pushStorage more batch)
          have h₂ : Memory.Safe e ⟨.counterPushed, rest, storages.pushBack spare [],
              counters.pushBack spare 0, threads, out⟩ := safe_moves h₁ .pushCounter
          refine ⟨_, .head (.pushStorage more batch)
            (.head .pushCounter (.single (.create batch moved advance))), ?_⟩
          rw [view_create h₂, map_pushCounter h₁, map_pushStorage h more]
      | storagePushed =>
          have h₁ : Memory.Safe e ⟨.counterPushed, rest, storages, counters.pushBack spare 0,
              threads, out⟩ := safe_moves h .pushCounter
          refine ⟨_, .head .pushCounter (.single (.create batch moved advance)), ?_⟩
          rw [view_create h₁, map_pushCounter h]
      | counterPushed =>
          exact ⟨_, .single (.create batch moved advance), view_create h _ _⟩
      | _ => cases hcaller
  | @spawned rest' workers out' all =>
      obtain rfl := hworkers (by simp)
      obtain ⟨hcaller, rfl, -, rfl⟩ := State.mk.inj hview
      rw [List.length_map] at all
      cases position with
      | looping => exact ⟨_, .single (.created all), rfl⟩
      | storagePushed => exact absurd h.phase.2.1 all
      | counterPushed => exact absurd h.phase.2.1 all
      | _ => cases hcaller
  | @work caller rest' before after worker worker' out' write =>
      obtain ⟨rfl, rfl, hsplit, rfl⟩ := State.mk.inj hview
      obtain ⟨before', thread, after', rfl, rfl, rfl, rfl⟩ := threads_of_write hsplit write
      exact moves_of_write h write
  | @join i rest' workers worker out' thread ended =>
      obtain rfl := hworkers (by simp)
      obtain ⟨hcaller, rfl, -, rfl⟩ := State.mk.inj hview
      rw [List.getElem?_map, Option.map_eq_some_iff] at thread
      obtain ⟨holder, found, rfl⟩ := thread
      cases position with
      | joining i' =>
          obtain rfl := Caller.joining.inj hcaller
          exact ⟨_, .single (.join found ended), rfl⟩
      | _ => cases hcaller
  | @joined rest' workers out' =>
      obtain rfl := hworkers (by simp)
      obtain ⟨hcaller, rfl, -, rfl⟩ := State.mk.inj hview
      cases position with
      | joining i' =>
          obtain rfl : i' = threads.length := by simpa using Caller.joining.inj hcaller
          exact ⟨_, .single .joined, rfl⟩
      | _ => cases hcaller
  | @append rest' workers out' reported =>
      obtain rfl := hworkers (by simp)
      obtain ⟨hcaller, rfl, -, rfl⟩ := State.mk.inj hview
      cases position with
      | reporting =>
          obtain ⟨hlinked, hstorages, hcounters⟩ := h
          rw [hlinked.counters_eq hcounters] at reported
          refine ⟨_, .single (.append reported), ?_⟩
          rw [view_append hcounters, ← hlinked.storages_eq hstorages, ← List.flatMap_def]
      | _ => cases hcaller
  | @run rest' workers worker worker' out' write =>
      obtain rfl := hworkers (by simp)
      obtain ⟨hcaller, rfl, -, rfl⟩ := State.mk.inj hview
      cases position with
      | sequential todo counter =>
          obtain rfl := Caller.sequential.inj hcaller
          exact moves_of_run h write
      | _ => cases hcaller
  | @ran rest' workers worker out' ended reported =>
      obtain rfl := hworkers (by simp)
      obtain ⟨hcaller, rfl, -, rfl⟩ := State.mk.inj hview
      cases position with
      | sequential todo counter =>
          obtain rfl := Caller.sequential.inj hcaller
          obtain ⟨hthreads, hcounter, hlength⟩ := h.phase
          simp only at ended hthreads hcounter hlength
          subst ended hthreads hcounter
          obtain ⟨counted, hcounted⟩ := List.length_eq_one_iff.mp hlength
          refine ⟨_, .single (.ran ?_), ?_⟩
          · simpa [Vec.read, hcounted] using reported
          · simp [Memory.view, Memory.workers, Vec.read, hcounted]
      | _ => cases hcaller

theorem stutters :
    Stutters (e.Moves spare) e.Step (Memory.Safe e) Memory.view Memory.stage where
  keeps _ _ := safe_moves
  forth _ _ := view_moves
  back _ _ := moves_of_step

/-- **The references of `execute` stay valid.** In every interleaving no thread writes through a
dangling reference, neither vector moves its elements after the first room was made, and no two
threads hold a reference to the same storage or to the same counter. -/
theorem references_stay_valid {m : Memory α β}
    (run : ReflTransGen (e.Moves spare) (e.enter spare) m) :
    ¬ m.Dangles ∧
      (m.storages.allocation = (e.enter spare).storages.allocation ∧
        m.counters.allocation = (e.enter spare).counters.allocation) ∧
      m.threads.Pairwise fun thread thread' =>
        thread.storageRef ≠ thread'.storageRef ∧ thread.counter ≠ thread'.counter := by
  obtain ⟨hsafe, hallocation⟩ := invariant
    (fun m' => m'.Safe e ∧ (m'.storages.allocation, m'.counters.allocation) =
      ((e.enter spare).storages.allocation, (e.enter spare).counters.allocation))
    run ⟨safe_enter, rfl⟩
    fun _ _ h step => ⟨safe_moves h.1 step, (allocations_moves h.1 step).trans h.2⟩
  exact ⟨hsafe.not_dangles, Prod.mk.inj hallocation, hsafe.linked.pairwise⟩

/-- **`execute` with its references behaves as the executor without them.** The two reach the same
states, and no interleaving goes on for ever; so, under the same assumptions, `out` ends up with
the outputs of all elements in input order, and with tasks that count their elements none stops
before `execute` has returned. -/
theorem references_refine :
    (∀ s, e.Reachable s ↔
        ∃ m, ReflTransGen (e.Moves spare) (e.enter spare) m ∧ m.view = s) ∧
      Acc (fun m' m => e.Moves spare m m') (e.enter spare) ∧
      ∀ output, Assumed e output →
        (∀ m, ReflTransGen (e.Moves spare) (e.enter spare) m → m.position = .returned →
            m.out = e.out ++ e.input.flatMap output) ∧
          (Counts e → ∀ m, ReflTransGen (e.Moves spare) (e.enter spare) m →
            Final (e.Moves spare) m → m.position = .returned) := by
  have hreach : ∀ s, e.Reachable s ↔
      ∃ m, ReflTransGen (e.Moves spare) (e.enter spare) m ∧ m.view = s := by
    intro s
    rw [Reachable, ← view_enter]
    exact stutters.reaches_iff safe_enter s
  refine ⟨hreach, stutters.terminates step_wellFounded safe_enter, ?_⟩
  intro output assumed
  refine ⟨?_, ?_⟩
  · intro m run hreturned
    have hview := out_of_returned assumed ((hreach m.view).mpr ⟨m, run, rfl⟩)
      (by simp [Memory.view, hreturned])
    exact hview
  · intro counts m run hfinal
    have hsafe : m.Safe e := invariant (Memory.Safe e) run safe_enter fun _ _ => safe_moves
    have hcaller := returned_of_final assumed.splits counts
      ((hreach m.view).mpr ⟨m, run, rfl⟩) (stutters.final_view step_wellFounded hsafe hfinal)
    cases hposition : m.position <;> simp [Memory.view, hposition] at hcaller ⊢

section Example

/-- The first thread of two has stored an output before the calling thread creates the second. -/
theorem references_stay_valid_example :
    ∃ m : Memory Nat String,
      ReflTransGen (exampleExecutor.Moves fun _ => 0) (exampleExecutor.enter fun _ => 0) m ∧
        m.threads.length = 2 ∧ m.storages.elements = [["1"], []] ∧ ¬ m.Dangles := by
  have hstored : ∃ m : Memory Nat String,
      ReflTransGen (exampleExecutor.Moves fun _ => 0) (exampleExecutor.enter fun _ => 0) m ∧
        m.threads.length = 2 ∧ m.storages.elements = [["1"], []] := by
    refine ⟨_, .head (.pushStorage (by decide) rfl) (.head .pushCounter (.head
      (.create rfl rfl (by decide)) (.head (@Moves.store _ _ _ _ _ _ _ _ _ [] [] _ _ _ _ _ rfl)
        (.head (.pushStorage (by decide) rfl) (.head .pushCounter
          (.single (.create rfl rfl (by decide)))))))), rfl, rfl⟩
  obtain ⟨m, run, hthreads, hstorages⟩ := hstored
  exact ⟨m, run, hthreads, hstorages, (references_stay_valid run).1⟩

theorem references_refine_example :
    ∃ m, ReflTransGen (exampleExecutor.Moves fun _ => 0) (exampleExecutor.enter fun _ => 0) m ∧
      m.position = .returned ∧ m.out = ["0", "1", "2", "3"] := by
  obtain ⟨-, hends, hassumed⟩ := @references_refine _ _ exampleExecutor fun _ => 0
  obtain ⟨hout, hreturned⟩ := hassumed _ assumed_example
  obtain ⟨m, run, hfinal⟩ := exists_final_of_acc hends
  have hposition := hreturned counts_example m run hfinal
  exact ⟨m, run, hposition, hout m run hposition⟩

end Example

end PthreadTaskExecutor

end MullXCTest.TaskExecutor
