import MullXCTest.TaskExecutor.References

/-!
# No reference of `PthreadTaskExecutor` dangles

What each step of the calling thread and of the threads keeps: because the room
is made before the first thread is created, no append moves an element that a
thread refers to. So the executor with its allocations has exactly the behaviours
of the executor without them.
-/

namespace MullXCTest.TaskExecutor

open GrowingVector Relation Transition Simulation

variable {α β : Type}

/-- A vector after a write to one of its first `n` elements. -/
structure Kept (n : Nat) {γ : Type} (v w : Vec γ) : Prop where
  allocation : w.allocation = v.allocation
  capacity : w.capacity = v.capacity
  length : w.elements.length = v.elements.length
  fresh : w.elements[n]? = v.elements[n]?

theorem Kept.refl (n : Nat) {γ : Type} (v : Vec γ) : Kept n v v :=
  ⟨rfl, rfl, rfl, rfl⟩

theorem Kept.of_modify {n : Nat} {γ : Type} {v w : Vec γ} {r : Reference} {f : γ → γ}
    (write : v.modify r f = some w) (hne : r.index ≠ n) : Kept n v w := by
  obtain ⟨-, hallocation, hcapacity, helements⟩ := Vec.modify_eq_some_iff.mp write
  exact ⟨hallocation, hcapacity, by rw [helements, List.length_modify],
    by rw [helements, List.getElem?_modify_ne _ _ hne]⟩

namespace Memory

variable {e : PthreadTaskExecutor α β}

/-- A write of a thread through its own references keeps everything safe. -/
theorem Safe.write {m m' : Memory α β} (h : m.Safe e) (hposition : m'.position = m.position)
    (hthreads : m'.threads.map Thread.references = m.threads.map Thread.references)
    (hstorages : Kept m.threads.length m.storages m'.storages)
    (hcounters : Kept m.threads.length m.counters m'.counters) (hne : m.threads ≠ []) :
    m'.Safe e := by
  have hlength : m'.threads.length = m.threads.length := by
    simpa using congrArg List.length hthreads
  obtain ⟨hlinked, h⟩ := h
  refine ⟨?_, ?_⟩
  · rw [hstorages.allocation, hcounters.allocation]
    exact hlinked.congr hthreads
  · simp only [Phase, Roomy, hposition, hlength, hstorages.capacity, hcounters.capacity,
      hstorages.length, hcounters.length, hstorages.fresh, hcounters.fresh]
    cases hcaller : m.position <;> simp only [Phase, hcaller] at h ⊢ <;> try exact h
    exact absurd h.1 hne

end Memory

namespace PthreadTaskExecutor

variable {e : PthreadTaskExecutor α β} {spare : Nat → Nat}

theorem safe_enter : (e.enter spare).Safe e := by
  unfold enter
  split
  · exact ⟨rfl, Nat.zero_le _, Nat.zero_le _⟩
  · exact ⟨rfl, Nat.zero_le _, Nat.zero_le _⟩
  · split
    · exact ⟨rfl, rfl, by simp [Vec.back, Vec.empty, Vec.pushBack], by simp [Vec.empty]⟩
    · exact ⟨rfl, ⟨Vec.capacity_reserve _, Vec.capacity_reserve _⟩, by simp [Vec.empty],
        by simp [Vec.empty]⟩

theorem safe_moves {m m' : Memory α β} (h : m.Safe e) (step : e.Moves spare m m') : m'.Safe e := by
  cases step with
  | @pushStorage rest storages counters threads out group more batch =>
      obtain ⟨hlinked, ⟨hstorages, hcounters⟩, hlength, hlength'⟩ := h
      simp only at hstorages hcounters hlength hlength'
      have room : storages.elements.length < storages.capacity := by omega
      obtain ⟨hallocation, hcapacity⟩ := Vec.pushBack_of_room spare [] room
      refine ⟨?_, ⟨?_, hcounters⟩, more, ?_, ?_, hlength'⟩
      · simpa [hallocation] using hlinked
      · simpa [hcapacity] using hstorages
      · simp [hlength]
      · simp [← hlength]
  | @pushCounter rest storages counters threads out =>
      obtain ⟨hlinked, ⟨hstorages, hcounters⟩, more, hlength, hlast, hlength'⟩ := h
      simp only at hstorages hcounters hlength hlength' more
      have room : counters.elements.length < counters.capacity := by omega
      obtain ⟨hallocation, hcapacity⟩ := Vec.pushBack_of_room spare 0 room
      refine ⟨?_, ⟨hstorages, ?_⟩, more, hlength, hlast, ?_, ?_⟩
      · simpa [hallocation] using hlinked
      · simpa [hcapacity] using hcounters
      · simp [hlength']
      · simp [← hlength']
  | @create rest storages counters threads out group task batch moved advance =>
      obtain ⟨hlinked, hroomy, more, hlength, -, hlength', -⟩ := h
      simp only at hlength hlength'
      refine ⟨?_, hroomy, by simp [hlength], by simp [hlength']⟩
      have hlinked' := hlinked.concat (task (rest.take group))
      simpa [Vec.back, hlength, hlength'] using hlinked'
  | created all => exact ⟨h.1, h.2.2.1, h.2.2.2⟩
  | @store position rest storages storages' counters before after out output todo storageRef
      counter write =>
      have hstorage : storageRef = ⟨storages.allocation, before.length⟩ := h.linked.middle.1
      apply h.write
      · rfl
      · simp [Thread.references]
      · apply Kept.of_modify write
        simp only [hstorage, List.length_append, List.length_cons]
        omega
      · exact Kept.refl _ _
      · simp
  | @count position rest storages counters counters' before after out todo storageRef counter
      write =>
      have hcounter : counter = ⟨counters.allocation, before.length⟩ := h.linked.middle.2
      apply h.write
      · rfl
      · simp [Thread.references]
      · exact Kept.refl _ _
      · apply Kept.of_modify write
        simp only [hcounter, List.length_append, List.length_cons]
        omega
      · simp
  | join found ended => exact ⟨h.linked, h.phase⟩
  | joined => exact ⟨h.linked, h.phase⟩
  | append reported => exact ⟨h.1, h.2.1.ge, h.2.2.ge⟩
  | runStore => exact ⟨h.linked, h.phase⟩
  | @runCount rest storages counters counters' threads out todo counter write =>
      obtain ⟨hlinked, hthreads, hcounter, hlength⟩ := h
      simp only at hthreads hcounter hlength
      obtain ⟨-, hallocation, -, helements⟩ := Vec.modify_eq_some_iff.mp write
      refine ⟨?_, hthreads, ?_, ?_⟩
      · simp [hthreads, Thread.Linked]
      · rw [hallocation]
        exact hcounter
      · rw [helements, List.length_modify]
        exact hlength
  | ran reported =>
      obtain ⟨hlinked, hthreads, -⟩ := h
      simp only at hthreads
      subst hthreads
      exact ⟨hlinked, Nat.zero_le _, Nat.zero_le _⟩

/-- Neither vector is moved to a new allocation. -/
theorem allocations_moves {m m' : Memory α β} (h : m.Safe e) (step : e.Moves spare m m') :
    (m'.storages.allocation, m'.counters.allocation) =
      (m.storages.allocation, m.counters.allocation) := by
  cases step with
  | @pushStorage rest storages counters threads out group more batch =>
      obtain ⟨⟨hstorages, -⟩, hlength, -⟩ := h.phase
      simp only at hstorages hlength
      have room : storages.elements.length < storages.capacity := by omega
      rw [(Vec.pushBack_of_room spare [] room).1]
  | @pushCounter rest storages counters threads out =>
      obtain ⟨⟨-, hcounters⟩, more, -, -, hlength⟩ := h.phase
      simp only at hcounters hlength more
      have room : counters.elements.length < counters.capacity := by omega
      rw [(Vec.pushBack_of_room spare 0 room).1]
  | store write => rw [(Vec.modify_eq_some_iff.mp write).2.1]
  | count write => rw [(Vec.modify_eq_some_iff.mp write).2.1]
  | runCount write => rw [(Vec.modify_eq_some_iff.mp write).2.1]
  | _ => rfl

end PthreadTaskExecutor

end MullXCTest.TaskExecutor
