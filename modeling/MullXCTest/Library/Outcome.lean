import Mathlib.Data.List.Basic

/-!
# Computations that may fail

A computation that comes to an end has come through each of its parts, and a traversal that
comes to an end has come to an end for every item.
-/

namespace Outcome

universe u

variable {ε : Type*} {α β : Type u}

theorem bind_eq_ok {x : Except ε α} {f : α → Except ε β} {b : β} :
    (x >>= f) = .ok b ↔ ∃ a, x = .ok a ∧ f a = .ok b := by
  constructor
  · intro h
    cases x with
    | error failure => cases h
    | ok a => exact ⟨a, rfl, h⟩
  · rintro ⟨a, rfl, h⟩
    exact h

theorem bind_eq_error {x : Except ε α} {f : α → Except ε β} {failure : ε} :
    (x >>= f) = .error failure ↔
      x = .error failure ∨ ∃ a, x = .ok a ∧ f a = .error failure := by
  cases x with
  | error failure' => simp [bind, Except.bind]
  | ok a => simp [bind, Except.bind]

/-- Written items are read back exactly when each of them is. -/
theorem mapM_eq_ok_iff {parse : α → Except ε β} {f : β → α} {items : List β} :
    (items.map f).mapM parse = .ok items ↔ ∀ item ∈ items, parse (f item) = .ok item := by
  induction items with
  | nil => simp [pure, Except.pure]
  | cons item rest ih =>
      rw [List.map_cons, List.mapM_cons, List.forall_mem_cons, ← ih]
      constructor
      · intro h
        obtain ⟨first, hfirst, h⟩ := bind_eq_ok.mp h
        obtain ⟨others, hothers, h⟩ := bind_eq_ok.mp h
        obtain ⟨rfl, rfl⟩ := List.cons.inj (Except.ok.inj h)
        exact ⟨hfirst, hothers⟩
      · rintro ⟨hfirst, hothers⟩
        apply bind_eq_ok.mpr
        refine ⟨_, hfirst, ?_⟩
        apply bind_eq_ok.mpr
        exact ⟨_, hothers, rfl⟩

end Outcome
