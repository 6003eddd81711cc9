import Mathlib.Logic.Relation
import Mathlib.Order.WellFounded

/-!
# Runs of a step relation

The rules by which a result about single steps becomes one about whole runs:
invariants, quantities that no step changes, and ranks that every step lowers.
-/

namespace Transition

open Relation

variable {σ γ : Type*} {Step : σ → σ → Prop} {Inv : σ → Prop}

/-- A property that every step keeps holds in every state reached from one that has it. -/
theorem invariant (Inv : σ → Prop) {s t : σ} (run : ReflTransGen Step s t) (hs : Inv s)
    (keeps : ∀ s t, Inv s → Step s t → Inv t) : Inv t := by
  induction run with
  | refl => exact hs
  | tail _ hstep ih => exact keeps _ _ ih hstep

/-- A quantity that no step changes where the invariant holds is the same along a run. -/
theorem conserved {quantity : σ → γ} {s t : σ} (run : ReflTransGen Step s t) (hs : Inv s)
    (keeps : ∀ s t, Inv s → Step s t → Inv t)
    (same : ∀ s t, Inv s → Step s t → quantity t = quantity s) : quantity t = quantity s := by
  induction run with
  | refl => rfl
  | tail hrun hstep ih =>
      rw [same _ _ (invariant Inv hrun hs keeps) hstep]
      exact ih

/-- If every step lowers a rank in a well-founded order, no run goes on for ever. -/
theorem terminates {rank : σ → γ} {lt : γ → γ → Prop} (wf : WellFounded lt)
    (lowers : ∀ s t, Step s t → lt (rank t) (rank s)) :
    WellFounded fun t s => Step s t :=
  Subrelation.wf (lowers _ _) (InvImage.wf rank wf)

/-- A state from which no step is possible. -/
def Final (Step : σ → σ → Prop) (s : σ) : Prop :=
  ∀ t, ¬ Step s t

/-- A state from which no run goes on for ever leads to a final one. -/
theorem exists_final_of_acc {s : σ} (h : Acc (fun t s => Step s t) s) :
    ∃ t, ReflTransGen Step s t ∧ Final Step t := by
  induction h with
  | intro s _ ih =>
      by_cases hfinal : Final Step s
      · exact ⟨s, .refl, hfinal⟩
      · simp only [Final, not_forall, not_not] at hfinal
        obtain ⟨t, hstep⟩ := hfinal
        obtain ⟨u, hrun, hu⟩ := ih t hstep
        exact ⟨u, .head hstep hrun, hu⟩

/-- Where every run ends, some final state is reached. -/
theorem exists_final (wf : WellFounded fun t s => Step s t) (s : σ) :
    ∃ t, ReflTransGen Step s t ∧ Final Step t :=
  exists_final_of_acc (wf.apply s)

end Transition
