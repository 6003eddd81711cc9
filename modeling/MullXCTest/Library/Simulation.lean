import MullXCTest.Library.Transition

/-!
# Stuttering simulations

A detailed step relation seen through a function that forgets the details. Where
every detailed step is a step of the coarse relation or invisible, and every
coarse step is some detailed steps, both reach the same coarse states.
-/

namespace Simulation

open Relation Transition

variable {σ τ : Type*}

/-- `Step` and `Coarse` have the same behaviour through `view`, as long as `Inv` holds. Only so
many invisible steps follow on each other as `stage` says. -/
structure Stutters (Step : σ → σ → Prop) (Coarse : τ → τ → Prop) (Inv : σ → Prop) (view : σ → τ)
    (stage : σ → Nat) : Prop where
  keeps : ∀ s t, Inv s → Step s t → Inv t
  forth : ∀ s t, Inv s → Step s t →
    view t = view s ∧ stage t < stage s ∨ Coarse (view s) (view t)
  back : ∀ s u, Inv s → Coarse (view s) u → ∃ t, ReflTransGen Step s t ∧ view t = u

namespace Stutters

variable {Step : σ → σ → Prop} {Coarse : τ → τ → Prop} {Inv : σ → Prop} {view : σ → τ}
  {stage : σ → Nat}

/-- A detailed run is a coarse run. -/
theorem forth_run (sim : Stutters Step Coarse Inv view stage) {s t : σ} (hs : Inv s)
    (run : ReflTransGen Step s t) : ReflTransGen Coarse (view s) (view t) := by
  induction run with
  | refl => exact .refl
  | @tail t u hrun hstep ih =>
      have ht : Inv t := invariant Inv hrun hs sim.keeps
      rcases sim.forth t u ht hstep with ⟨hsame, -⟩ | hcoarse
      · rwa [hsame]
      · exact ih.tail hcoarse

/-- A coarse run is what is seen of a detailed one. -/
theorem back_run (sim : Stutters Step Coarse Inv view stage) {s : σ} {u : τ} (hs : Inv s)
    (run : ReflTransGen Coarse (view s) u) : ∃ t, ReflTransGen Step s t ∧ view t = u := by
  induction run with
  | refl => exact ⟨s, .refl, rfl⟩
  | @tail u w _ hstep ih =>
      obtain ⟨t, hrun, rfl⟩ := ih
      have ht : Inv t := invariant Inv hrun hs sim.keeps
      obtain ⟨t', hrun', hview⟩ := sim.back t w ht hstep
      exact ⟨t', hrun.trans hrun', hview⟩

theorem reaches_iff (sim : Stutters Step Coarse Inv view stage) {s : σ} (hs : Inv s) (u : τ) :
    ReflTransGen Coarse (view s) u ↔ ∃ t, ReflTransGen Step s t ∧ view t = u := by
  constructor
  · exact sim.back_run hs
  · rintro ⟨t, hrun, rfl⟩
    exact sim.forth_run hs hrun

/-- Where no coarse run goes on for ever, no detailed one does. -/
theorem terminates (sim : Stutters Step Coarse Inv view stage)
    (wf : WellFounded fun u t => Coarse t u) {s : σ} (hs : Inv s) :
    Acc (fun t s => Step s t) s := by
  obtain ⟨u, hu⟩ : ∃ u, view s = u := ⟨_, rfl⟩
  induction u using wf.induction generalizing s with
  | _ u ih =>
      obtain ⟨n, hn⟩ : ∃ n, stage s = n := ⟨_, rfl⟩
      induction n using Nat.strongRecOn generalizing s with
      | _ n ihn =>
          refine ⟨s, fun t hstep => ?_⟩
          have ht : Inv t := sim.keeps s t hs hstep
          rcases sim.forth s t hs hstep with ⟨hsame, hlt⟩ | hcoarse
          · exact ihn (stage t) (hn ▸ hlt) ht (hsame.trans hu) rfl
          · exact ih (view t) (hu ▸ hcoarse) ht rfl

/-- Where the detailed system is stuck, so is the coarse one. -/
theorem final_view (sim : Stutters Step Coarse Inv view stage)
    (wf : WellFounded fun u t => Coarse t u) {s : σ} (hs : Inv s) (hfinal : Final Step s) :
    Final Coarse (view s) := by
  intro u hcoarse
  obtain ⟨t, hrun, rfl⟩ := sim.back s u hs hcoarse
  rcases hrun.cases_head with rfl | ⟨t', hstep, -⟩
  · exact wf.irrefl.irrefl (view s) hcoarse
  · exact hfinal t' hstep

end Stutters

end Simulation
