import MullXCTest.Library.Transition

/-!
# Interleavings of independent agents

Agents take turns on a common state. Where each of them sees and changes only its
own view of it, every agent runs in an interleaving as it would run alone, so
the views at the end do not depend on the order of the turns. An agent may also
crash, which leaves a state in which no agent goes on.
-/

namespace Interleaving

open Relation Transition

variable {ι σ ν ε : Type*}

/-- Some agent takes its turn. -/
def Turn (step : ι → σ → Option σ) (s t : σ) : Prop :=
  ∃ i, step i s = some t

/-- The steps of one agent alone. -/
def Alone (next : ι → ν → Except ε (Option ν)) (i : ι) (v w : ν) : Prop :=
  next i v = .ok (some w)

/-- In good states every agent goes on as it would by its own view, and no step changes the view
of another agent. A crash leads out of the good states and stops all agents. -/
structure Independent (Good : σ → Prop) (step : ι → σ → Option σ) (view : ι → σ → ν)
    (next : ι → ν → Except ε (Option ν)) : Prop where
  ended : ∀ {i s}, Good s → next i (view i s) = .ok none → step i s = none
  moves : ∀ {i s v}, Good s → next i (view i s) = .ok (some v) →
    ∃ t, step i s = some t ∧ Good t ∧ view i t = v ∧ ∀ j, j ≠ i → view j t = view j s
  crashes : ∀ {i s failure}, Good s → next i (view i s) = .error failure →
    ∃ t, step i s = some t ∧ ¬ Good t ∧ ∀ j, step j t = none

section Alone

variable {next : ι → ν → Except ε (Option ν)} {i : ι} {v w u : ν}

theorem alone_rightUnique : Relator.RightUnique (Alone next i) := by
  intro v w w' h h'
  exact Option.some.inj (Except.ok.inj (h.symm.trans h'))

theorem final_of_ended (h : next i v = .ok none) : Final (Alone next i) v := by
  intro w hstep
  cases h.symm.trans hstep

theorem final_of_crash {failure : ε} (h : next i v = .error failure) :
    Final (Alone next i) v := by
  intro w hstep
  cases h.symm.trans hstep

/-- Alone, an agent has one way to go, so what it has come to is on the way to its end. -/
theorem alone_continues (run : ReflTransGen (Alone next i) v w) (hfinal : Final (Alone next i) w)
    (run' : ReflTransGen (Alone next i) v u) : ReflTransGen (Alone next i) u w := by
  rcases run.total_of_right_unique alone_rightUnique run' with h | h
  · rw [(reflTransGen_iff_eq hfinal).mp h]
  · exact h

theorem end_unique (run : ReflTransGen (Alone next i) v w) (hfinal : Final (Alone next i) w)
    (run' : ReflTransGen (Alone next i) v u) (hfinal' : Final (Alone next i) u) : w = u :=
  (reflTransGen_iff_eq hfinal').mp (alone_continues run hfinal run')

end Alone

namespace Independent

variable {Good : σ → Prop} {step : ι → σ → Option σ} {view : ι → σ → ν}
  {next : ι → ν → Except ε (Option ν)} {s s' t t' : σ} {i : ι}

/-- A turn is a step of one agent alone, or its crash. -/
theorem turn_cases (independent : Independent Good step view next) (good : Good s)
    (hstep : step i s = some t) :
    (Good t ∧ Alone next i (view i s) (view i t) ∧ ∀ j, j ≠ i → view j t = view j s) ∨
      (¬ Good t ∧ (∃ failure, next i (view i s) = .error failure) ∧ ∀ j, step j t = none) := by
  cases hnext : next i (view i s) with
  | error failure =>
      obtain ⟨t', hstep', hbad, hstopped⟩ := independent.crashes good hnext
      obtain rfl := Option.some.inj (hstep.symm.trans hstep')
      exact .inr ⟨hbad, ⟨failure, rfl⟩, hstopped⟩
  | ok moved =>
      cases moved with
      | none =>
          rw [independent.ended good hnext] at hstep
          cases hstep
      | some v =>
          obtain ⟨t', hstep', hgood, rfl, hother⟩ := independent.moves good hnext
          obtain rfl := Option.some.inj (hstep.symm.trans hstep')
          exact .inl ⟨hgood, hnext, hother⟩

/-- In an interleaving every agent makes its own steps in order, until one of them crashes. -/
theorem reachable_cases (independent : Independent Good step view next) (good : Good s)
    (run : ReflTransGen (Turn step) s t) :
    (Good t ∧ ∀ i, ReflTransGen (Alone next i) (view i s) (view i t)) ∨
      (¬ Good t ∧ Final (Turn step) t ∧ ∃ i v failure,
        ReflTransGen (Alone next i) (view i s) v ∧ next i v = .error failure) := by
  induction run with
  | refl => exact .inl ⟨good, fun _ => .refl⟩
  | @tail t u _ hturn ih =>
      obtain ⟨j, hstep⟩ := hturn
      rcases ih with ⟨hgood, halone⟩ | ⟨-, hfinal, -⟩
      · rcases independent.turn_cases hgood hstep with
          ⟨hgood', hown, hother⟩ | ⟨hbad, ⟨failure, hcrash⟩, hstopped⟩
        · refine .inl ⟨hgood', fun i => ?_⟩
          by_cases hij : i = j
          · subst hij
            exact (halone i).tail hown
          · rw [hother i hij]
            exact halone i
        · refine .inr ⟨hbad, ?_, j, _, failure, halone j, hcrash⟩
          rintro u' ⟨i, hstep'⟩
          cases (hstopped i).symm.trans hstep'
      · exact absurd ⟨j, hstep⟩ (hfinal u)

/-- In an interleaving without a crash every agent makes its own steps in order. -/
theorem alone (independent : Independent Good step view next) (good : Good s)
    (run : ReflTransGen (Turn step) s t) (hgood : Good t) (i : ι) :
    ReflTransGen (Alone next i) (view i s) (view i t) := by
  rcases independent.reachable_cases good run with ⟨-, halone⟩ | ⟨hbad, -⟩
  · exact halone i
  · exact absurd hgood hbad

/-- Where no agent can take a turn, each of them has come to its end. -/
theorem ended_of_final (independent : Independent Good step view next) (hgood : Good t)
    (hfinal : Final (Turn step) t) (i : ι) : next i (view i t) = .ok none := by
  cases hnext : next i (view i t) with
  | error failure =>
      obtain ⟨u, hstep, -⟩ := independent.crashes hgood hnext
      exact absurd ⟨i, hstep⟩ (hfinal u)
  | ok moved =>
      cases moved with
      | none => rfl
      | some v =>
          obtain ⟨u, hstep, -⟩ := independent.moves hgood hnext
          exact absurd ⟨i, hstep⟩ (hfinal u)

/-- What an agent can do alone it can do while the others wait. -/
theorem lift (independent : Independent Good step view next) {v w : ν}
    (solo : ReflTransGen (Alone next i) v w) (good : Good s) (hview : view i s = v) :
    ∃ t, ReflTransGen (Turn step) s t ∧ Good t ∧ view i t = w := by
  induction solo using ReflTransGen.head_induction_on generalizing s with
  | refl => exact ⟨s, .refl, good, hview⟩
  | head hstep _ ih =>
      subst hview
      obtain ⟨t, hturn, hgood, hview, -⟩ := independent.moves good hstep
      obtain ⟨u, hrun, hgood', hview'⟩ := ih hgood hview
      exact ⟨u, .head ⟨i, hturn⟩ hrun, hgood', hview'⟩

/-- Where every agent comes to its end alone, no interleaving has a crash. -/
theorem good_of_ends (independent : Independent Good step view next) (good : Good s)
    (ends : ∀ i, ∃ v, ReflTransGen (Alone next i) (view i s) v ∧ next i v = .ok none)
    (run : ReflTransGen (Turn step) s t) : Good t := by
  rcases independent.reachable_cases good run with ⟨hgood, -⟩ | ⟨-, -, i, w, failure, hw, hcrash⟩
  · exact hgood
  · obtain ⟨v, hv, hend⟩ := ends i
    obtain rfl := end_unique hv (final_of_ended hend) hw (final_of_crash hcrash)
    cases hend.symm.trans hcrash

/-- At the end of every interleaving each agent sees what it sees when it runs alone. -/
theorem view_eq (independent : Independent Good step view next) (good : Good s)
    (run : ReflTransGen (Turn step) s t) (hgood : Good t) (hfinal : Final (Turn step) t) {v : ν}
    (solo : ReflTransGen (Alone next i) (view i s) v) (hend : next i v = .ok none) :
    view i t = v :=
  end_unique (independent.alone good run hgood i)
    (final_of_ended (independent.ended_of_final hgood hfinal i)) solo (final_of_ended hend)

/-- Two states from which every agent comes to a common view. -/
def Joined (view : ι → σ → ν) (next : ι → ν → Except ε (Option ν)) (s s' : σ) : Prop :=
  ∀ i, ∃ u, ReflTransGen (Alone next i) (view i s) u ∧ ReflTransGen (Alone next i) (view i s') u

theorem Joined.refl (s : σ) : Joined view next s s :=
  fun _ => ⟨_, .refl, .refl⟩

theorem Joined.symm (joined : Joined view next s s') : Joined view next s' s := by
  intro i
  obtain ⟨u, hu, hu'⟩ := joined i
  exact ⟨u, hu', hu⟩

/-- Where one interleaving comes to its end without a crash, no interleaving has one. -/
theorem good_of_joined (independent : Independent Good step view next) (good : Good s)
    (good' : Good s') (joined : Joined view next s s') (run : ReflTransGen (Turn step) s t)
    (hgood : Good t) (hfinal : Final (Turn step) t) (run' : ReflTransGen (Turn step) s' t') :
    Good t' := by
  apply independent.good_of_ends good' _ run'
  intro i
  have hend := independent.ended_of_final hgood hfinal i
  obtain ⟨u, hu, hu'⟩ := joined i
  exact ⟨view i t, hu'.trans (alone_continues (independent.alone good run hgood i)
    (final_of_ended hend) hu), hend⟩

/-- Two interleavings that both came to an end leave every agent with the same view. -/
theorem views_agree (independent : Independent Good step view next) (good : Good s)
    (good' : Good s') (joined : Joined view next s s') (run : ReflTransGen (Turn step) s t)
    (hgood : Good t) (hfinal : Final (Turn step) t) (run' : ReflTransGen (Turn step) s' t')
    (hgood' : Good t') (hfinal' : Final (Turn step) t') (i : ι) : view i t = view i t' := by
  obtain ⟨u, hu, hu'⟩ := joined i
  have hend := final_of_ended (independent.ended_of_final hgood hfinal i)
  have hend' := final_of_ended (independent.ended_of_final hgood' hfinal' i)
  exact end_unique (alone_continues (independent.alone good run hgood i) hend hu) hend
    (alone_continues (independent.alone good' run' hgood' i) hend' hu') hend'

end Independent

end Interleaving
