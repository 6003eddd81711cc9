import MullXCTest.Library.FindReplace
import MullXCTest.Library.Transition

/-!
# The gaps between the occurrences of a key

The leftmost occurrences of a key that do not overlap cut a text into gaps, in one way
only. The loop that replaces in place is a run of single replacements. Every run ends,
and what it leaves is the gaps with the replacement between them.
-/

namespace FindReplace

open Relation

variable {α : Type*} [DecidableEq α] {key replacement : List α}

section Search

/-- A search fails where the key is no part of the text. -/
theorem indexOf_eq_none_iff {text : List α} : indexOf key text = none ↔ ¬ key <:+: text := by
  induction text with
  | nil => simp [indexOf]
  | cons a rest ih =>
      rw [List.infix_cons_iff, indexOf]
      by_cases hp : key.isPrefixOf (a :: rest)
      · simp [hp, List.isPrefixOf_iff_prefix.mp hp]
      · have hstarts : ¬ key <+: a :: rest := fun h => hp (List.isPrefixOf_iff_prefix.mpr h)
        simp [hp, hstarts, ih]

/-- A search finds the leftmost occurrence. -/
theorem indexOf_eq_some_iff {text : List α} {i : Nat} :
    indexOf key text = some i ↔
      key <+: text.drop i ∧ ∀ j < i, ¬ key <+: text.drop j := by
  induction text generalizing i with
  | nil =>
      cases i with
      | zero => simp [indexOf]
      | succ i =>
          have hfirst : key <+: [] → ¬ ∀ j < i + 1, ¬ key <+: ([] : List α).drop j :=
            fun h hall => hall 0 (Nat.succ_pos i) h
          simp only [indexOf, List.drop_nil] at hfirst ⊢
          constructor
          · intro h
            split at h <;> simp at h
          · rintro ⟨h, hall⟩
            exact absurd hall (hfirst h)
  | cons a rest ih =>
      by_cases hp : key.isPrefixOf (a :: rest)
      · have hstarts := List.isPrefixOf_iff_prefix.mp hp
        rw [indexOf, if_pos hp, Option.some_inj]
        constructor
        · rintro rfl
          exact ⟨hstarts, by simp⟩
        · rintro ⟨-, hall⟩
          by_contra hne
          exact hall 0 (by omega) hstarts
      · have hstarts : ¬ key <+: a :: rest := fun h => hp (List.isPrefixOf_iff_prefix.mpr h)
        rw [indexOf, if_neg hp]
        cases i with
        | zero => simpa using hstarts
        | succ i =>
            have hmap : (indexOf key rest).map (· + 1) = some (i + 1) ↔
                indexOf key rest = some i := by simp
            rw [hmap, ih, List.drop_succ_cons]
            apply and_congr_right
            intro _
            constructor
            · intro hall j hj
              cases j with
              | zero => exact hstarts
              | succ j => exact hall j (by omega)
            · intro hall j hj
              exact hall (j + 1) (by omega)

end Search

section Cut

/-- The gaps that the leftmost occurrences of the key leave in a text, from the left. -/
inductive Gaps (key : List α) : List α → List (List α) → Prop
  | last {gap : List α} (none_in_gap : ¬ key <:+: gap) : Gaps key gap [gap]
  | occurrence {gap rest : List α} {gaps : List (List α)}
      (none_before : ∀ j < gap.length, ¬ key <+: (gap ++ key ++ rest).drop j)
      (tail : Gaps key rest gaps) : Gaps key (gap ++ key ++ rest) (gap :: gaps)

variable {text : List α} {gaps : List (List α)}

omit [DecidableEq α] in
theorem Gaps.ne_nil (h : Gaps key text gaps) : gaps ≠ [] := by
  cases h <;> exact List.cons_ne_nil _ _

omit [DecidableEq α] in
/-- The gaps and the key between them are the text. -/
theorem Gaps.intercalate (h : Gaps key text gaps) : key.intercalate gaps = text := by
  induction h with
  | last _ => exact List.intercalate_singleton
  | occurrence _ tail ih => rw [List.intercalate_cons_of_ne_nil tail.ne_nil, ih]

theorem indexOf_occurrence {gap rest : List α}
    (h : ∀ j < gap.length, ¬ key <+: (gap ++ key ++ rest).drop j) :
    indexOf key (gap ++ key ++ rest) = some gap.length := by
  rw [indexOf_eq_some_iff]
  refine ⟨?_, h⟩
  rw [List.append_assoc, List.drop_left]
  exact List.prefix_append key rest

/-- The pass from the left puts the replacement between the gaps. -/
theorem Gaps.substitute (hkey : key ≠ []) (h : Gaps key text gaps) :
    substitute key replacement 0 text = replacement.intercalate gaps := by
  induction h with
  | last hnone =>
      rw [substitute_of_indexOf_none (indexOf_eq_none_iff.mpr hnone),
        List.intercalate_singleton]
  | @occurrence gap rest gaps hfirst tail ih =>
      have hskip : gap.length + key.length = (gap ++ key).length := by simp
      have htake : (gap ++ key ++ rest).take gap.length = gap := by
        rw [List.append_assoc, List.take_left]
      have hdrop : (gap ++ key ++ rest).drop (gap.length + key.length) = rest := by
        rw [hskip, List.drop_left]
      rw [substitute_of_indexOf_some hkey (indexOf_occurrence hfirst), htake, hdrop, ih,
        List.intercalate_cons_of_ne_nil tail.ne_nil]

theorem exists_gaps (hkey : key ≠ []) (text : List α) : ∃ gaps, Gaps key text gaps := by
  induction hlen : text.length using Nat.strong_induction_on generalizing text with
  | _ n ih =>
      cases hfind : indexOf key text with
      | none => exact ⟨[text], .last (indexOf_eq_none_iff.mp hfind)⟩
      | some i =>
          obtain ⟨⟨rest, hrest⟩, hfirst⟩ := indexOf_eq_some_iff.mp hfind
          have hle := indexOf_le hfind
          have hpos : 0 < key.length := List.length_pos_iff.mpr hkey
          have htext : text.take i ++ key ++ rest = text := by
            rw [List.append_assoc, hrest, List.take_append_drop]
          have hgap : (text.take i).length = i := by simp; omega
          have hshort : rest.length < n := by
            have := congrArg List.length htext
            simp only [List.length_append] at this
            omega
          obtain ⟨gaps, htail⟩ := ih _ hshort rest rfl
          refine ⟨text.take i :: gaps, ?_⟩
          have hcut : Gaps key (text.take i ++ key ++ rest) (text.take i :: gaps) := by
            apply Gaps.occurrence _ htail
            rw [htext, hgap]
            exact hfirst
          rwa [htext] at hcut

/-- No other gaps are possible. -/
theorem Gaps.unique (h : Gaps key text gaps) :
    ∀ {gaps' : List (List α)}, Gaps key text gaps' → gaps' = gaps := by
  induction h with
  | last hnone =>
      intro gaps' h'
      cases h' with
      | last _ => rfl
      | @occurrence gap rest _ _ _ => exact absurd ⟨gap, rest, rfl⟩ hnone
  | @occurrence gap rest gaps hfirst tail ih =>
      intro gaps' h'
      generalize htext : gap ++ key ++ rest = text' at h'
      cases h' with
      | last hnone => exact absurd ⟨gap, rest, htext⟩ hnone
      | @occurrence gap' rest' tail' hfirst' htail' =>
          have hlength : gap.length = gap'.length := by
            apply Option.some_inj.mp
            rw [← indexOf_occurrence hfirst, ← indexOf_occurrence hfirst', htext]
          rw [List.append_assoc, List.append_assoc] at htext
          obtain ⟨rfl, hrest⟩ := List.append_inj htext hlength
          rw [List.append_cancel_left hrest] at ih
          rw [ih htail']

end Cut

section Run

/-- One turn of the loop, on the text and the position of the next search. -/
inductive Step (key replacement : List α) : List α × Nat → List α × Nat → Prop
  | replace {text : List α} {pos found : Nat} (h : find key text pos = some found) :
      Step key replacement (text, pos)
        (text.take found ++ replacement ++ text.drop (found + key.length),
          found + replacement.length)

/-- The length of the text that is still to be searched. -/
def remaining (s : List α × Nat) : Nat := s.1.length - s.2

variable {s t : List α × Nat}

/-- Every turn leaves less text behind the position, also where the text grows. -/
theorem Step.remaining_lt (hkey : key ≠ []) (h : Step key replacement s t) :
    remaining t < remaining s := by
  cases h with
  | replace h =>
      obtain ⟨hpos, hfound, hle⟩ := find_le hkey h
      have hlength : 0 < key.length := List.length_pos_iff.mpr hkey
      simp only [remaining, List.length_append, List.length_take, List.length_drop]
      omega

/-- The loop cannot go on for ever. -/
theorem step_wellFounded (hkey : key ≠ []) :
    WellFounded fun t s => Step key replacement s t := by
  have lowers : ∀ s t, Step key replacement s t → remaining t < remaining s :=
    fun _ _ h => h.remaining_lt hkey
  exact Transition.terminates wellFounded_lt lowers

theorem Step.replaceFrom (hkey : key ≠ []) (h : Step key replacement s t) :
    replaceFrom key replacement hkey t.1 t.2 = replaceFrom key replacement hkey s.1 s.2 := by
  cases h with
  | replace h => exact (replaceFrom_of_some hkey h).symm

/-- Where no turn is possible, the loop has ended. -/
theorem replaceFrom_of_final (hkey : key ≠ [])
    (h : Transition.Final (Step key replacement) s) :
    FindReplace.replaceFrom key replacement hkey s.1 s.2 = s.1 := by
  obtain ⟨text, pos⟩ := s
  cases hfind : find key text pos with
  | none => exact replaceFrom_of_none hkey hfind
  | some found => exact absurd (.replace hfind) (h _)

/-- A run that has ended leaves the value of the loop. -/
theorem run_replaceFrom (hkey : key ≠ []) (run : ReflTransGen (Step key replacement) s t)
    (h : Transition.Final (Step key replacement) t) :
    t.1 = FindReplace.replaceFrom key replacement hkey s.1 s.2 := by
  rw [← replaceFrom_of_final hkey h]
  exact Transition.conserved run trivial (fun _ _ _ _ => trivial)
    fun _ _ _ hstep => hstep.replaceFrom hkey

/-- The loop on a text ends, and leaves the one substitution from left to right, in which no
replacement is searched again. -/
structure SubstitutesOnce (key replacement text result : List α) : Prop where
  ends : WellFounded fun t s => Step key replacement s t
  leaves : ∀ t, ReflTransGen (Step key replacement) (text, 0) t →
    Transition.Final (Step key replacement) t → t.1 = result
  unique_gaps : ∃! gaps, Gaps key text gaps
  result_eq : ∀ gaps, Gaps key text gaps → result = replacement.intercalate gaps

theorem replaceAll_substitutesOnce (hkey : key ≠ []) (text : List α) :
    SubstitutesOnce key replacement text (replaceAll key replacement hkey text) where
  ends := step_wellFounded hkey
  leaves := fun _ run h => run_replaceFrom hkey run h
  unique_gaps := by
    obtain ⟨gaps, hgaps⟩ := exists_gaps hkey text
    exact ⟨gaps, hgaps, fun _ h => hgaps.unique h⟩
  result_eq := by
    intro gaps h
    rw [replaceAll_eq_substitute, h.substitute hkey]

end Run

end FindReplace
