import MullXCTest.Invocation.Execution
import MullXCTest.Library.PathWalk

/-!
# Appended components

What `llvm::sys::path::append` does to a path that is not empty: a name stands behind one
separator, its components are added, and an absolute path stays absolute.
-/

namespace MullXCTest.Invocation

open PathWalk

variable {path : String}

/-- An appended component stands behind a separator, and the path stays what it is. -/
theorem pathAppend_eq (h : path ≠ "") (component : String) :
    ∃ dir, (pathAppend path component).toList =
        dir ++ '/' :: component.toList.dropWhile (· = '/') ∧
      components '/' dir = components '/' path.toList ∧
      ∀ rest, IsAbsolute '/' (dir ++ '/' :: rest) ↔ IsAbsolute '/' path.toList := by
  have hne : path.toList ≠ [] := by simpa using h
  obtain ⟨c, tail, hpath⟩ := List.exists_cons_of_ne_nil hne
  unfold pathAppend
  split_ifs with hlast hplain
  · obtain ⟨dir, hdir⟩ := List.getLast?_eq_some_iff.mp hlast
    refine ⟨dir, by simp [hdir], by simp [hdir], ?_⟩
    intro rest
    rw [hdir]
    cases dir <;> simp [IsAbsolute]
  · obtain ⟨m, hcomponent⟩ := exists_separators (hplain.resolve_left h)
    refine ⟨path.toList ++ List.replicate m '/', ?_, by simp, ?_⟩
    · conv_lhs => rw [String.toList_append, hcomponent]
      simp
    · intro rest
      rw [hpath]
      rfl
  · refine ⟨path.toList, ?_, rfl, ?_⟩
    · have hcomponent : component.toList.dropWhile (· = '/') = component.toList := by
        cases hcomponent : component.toList with
        | nil => rfl
        | cons d rest =>
            have hd : d ≠ '/' := by
              rintro rfl
              exact hplain (.inr (by rw [hcomponent]; rfl))
            exact List.dropWhile_cons_of_neg (by simpa using hd)
      simp [hcomponent]
    · intro rest
      rw [hpath]
      rfl

theorem components_pathAppend (h : path ≠ "") (component : String) :
    components '/' (pathAppend path component).toList =
      components '/' path.toList ++ components '/' component.toList := by
  obtain ⟨dir, happend, hdir, -⟩ := pathAppend_eq h component
  rw [happend, components_append_cons, hdir, components_dropWhile]

theorem isAbsolute_pathAppend (h : path ≠ "") (component : String) :
    IsAbsolute '/' (pathAppend path component).toList ↔ IsAbsolute '/' path.toList := by
  obtain ⟨dir, happend, -, habs⟩ := pathAppend_eq h component
  rw [happend]
  exact habs _

theorem pathAppend_ne_empty (h : path ≠ "") (component : String) :
    pathAppend path component ≠ "" := by
  obtain ⟨dir, happend, -, -⟩ := pathAppend_eq h component
  intro hempty
  rw [hempty] at happend
  simp at happend

end MullXCTest.Invocation
