import Mathlib.Data.List.Basic

/-!
# Lists in which a marker takes the next element as its value

A scan from the left meets an element, and if it is a marker it also consumes
the element behind it, whatever that is. So the meaning of each element
depends on the parity of the run of markers right before it.
-/

namespace MarkerScan

variable {α β : Type*} (marker : α → Bool)

/-- Tags each element with whether the scan consumes it as the value of a marker. -/
def withValue (isValue : Bool) : List α → List (α × Bool)
  | [] => []
  | a :: rest => (a, isValue) :: withValue (marker a && !isValue) rest

/-- The scan ends on a marker that has no value. -/
def dangling : List α → Bool
  | [] => false
  | a :: rest =>
      if marker a then
        match rest with
        | [] => true
        | _ :: rest => dangling rest
      else dangling rest

variable {marker}

@[simp] theorem withValue_nil (isValue : Bool) : withValue marker isValue [] = [] := rfl

theorem withValue_cons {a : α} {rest : List α} (h : marker a = false) :
    withValue marker false (a :: rest) = (a, false) :: withValue marker false rest := by
  simp [withValue, h]

theorem withValue_marker {a value : α} {rest : List α} (h : marker a = true) :
    withValue marker false (a :: value :: rest) =
      (a, false) :: (value, true) :: withValue marker false rest := by
  simp [withValue, h]

@[simp] theorem withValue_map_fst (isValue : Bool) (l : List α) :
    (withValue marker isValue l).map Prod.fst = l := by
  induction l generalizing isValue with
  | nil => rfl
  | cons a rest ih => simp [withValue, ih]

theorem withValue_map (f : β → α) (isValue : Bool) (l : List β) :
    withValue marker isValue (l.map f) =
      (withValue (marker ∘ f) isValue l).map (Prod.map f id) := by
  induction l generalizing isValue with
  | nil => rfl
  | cons a rest ih => simp [withValue, ih]

@[simp] theorem dangling_nil : dangling marker [] = false := rfl

theorem dangling_cons {a : α} {rest : List α} (h : marker a = false) :
    dangling marker (a :: rest) = dangling marker rest := by
  cases rest <;> simp [dangling, h]

theorem dangling_single {a : α} (h : marker a = true) : dangling marker [a] = true := by
  simp [dangling, h]

theorem dangling_marker {a value : α} {rest : List α} (h : marker a = true) :
    dangling marker (a :: value :: rest) = dangling marker rest := by
  simp [dangling, h]

/-- The induction of such a scan: a marker goes together with its value. -/
theorem scan_induction (marker : α → Bool) {motive : List α → Prop} (nil : motive [])
    (single : ∀ a, marker a = true → motive [a])
    (pair : ∀ a value rest, marker a = true → motive rest → motive (a :: value :: rest))
    (cons : ∀ a rest, marker a = false → motive rest → motive (a :: rest))
    (l : List α) : motive l := by
  induction l using dangling.induct marker with
  | case1 => exact nil
  | case2 a ha => exact single a ha
  | case3 a ha value rest ih => exact pair a value rest ha ih
  | case4 a rest ha ih => exact cons a rest (by simpa using ha) ih

theorem dangling_map (f : β → α) (l : List β) :
    dangling marker (l.map f) = dangling (marker ∘ f) l := by
  induction l using scan_induction (marker ∘ f) with
  | nil => rfl
  | single a ha => rw [dangling_single ha]; exact dangling_single ha
  | pair a value rest ha ih => rw [dangling_marker ha, ← ih]; exact dangling_marker ha
  | cons a rest ha ih => rw [dangling_cons ha, ← ih]; exact dangling_cons ha

/-- A scan dangles only on the last element. -/
theorem getLast?_of_dangling {l : List α} (h : dangling marker l = true) :
    ∃ a, l.getLast? = some a ∧ marker a = true := by
  induction l using scan_induction marker with
  | nil => simp at h
  | single a ha => exact ⟨a, rfl, ha⟩
  | pair a value rest ha ih =>
      obtain ⟨last, hlast, hm⟩ := ih (dangling_marker ha ▸ h)
      exact ⟨last, by simp [List.getLast?_cons, hlast], hm⟩
  | cons a rest ha ih =>
      obtain ⟨last, hlast, hm⟩ := ih (dangling_cons ha ▸ h)
      exact ⟨last, by simp [List.getLast?_cons, hlast], hm⟩

end MarkerScan
