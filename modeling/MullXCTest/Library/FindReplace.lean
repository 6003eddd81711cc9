import Mathlib.Data.List.Basic

/-!
# Replacing every occurrence in place

The loop that finds a key from a position on, replaces it in the text and goes on
behind the replacement. It ends whatever the replacement is, and leaves what one
pass from left to right writes that never looks at replaced text again.
-/

namespace FindReplace

variable {α : Type*} [DecidableEq α]

/-- The first position at which the key occurs. -/
def indexOf (key : List α) : List α → Option Nat
  | [] => if key = [] then some 0 else none
  | a :: rest =>
      if key.isPrefixOf (a :: rest) then some 0 else (indexOf key rest).map (· + 1)

/-- `std::string::find`, from a position on. -/
def find (key text : List α) (pos : Nat) : Option Nat :=
  (indexOf key (text.drop pos)).map (pos + ·)

theorem indexOf_le {key text : List α} {i : Nat} (h : indexOf key text = some i) :
    i + key.length ≤ text.length := by
  induction text generalizing i with
  | nil =>
      by_cases hkey : key = []
      · obtain rfl : 0 = i := by simpa [indexOf, hkey] using h
        simp [hkey]
      · simp [indexOf, hkey] at h
  | cons a rest ih =>
      by_cases hp : key.isPrefixOf (a :: rest)
      · obtain rfl : 0 = i := by simpa [indexOf, hp] using h
        simpa using (List.isPrefixOf_iff_prefix.mp hp).length_le
      · obtain ⟨j, hj, rfl⟩ : ∃ j, indexOf key rest = some j ∧ j + 1 = i := by
          simpa [indexOf, hp] using h
        have hle := ih hj
        simp only [List.length_cons]
        omega

theorem find_eq_some {key text : List α} {pos found : Nat} (h : find key text pos = some found) :
    ∃ i, indexOf key (text.drop pos) = some i ∧ found = pos + i := by
  obtain ⟨i, hi, rfl⟩ := Option.map_eq_some_iff.mp h
  exact ⟨i, hi, rfl⟩

theorem find_le {key text : List α} {pos found : Nat} (hkey : key ≠ [])
    (h : find key text pos = some found) : pos < text.length ∧ pos ≤ found ∧
      found + key.length ≤ text.length := by
  obtain ⟨i, hi, rfl⟩ := find_eq_some h
  have hle := indexOf_le hi
  have hpos : 0 < key.length := List.length_pos_iff.mpr hkey
  rw [List.length_drop] at hle
  omega

/-- The loop, from a position on: `text.replace(pos, key.length(), replacement)` and
`pos += replacement.length()` while the key is found. -/
def replaceFrom (key replacement : List α) (hkey : key ≠ []) (text : List α) (pos : Nat) :
    List α :=
  match _h : find key text pos with
  | none => text
  | some found =>
      replaceFrom key replacement hkey
        (text.take found ++ replacement ++ text.drop (found + key.length))
        (found + replacement.length)
termination_by text.length - pos
decreasing_by
  obtain ⟨hpos, hfound, hle⟩ := find_le hkey _h
  have hlength : 0 < key.length := List.length_pos_iff.mpr hkey
  simp only [List.length_append, List.length_take, List.length_drop]
  omega

/-- The loop from the start of a text. -/
def replaceAll (key replacement : List α) (hkey : key ≠ []) (text : List α) : List α :=
  replaceFrom key replacement hkey text 0

/-- One pass from the left. It drops the elements that still belong to the last occurrence, and
writes the replacement where the next one begins. -/
def substitute (key replacement : List α) : Nat → List α → List α
  | _, [] => []
  | skip + 1, _ :: rest => substitute key replacement skip rest
  | 0, a :: rest =>
      if key.isPrefixOf (a :: rest) then
        replacement ++ substitute key replacement (key.length - 1) rest
      else a :: substitute key replacement 0 rest

variable {key replacement : List α}

theorem substitute_skip (skip : Nat) (text : List α) :
    substitute key replacement skip text = substitute key replacement 0 (text.drop skip) := by
  induction text generalizing skip with
  | nil => cases skip <;> simp [substitute]
  | cons a rest ih =>
      cases skip with
      | zero => rfl
      | succ skip => exact ih skip

theorem substitute_of_indexOf_none {text : List α} (h : indexOf key text = none) :
    substitute key replacement 0 text = text := by
  induction text with
  | nil => rfl
  | cons a rest ih =>
      by_cases hp : key.isPrefixOf (a :: rest)
      · simp [indexOf, hp] at h
      · have hrest : indexOf key rest = none := by simpa [indexOf, hp] using h
        simp [substitute, hp, ih hrest]

theorem substitute_of_indexOf_some (hkey : key ≠ []) {text : List α} {i : Nat}
    (h : indexOf key text = some i) :
    substitute key replacement 0 text = text.take i ++ replacement ++
      substitute key replacement 0 (text.drop (i + key.length)) := by
  induction text generalizing i with
  | nil => simp [indexOf, hkey] at h
  | cons a rest ih =>
      by_cases hp : key.isPrefixOf (a :: rest)
      · obtain rfl : 0 = i := by simpa [indexOf, hp] using h
        obtain ⟨b, tail, rfl⟩ := List.exists_cons_of_ne_nil hkey
        rw [substitute, if_pos hp, substitute_skip]
        simp
      · obtain ⟨j, hj, rfl⟩ : ∃ j, indexOf key rest = some j ∧ j + 1 = i := by
          simpa [indexOf, hp] using h
        simp [substitute, hp, ih hj, Nat.add_right_comm j 1]

theorem replaceFrom_of_none (hkey : key ≠ []) {text : List α} {pos : Nat}
    (h : find key text pos = none) : replaceFrom key replacement hkey text pos = text := by
  rw [replaceFrom]
  split <;> simp_all

theorem replaceFrom_of_some (hkey : key ≠ []) {text : List α} {pos found : Nat}
    (h : find key text pos = some found) :
    replaceFrom key replacement hkey text pos =
      replaceFrom key replacement hkey
        (text.take found ++ replacement ++ text.drop (found + key.length))
        (found + replacement.length) := by
  rw [replaceFrom]
  split <;> simp_all

theorem replaceFrom_eq (hkey : key ≠ []) (text : List α) (pos : Nat) :
    replaceFrom key replacement hkey text pos =
      text.take pos ++ substitute key replacement 0 (text.drop pos) := by
  induction text, pos using replaceFrom.induct key replacement hkey with
  | case1 text pos h =>
      have hnone : indexOf key (text.drop pos) = none := by simpa [find] using h
      rw [replaceFrom_of_none hkey h, substitute_of_indexOf_none hnone, List.take_append_drop]
  | case2 text pos found h ih =>
      rw [replaceFrom_of_some hkey h, ih]
      obtain ⟨-, -, hle⟩ := find_le hkey h
      obtain ⟨i, hi, rfl⟩ := find_eq_some h
      have htake : (text.take (pos + i)).length = pos + i := by
        rw [List.length_take]
        omega
      have hskip : (text.take (pos + i) ++ replacement).length = pos + i + replacement.length := by
        rw [List.length_append, htake]
      rw [substitute_of_indexOf_some hkey hi, ← hskip, List.take_left, List.drop_left,
        List.take_add, List.drop_drop, Nat.add_assoc]
      simp only [List.append_assoc]

/-- The loop is one substitution from left to right. -/
theorem replaceAll_eq_substitute (hkey : key ≠ []) (text : List α) :
    replaceAll key replacement hkey text = substitute key replacement 0 text :=
  replaceFrom_eq hkey text 0

/-- A key of one element is replaced wherever that element stands. -/
theorem replaceAll_singleton (a : α) (text : List α) :
    replaceAll [a] replacement (List.cons_ne_nil a []) text =
      text.flatMap fun b => if b = a then replacement else [b] := by
  rw [replaceAll_eq_substitute]
  induction text with
  | nil => rfl
  | cons b rest ih =>
      by_cases hb : b = a
      · simp [substitute, List.isPrefixOf, hb, ih]
      · simp [substitute, List.isPrefixOf, hb, Ne.symm hb, ih]

end FindReplace
