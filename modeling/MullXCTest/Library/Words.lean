import Mathlib.Data.List.TakeWhile

/-!
# The words of a list

What stands between the separators of a list, without the empty pieces: runs of
separators separate once, and those at either end do not count.
-/

namespace Words

variable {α : Type*} {isSeparator : α → Bool}

/-- The non-empty pieces between separators. -/
def words (isSeparator : α → Bool) (l : List α) : List (List α) :=
  (l.splitOnP isSeparator).filter (· ≠ [])

@[simp] theorem words_nil : words isSeparator [] = [] := rfl

theorem words_separator {a : α} (h : isSeparator a = true) (l : List α) :
    words isSeparator (a :: l) = words isSeparator l := by
  simp [words, List.splitOnP_cons_eq_if_modifyHead, h]

/-- A single word. -/
theorem words_single {w : List α} (hw : w ≠ []) (h : ∀ a ∈ w, isSeparator a = false) :
    words isSeparator w = [w] := by
  simp [words, List.splitOnP_eq_singleton h, hw]

/-- A word that a separator ends. -/
theorem words_append {w : List α} (hw : w ≠ []) (h : ∀ a ∈ w, isSeparator a = false) {s : α}
    (hs : isSeparator s = true) (l : List α) :
    words isSeparator (w ++ s :: l) = w :: words isSeparator l := by
  simp [words, List.splitOnP_append_cons_of_forall_mem h s hs, hw]

theorem head?_dropWhile {l : List α} :
    ∀ s ∈ (l.dropWhile fun a => !isSeparator a).head?, isSeparator s = true := by
  intro s hs
  have hhead := List.head?_dropWhile_not (fun a => !isSeparator a) l
  rw [Option.mem_def.mp hs] at hhead
  simpa using hhead

/-- Where no separator comes first, the first word goes up to the first separator. -/
theorem words_cons {a : α} (ha : isSeparator a = false) (l : List α) :
    words isSeparator (a :: l) =
      ((a :: l).takeWhile fun b => !isSeparator b) ::
        words isSeparator ((a :: l).dropWhile fun b => !isSeparator b) := by
  have hsplit := List.takeWhile_append_dropWhile (p := fun b => !isSeparator b) (l := a :: l)
  have hne : ((a :: l).takeWhile fun b => !isSeparator b) ≠ [] := by simp [ha]
  have hmem : ∀ b ∈ (a :: l).takeWhile fun b => !isSeparator b, isSeparator b = false :=
    fun b hb => by simpa using List.mem_takeWhile_imp hb
  have hhead : ∀ s ∈ ((a :: l).dropWhile fun b => !isSeparator b).head?, isSeparator s = true :=
    head?_dropWhile
  cases hrest : (a :: l).dropWhile fun b => !isSeparator b with
  | nil =>
      rw [hrest, List.append_nil] at hsplit
      rw [hsplit] at hmem ⊢
      exact words_single (List.cons_ne_nil a l) hmem
  | cons s rest =>
      have hs : isSeparator s = true := hhead s (by simp [hrest])
      rw [hrest] at hsplit
      calc
        words isSeparator (a :: l) = words isSeparator (_ ++ s :: rest) := by rw [hsplit]
        _ = _ := by rw [words_append hne hmem hs, words_separator hs]

/-- The first word and what is behind it, taken apart. -/
theorem words_eq_cons {l w : List α} {ws : List (List α)} (h : words isSeparator l = w :: ws) :
    ∃ gap rest, l = gap ++ (w ++ rest) ∧ (∀ a ∈ gap, isSeparator a = true) ∧ w ≠ [] ∧
      (∀ a ∈ w, isSeparator a = false) ∧ (∀ s ∈ rest.head?, isSeparator s = true) ∧
      words isSeparator rest = ws := by
  induction l with
  | nil => simp at h
  | cons a l ih =>
      by_cases ha : isSeparator a = true
      · rw [words_separator ha] at h
        obtain ⟨gap, rest, rfl, hgap, hrest⟩ := ih h
        exact ⟨a :: gap, rest, rfl, by simpa [ha] using hgap, hrest⟩
      · have ha' : isSeparator a = false := by simpa using ha
        rw [words_cons ha'] at h
        obtain ⟨rfl, rfl⟩ := List.cons.inj h
        exact ⟨[], _, (List.takeWhile_append_dropWhile).symm, by simp, by simp [ha'],
          fun b hb => by simpa using List.mem_takeWhile_imp hb, head?_dropWhile, rfl⟩

end Words
