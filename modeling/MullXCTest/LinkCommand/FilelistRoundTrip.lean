import MullXCTest.LinkCommand.Filelist

/-!
# Which object lists a filelist can hold

The writer puts each object on a line of its own without looking at it, and the
reader trims lines and leaves empty ones out. So only some lists of objects are
read back as they were written.
-/

namespace MullXCTest.LinkCommand

theorem newline_notMem_line (text : List Char) : ∀ line ∈ text.splitOn '\n', '\n' ∉ line := by
  induction text with
  | nil => simp
  | cons c rest ih =>
      rw [List.splitOn_cons_eq_if_modifyHead]
      split
      next => exact List.forall_mem_cons.mpr ⟨List.not_mem_nil, ih⟩
      next hc =>
          cases hsplit : rest.splitOn '\n' with
          | nil => exact absurd hsplit (List.splitOn_ne_nil _ _)
          | cons first lines =>
              rw [hsplit] at ih
              obtain ⟨hfirst, hlines⟩ := List.forall_mem_cons.mp ih
              refine List.forall_mem_cons.mpr ⟨?_, hlines⟩
              rw [List.mem_cons, not_or]
              exact ⟨fun heq => hc (by simp [← heq]), hfirst⟩

/-- Without line breaks in the objects, the reader trims each object that is not empty. -/
theorem filelistLines_of_no_newline {objectFiles : List String}
    (h : ∀ path ∈ objectFiles, '\n' ∉ path.toList) :
    filelistLines (filelistText objectFiles) =
      (objectFiles.filter fun path => path != "").map
        fun path => String.ofList (rtrim path.toList) := by
  induction objectFiles with
  | nil => rfl
  | cons objectFile rest ih =>
      obtain ⟨hpath, hrest⟩ := List.forall_mem_cons.mp h
      have hih := ih hrest
      simp only [filelistLines] at hih ⊢
      rw [filelistText_toList_cons, List.splitOn_append_cons_self_of_not_mem hpath]
      by_cases hne : objectFile = ""
      · subst hne
        simpa using hih
      · have hlist : objectFile.toList ≠ [] := by simpa [String.toList_eq_nil_iff] using hne
        simp [hne, hlist, hih]

/-- A line that the reader yields has no line break and nothing to trim. -/
theorem of_mem_filelistLines {buffer path : String} (h : path ∈ filelistLines buffer) :
    '\n' ∉ path.toList ∧ rtrim path.toList = path.toList := by
  obtain ⟨line, hline, rfl⟩ := List.mem_map.mp h
  have hnewline : '\n' ∉ line := by
    have hsplit := (List.mem_filter.mp hline).1
    exact newline_notMem_line _ line hsplit
  rw [String.toList_ofList]
  constructor
  · intro hmem
    exact hnewline ((List.rdropWhile_prefix _ _).subset hmem)
  · exact List.rdropWhile_idempotent _ _

/-- A list of objects is read back exactly if each of them is one that a line can hold. -/
theorem filelistLines_filelistText_iff (objectFiles : List String) :
    filelistLines (filelistText objectFiles) = objectFiles ↔
      ∀ path ∈ objectFiles, Listable path := by
  constructor
  · intro hread path hmem
    have hline : ∀ path ∈ objectFiles, '\n' ∉ path.toList ∧ rtrim path.toList = path.toList := by
      intro path hmem
      exact of_mem_filelistLines (hread.symm ▸ hmem)
    have hkept : (objectFiles.filter fun path => path != "") = objectFiles := by
      apply List.filter_sublist.eq_of_length
      have hlength := congrArg List.length hread
      rwa [filelistLines_of_no_newline fun path hmem => (hline path hmem).1,
        List.length_map] at hlength
    have hne : path ≠ "" := by
      have hfilter := hkept.symm ▸ hmem
      simpa using (List.mem_filter.mp hfilter).2
    exact ⟨hne, (hline path hmem).1, (hline path hmem).2⟩
  · exact filelistLines_filelistText objectFiles

end MullXCTest.LinkCommand
