import MullXCTest.LinkCommand.Filelist

/-!
# The lines of a filelist

A line with whitespace alone is not empty when the reader drops the empty lines, and is
empty when it has been trimmed. So the reader yields the non-blank lines exactly when
the blank lines of the file have no character in them.
-/

namespace MullXCTest.LinkCommand

/-- A line with nothing or with whitespace alone. -/
def isBlank (line : List Char) : Bool := line.all isTrimmed

/-- What a filelist names: its lines that are not blank, without what they end in. -/
def nonBlankLines (buffer : String) : List String :=
  ((buffer.toList.splitOn '\n').filter fun line => !isBlank line).map
    fun line => String.ofList (rtrim line)

/-- The reader adds the non-blank lines to its output, and never an empty path. -/
structure YieldsNonBlankLines (buffer : String) : Prop where
  entries : ∀ (fs : FileSystem) (filepath : String) (output : List String),
    fs filepath = some buffer →
      readFilelistFile fs filepath output = (false, output ++ nonBlankLines buffer)
  no_empty : ∀ (fs : FileSystem) (filepath : String) (output : List String),
    fs filepath = some buffer →
      ∃ paths, readFilelistFile fs filepath output = (false, output ++ paths) ∧ "" ∉ paths

theorem isBlank_iff (line : List Char) : isBlank line = true ↔ rtrim line = [] := by
  rw [isBlank, rtrim, List.rdropWhile_eq_nil_iff, List.all_eq_true]

/-- No line that is kept is trimmed to the empty path. -/
theorem empty_notMem_nonBlankLines (buffer : String) : "" ∉ nonBlankLines buffer := by
  intro hmem
  obtain ⟨line, hline, htrim⟩ := List.mem_map.mp hmem
  have hkept := (List.mem_filter.mp hline).2
  have hblank : isBlank line = true := by
    rw [isBlank_iff]
    simpa using htrim
  simp [hblank] at hkept

/-- A blank line with something in it becomes an empty path. -/
theorem empty_mem_filelistLines {buffer : String} {line : List Char}
    (hline : line ∈ buffer.toList.splitOn '\n') (hblank : isBlank line = true)
    (hne : line ≠ []) : "" ∈ filelistLines buffer := by
  apply List.mem_map.mpr
  refine ⟨line, List.mem_filter.mpr ⟨hline, ?_⟩, ?_⟩
  · simpa using hne
  · rw [(isBlank_iff line).mp hblank]

/-- Where every blank line is empty, dropping the empty lines drops the blank ones. -/
theorem filelistLines_eq_nonBlankLines {buffer : String}
    (h : ∀ line ∈ buffer.toList.splitOn '\n', isBlank line = true → line = []) :
    filelistLines buffer = nonBlankLines buffer := by
  unfold filelistLines nonBlankLines
  congr 1
  apply List.filter_congr
  intro line hline
  cases hblank : isBlank line with
  | true => simp [h line hline hblank]
  | false =>
      have hne : line ≠ [] := by
        rintro rfl
        cases hblank
      simpa using hne

theorem readFilelistFile_of_readable {fs : FileSystem} {filepath buffer : String}
    (h : fs filepath = some buffer) (output : List String) :
    readFilelistFile fs filepath output = (false, output ++ filelistLines buffer) := by
  simp [readFilelistFile, h]

/-- **The reader yields the non-blank lines** exactly when no line of the content has
whitespace and nothing else. -/
theorem yieldsNonBlankLines_iff (buffer : String) :
    YieldsNonBlankLines buffer ↔
      ∀ line ∈ buffer.toList.splitOn '\n', isBlank line = true → line = [] := by
  constructor
  · intro yields line hline hblank
    by_contra hne
    obtain ⟨paths, hread, hempty⟩ :=
      yields.no_empty (fun _ => some buffer) "" [] rfl
    rw [@readFilelistFile_of_readable (fun _ => some buffer) "" buffer rfl] at hread
    have hpaths : filelistLines buffer = paths := by simpa using hread
    exact hempty (hpaths ▸ empty_mem_filelistLines hline hblank hne)
  · intro h
    have hread : ∀ (fs : FileSystem) (filepath : String) (output : List String),
        fs filepath = some buffer →
          readFilelistFile fs filepath output = (false, output ++ nonBlankLines buffer) := by
      intro fs filepath output hfile
      rw [readFilelistFile_of_readable hfile, filelistLines_eq_nonBlankLines h]
    refine ⟨hread, ?_⟩
    intro fs filepath output hfile
    exact ⟨_, hread fs filepath output hfile, empty_notMem_nonBlankLines buffer⟩

/-- A blank line between two paths, in a file with CRLF line ends. -/
theorem not_yieldsNonBlankLines_example :
    ¬ ∀ buffer, YieldsNonBlankLines buffer := by
  intro yields
  have hread := (yields "a.o\r\n\r\nb.o\r\n").entries (fun _ => some _) "list" [] rfl
  exact absurd hread (by decide)

end MullXCTest.LinkCommand
