import Mathlib.Data.List.DropRight

/-!
# Filelists of the linker and libtool front ends

`readFilelistFile` is the same function in `LinkerOptions.cpp` and
`mull-libtool.cpp`; the writer is the loop that `link` and `runLibtool` share.
Reading back what was written returns the written list, for paths that a line
can hold.
-/

namespace MullXCTest.LinkCommand

/-- What `llvm::MemoryBuffer::getFile` returns for each path: the text of the
file, or nothing when it cannot be read. -/
abbrev FileSystem := String → Option String

/-- The characters that `llvm::StringRef::rtrim` removes by default. -/
def isTrimmed (c : Char) : Bool :=
  [' ', '\t', '\n', '\x0b', '\x0c', '\r'].contains c

def rtrim (line : List Char) : List Char := line.rdropWhile isTrimmed

/-- The lines of a filelist: `split` with `KeepEmpty` off, then `rtrim` on every piece. -/
def filelistLines (buffer : String) : List String :=
  ((buffer.toList.splitOn '\n').filter fun line => !line.isEmpty).map
    fun line => String.ofList (rtrim line)

/-- The returned flag is true if an error occurred; the output then keeps its old content. -/
def readFilelistFile (fs : FileSystem) (filepath : String) (output : List String) :
    Bool × List String :=
  match fs filepath with
  | none => (true, output)
  | some buffer => (false, output ++ filelistLines buffer)

/-- The text that `link` and `runLibtool` write into the temporary filelist. -/
def filelistText : List String → String
  | [] => ""
  | objectFile :: rest => objectFile ++ "\n" ++ filelistText rest

/-- A path that one line of a filelist can hold. -/
structure Listable (path : String) : Prop where
  nonempty : path ≠ ""
  no_newline : '\n' ∉ path.toList
  no_trailing : rtrim path.toList = path.toList

theorem filelistText_toList_cons (objectFile : String) (rest : List String) :
    (filelistText (objectFile :: rest)).toList =
      objectFile.toList ++ '\n' :: (filelistText rest).toList := by
  simp [filelistText, String.toList_append]

/-- The reader undoes the writer, line by line. -/
theorem filelistLines_filelistText (objectFiles : List String)
    (h : ∀ path ∈ objectFiles, Listable path) :
    filelistLines (filelistText objectFiles) = objectFiles := by
  induction objectFiles with
  | nil => rfl
  | cons objectFile rest ih =>
      have hpath := h objectFile (by simp)
      have hrest := ih fun path hp => h path (by simp [hp])
      have hne : objectFile.toList ≠ [] := by
        simpa [String.toList_eq_nil_iff] using hpath.nonempty
      simp only [filelistLines] at hrest ⊢
      rw [filelistText_toList_cons, List.splitOn_append_cons_self_of_not_mem hpath.no_newline]
      simp [hne, hpath.no_trailing, hrest]

end MullXCTest.LinkCommand
