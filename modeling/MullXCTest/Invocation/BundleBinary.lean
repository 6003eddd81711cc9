import MullXCTest.Invocation.MutantExtraction
import MullXCTest.Invocation.PathAppend

/-!
# The binary of a bundle

Both tools take the name of the binary from the last component of the bundle path. Behind
a trailing separator the last component is `.`, whose name is empty, so that the path of
the bundle itself, or of the directory for binaries in it, is inspected.
-/

namespace MullXCTest.Invocation

open PathWalk

/-- `filename.rsplit(".").first`, as both tools compute it. -/
def basename (bundlePath : String) : String := LLVM.rsplitDotFirst (LLVM.filename bundlePath)

namespace XCTestInvocation

def binaryPath (testBundle : String) : String :=
  pathAppend (pathAppend (pathAppend testBundle "Contents") "MacOS") (basename testBundle)

/-- A binary that cannot be read leaves no mutants and no message. -/
def extractMutantInfo (testBundle : String) (reader : BinaryReader) : List Mutant :=
  match reader (binaryPath testBundle) with
  | .error _ => []
  | .ok result => result

end XCTestInvocation

/-- The path of a bundle, with a last component of the form `name.ext`. -/
structure BundlePath where
  dir : String
  name : String
  ext : String
  dir_separated : dir = "" ∨ dir.toList.getLast? = some '/'
  name_component : '/' ∉ name.toList
  ext_component : '/' ∉ ext.toList
  ext_last : '.' ∉ ext.toList

namespace BundlePath

variable (bundle : BundlePath)

def lastComponent : String := bundle.name ++ "." ++ bundle.ext

def path : String := bundle.dir ++ bundle.lastComponent

/-- The path as it is typed with separators behind it. -/
def typed (k : Nat) : String := bundle.path ++ String.ofList (List.replicate k '/')

end BundlePath

/-- A binary path computed from a bundle path denotes the file that is `inside` the bundle, in
every file system, where `.` is the directory itself. -/
def DenotesBinary (binaryPath : String → String) (inside : String) (bundle : BundlePath)
    (k : Nat) : Prop :=
  ∀ (Node : Type) (walk : Walk Char Node), (∀ node, walk.step node ['.'] = some node) →
    walk.denote '/' (binaryPath (bundle.typed k)).toList =
      walk.denote '/' (bundle.path ++ "/" ++ inside).toList

/-- Both tools find the binary of the bundle, with some separators behind its path. -/
structure FindsBinary (bundle : BundlePath) (k : Nat) : Prop where
  xctest : DenotesBinary XCTestInvocation.binaryPath ("Contents/MacOS/" ++ bundle.name) bundle k
  xctestrun : DenotesBinary getBundleBinaryPath bundle.name bundle k

section Basename

variable (bundle : BundlePath)

theorem BundlePath.lastComponent_toList :
    bundle.lastComponent.toList = bundle.name.toList ++ '.' :: bundle.ext.toList := by
  simp [BundlePath.lastComponent]

theorem BundlePath.separator_notMem : '/' ∉ bundle.lastComponent.toList := by
  have hname := bundle.name_component
  have hext := bundle.ext_component
  simp [bundle.lastComponent_toList, hname, hext]

/-- Without a separator behind it, the last component gives the name of the bundle. -/
theorem components_basename :
    components '/' (basename (bundle.typed 0)).toList = components '/' bundle.name.toList := by
  have hpath : (bundle.typed 0).toList = bundle.dir.toList ++ bundle.lastComponent.toList := by
    simp [BundlePath.typed, BundlePath.path]
  have hdir : bundle.dir.toList = [] ∨ bundle.dir.toList.getLast? = some '/' := by
    simpa using bundle.dir_separated
  have hne : bundle.lastComponent.toList ≠ [] := by simp [bundle.lastComponent_toList]
  have hname : LLVM.rsplitDotFirst bundle.lastComponent = bundle.name :=
    LLVM.rsplitDotFirst_append bundle.name bundle.ext_last
  unfold basename
  rcases LLVM.filename_append hpath hdir hne bundle.separator_notMem with hfile | ⟨hroot, hfile⟩
  · rw [hfile, String.ofList_toList, hname]
  · have hwhole : bundle.typed 0 = "//" ++ bundle.name ++ "." ++ bundle.ext := by
      apply String.toList_inj.mp
      rw [hpath, hroot, bundle.lastComponent_toList]
      simp
    rw [hfile, hwhole, LLVM.rsplitDotFirst_append _ bundle.ext_last]
    simp

/-- Behind a separator the name is empty. -/
theorem components_basename_separator (k : Nat) :
    components '/' (basename (bundle.typed (k + 1))).toList = [] := by
  have hlast : (bundle.typed (k + 1)).toList.getLast? = some '/' := by
    simp [BundlePath.typed, List.replicate_succ']
  unfold basename
  rcases LLVM.filename_of_separator hlast with hfile | hfile <;> rw [hfile] <;> decide

end Basename

section Find

/-- The walk that counts the names below the current directory. -/
def depthWalk : Walk Char Nat where
  root := 0
  cwd := 0
  step depth name := some (if name = ['.'] then depth else depth + 1)

theorem descend_depthWalk (depth : Nat) (names : List (List Char)) :
    depthWalk.descend depth names = some (depth + names.countP (· ≠ ['.'])) := by
  induction names generalizing depth with
  | nil => rfl
  | cons name names ih =>
      have hstep : depthWalk.descend depth (name :: names) =
          depthWalk.descend (if name = ['.'] then depth else depth + 1) names := rfl
      rw [hstep, ih]
      by_cases hdot : name = ['.']
      · simp [hdot]
      · simp [hdot]
        omega

theorem denote_depthWalk (path : List Char) :
    depthWalk.denote '/' path = some ((components '/' path).countP (· ≠ ['.'])) := by
  have hstart : depthWalk.start '/' path = 0 := ite_self _
  rw [Walk.denote, hstart, descend_depthWalk, Nat.zero_add]

variable {bundle : BundlePath} {binaryPath : String → String} {inside : String} {k : Nat}
  {folders : List (List Char)}

theorem BundlePath.path_ne_nil : bundle.path.toList ≠ [] := by
  simp [BundlePath.path, BundlePath.lastComponent]

theorem BundlePath.components_typed :
    components '/' (bundle.typed k).toList = components '/' bundle.path.toList := by
  simp [BundlePath.typed]

theorem BundlePath.typed_ne_empty : bundle.typed k ≠ "" := by
  simp [BundlePath.typed, BundlePath.path, BundlePath.lastComponent]

theorem isAbsolute_append {path : List Char} (rest : List Char) (h : path ≠ []) :
    IsAbsolute '/' (path ++ rest) ↔ IsAbsolute '/' path := by
  obtain ⟨c, tail, rfl⟩ := List.exists_cons_of_ne_nil h
  rfl

/-- A binary path that adds folders and the basename to the bundle path is right without a
separator, and goes no further than the folders with one. -/
theorem denotesBinary_iff
    (habs : IsAbsolute '/' (binaryPath (bundle.typed k)).toList ↔
      IsAbsolute '/' (bundle.typed k).toList)
    (hbinary : components '/' (binaryPath (bundle.typed k)).toList =
      components '/' (bundle.typed k).toList ++ folders ++
        components '/' (basename (bundle.typed k)).toList)
    (hinside : components '/' inside.toList = folders ++ components '/' bundle.name.toList) :
    DenotesBinary binaryPath inside bundle k ↔
      k = 0 ∨ bundle.name = "" ∨ bundle.name = "." := by
  have htext : (bundle.path ++ "/" ++ inside).toList =
      bundle.path.toList ++ '/' :: inside.toList := by simp
  have hexpected : components '/' (bundle.path ++ "/" ++ inside).toList =
      components '/' bundle.path.toList ++ folders ++ components '/' bundle.name.toList := by
    rw [htext, components_append_cons, hinside, List.append_assoc]
  have habs' : IsAbsolute '/' (binaryPath (bundle.typed k)).toList ↔
      IsAbsolute '/' (bundle.path ++ "/" ++ inside).toList := by
    rw [habs, htext, isAbsolute_append _ bundle.path_ne_nil, BundlePath.typed,
      String.toList_append, isAbsolute_append _ bundle.path_ne_nil]
  rw [bundle.components_typed] at hbinary
  cases k with
  | zero =>
      rw [components_basename] at hbinary
      refine ⟨fun _ => .inl rfl, ?_⟩
      intro _ Node walk _
      exact walk.denote_congr habs' (hbinary.trans hexpected.symm)
  | succ k =>
      rw [components_basename_separator, List.append_nil] at hbinary
      constructor
      · intro denotes
        by_contra hname
        simp only [Nat.succ_ne_zero, false_or, not_or] at hname
        have hne : bundle.name.toList ≠ [] := by simpa using hname.1
        have hdot : bundle.name.toList ≠ ['.'] := by
          intro h
          exact hname.2 (String.toList_inj.mp h)
        have hdepth := denotes Nat depthWalk (fun _ => rfl)
        rw [denote_depthWalk, denote_depthWalk, hbinary, hexpected,
          components_of_notMem hne bundle.name_component] at hdepth
        simp [hdot] at hdepth
      · intro hname Node walk hwalk
        rcases hname.resolve_left (Nat.succ_ne_zero k) with hname | hname
        · rw [hname, String.toList_empty, components_nil, List.append_nil] at hexpected
          exact walk.denote_congr habs' (hbinary.trans hexpected.symm)
        · have hlast : components '/' bundle.name.toList = [['.']] := by
            rw [hname]
            decide
          rw [hlast] at hexpected
          apply walk.denote_of_stays hwalk habs'
          rw [hbinary, hexpected]

theorem denotesBinary_xctest_iff :
    DenotesBinary XCTestInvocation.binaryPath ("Contents/MacOS/" ++ bundle.name) bundle k ↔
      k = 0 ∨ bundle.name = "" ∨ bundle.name = "." := by
  have hne : bundle.typed k ≠ "" := bundle.typed_ne_empty
  have hcontents := pathAppend_ne_empty hne "Contents"
  have hmacos := pathAppend_ne_empty hcontents "MacOS"
  have hfolders : components '/' "Contents".toList ++ components '/' "MacOS".toList =
      ["Contents".toList, "MacOS".toList] := by decide
  apply @denotesBinary_iff bundle _ _ k ["Contents".toList, "MacOS".toList]
  · rw [XCTestInvocation.binaryPath, isAbsolute_pathAppend hmacos,
      isAbsolute_pathAppend hcontents, isAbsolute_pathAppend hne]
  · rw [XCTestInvocation.binaryPath, components_pathAppend hmacos,
      components_pathAppend hcontents, components_pathAppend hne, ← hfolders]
    simp only [List.append_assoc]
  · have htext : ("Contents/MacOS/" ++ bundle.name).toList =
        "Contents/MacOS".toList ++ '/' :: bundle.name.toList := by
      have hsplit : "Contents/MacOS/".toList = "Contents/MacOS".toList ++ ['/'] := by decide
      rw [String.toList_append, hsplit, List.append_assoc, List.singleton_append]
    rw [htext, components_append_cons]
    congr 1

theorem denotesBinary_xctestrun_iff :
    DenotesBinary getBundleBinaryPath bundle.name bundle k ↔
      k = 0 ∨ bundle.name = "" ∨ bundle.name = "." := by
  apply @denotesBinary_iff bundle _ _ k []
  · exact isAbsolute_pathAppend bundle.typed_ne_empty _
  · rw [List.append_nil]
    exact components_pathAppend bundle.typed_ne_empty _
  · rfl

/-- **Which binary is inspected.** Both tools find the binary of a bundle exactly when no
separator follows its path, or its name adds nothing to the directory of the binary. -/
theorem findsBinary_iff (bundle : BundlePath) (k : Nat) :
    FindsBinary bundle k ↔ k = 0 ∨ bundle.name = "" ∨ bundle.name = "." := by
  constructor
  · intro finds
    exact denotesBinary_xctestrun_iff.mp finds.xctestrun
  · intro h
    exact ⟨denotesBinary_xctest_iff.mpr h, denotesBinary_xctestrun_iff.mpr h⟩

/-- The bundle `/Build/App.xctest`. -/
def exampleBundle : BundlePath where
  dir := "/Build/"
  name := "App"
  ext := "xctest"
  dir_separated := by decide
  name_component := by decide
  ext_component := by decide
  ext_last := by decide

/-- A binary with one mutant. -/
def exampleReader : BinaryReader := fun path =>
  if path = "/Build/App.xctest/Contents/MacOS/App" then .ok [⟨"a", true⟩] else .error "no binary"

/-- One separator behind the path, and neither tool looks at a file with the bundle's name. -/
theorem not_findsBinary_example :
    XCTestInvocation.extractMutantInfo (exampleBundle.typed 0) exampleReader = [⟨"a", true⟩] ∧
      XCTestInvocation.extractMutantInfo (exampleBundle.typed 1) exampleReader = [] ∧
      getBundleBinaryPath (exampleBundle.typed 1) = "/Build/App.xctest/" ∧
      ¬ DenotesBinary XCTestInvocation.binaryPath ("Contents/MacOS/" ++ exampleBundle.name)
        exampleBundle 1 ∧
      ¬ DenotesBinary getBundleBinaryPath exampleBundle.name exampleBundle 1 ∧
      ¬ FindsBinary exampleBundle 1 := by
  have hname : ¬ (1 = 0 ∨ exampleBundle.name = "" ∨ exampleBundle.name = ".") := by decide
  refine ⟨by decide, by decide, by decide, ?_, ?_, ?_⟩
  · rwa [denotesBinary_xctest_iff]
  · rwa [denotesBinary_xctestrun_iff]
  · intro finds
    exact hname (denotesBinary_xctestrun_iff.mp finds.xctestrun)

end Find

end MullXCTest.Invocation
