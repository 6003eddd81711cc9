import MullXCTest.Library.Gaps
import MullXCTest.Library.PathWalk
import MullXCTest.LLVM.Path
import MullXCTest.ResultBundle.XCResultFile
import MullXCTest.RunFile.XCTestRunFile

/-!
# The product paths of a run file

`getDependentProductPaths` writes the directory of the run file for `__TESTROOT__` in each
path that it extracts. The directory of a bare file name is the empty string, so that the
product is looked for in the root directory.
-/

namespace MullXCTest.RunFile

open FindReplace PathWalk
open ResultBundle (Json Fault)

def testRootKey : List Char := "__TESTROOT__".toList

theorem testRootKey_ne_nil : testRootKey ≠ [] := by decide

/-- The loop over `metaSymMap`, which has one entry. -/
def expandTestRoot (testRoot stringVal : String) : String :=
  String.ofList (replaceAll testRootKey testRoot.toList testRootKey_ne_nil stringVal.toList)

/-- What a run of plutil leaves: its exit code, and what reading the output file gives. -/
structure PlutilResult where
  exitCode : Int
  outFile : Except String String

def getAsArray : Json → Option (List Json)
  | .array values => some values
  | _ => none

def getAsString : Json → Option String
  | .string value => some value
  | _ => none

section Extraction

variable (plutil : List String → PlutilResult) (parse : String → Except String Json)
  (removeFilename : String → String)

namespace XCTestRunFile

/-- `parse` is LLVM's JSON parser and `removeFilename` is `llvm::sys::path::remove_filename`.
The pointer to the array is asserted and dereferenced. -/
def getDependentProductPaths (file : XCTestRunFile) (targetName outFile : String) :
    Except Fault (Except String (List String)) :=
  let result := plutil (file.getDependentProductPathsArguments targetName outFile)
  if result.exitCode ≠ 0 then
    .ok (.error "failed to extract product paths from xctestrun file.")
  else
    match result.outFile with
    | .error _ => .ok (.error "failed open plutil result file")
    | .ok fileBuf =>
        match parse fileBuf with
        | .error message => .ok (.error message)
        | .ok json =>
            match getAsArray json with
            | none => .error .nullArray
            | some productPaths =>
                .ok (.ok ((productPaths.filterMap getAsString).map
                  (expandTestRoot (removeFilename file.filePath))))

end XCTestRunFile

end Extraction

/-- What is known of `llvm::sys::path::remove_filename`, up to separators at the end of what
it leaves. -/
structure RemovesFilename (removeFilename : String → String) : Prop where
  bare : ∀ name : String, '/' ∉ name.toList → removeFilename name = ""
  directory : ∀ dir name : String, name ≠ "" → '/' ∉ name.toList →
    (removeFilename (dir ++ "/" ++ name)).toList.rdropWhile (· = '/') =
      dir.toList.rdropWhile (· = '/')

theorem removeFilename_removesFilename : RemovesFilename LLVM.removeFilename where
  bare := by
    intro name hname
    rw [LLVM.removeFilename, if_neg hname]
  directory := by
    intro dir name _ hname
    have hpath : (dir ++ "/" ++ name).toList = dir.toList ++ '/' :: name.toList := by simp
    have hparent := LLVM.parentPath_append dir.toList hname
    rw [LLVM.removeFilename, hpath, if_pos (by simp), hparent]
    split_ifs with hroot
    · rw [hroot]
      rfl
    · rw [String.toList_ofList, List.rdropWhile_idempotent]

/-- The path of a file is not empty and does not end in a separator. -/
def IsFilePath (path : String) : Prop :=
  path ≠ "" ∧ path.toList.getLast? ≠ some '/'

instance (path : String) : Decidable (IsFilePath path) :=
  inferInstanceAs (Decidable (_ ∧ _))

/-- A product of a run file that is given below `__TESTROOT__` is returned as a path that
denotes it in the directory of the run file, whatever the file system is. -/
def Resolves (filePath value product : String) : Prop :=
  ∀ rest : String, value = "__TESTROOT__/" ++ rest → ¬ testRootKey <:+: rest.toList →
    (∀ (Node : Type) (walk : Walk Char Node),
      walk.denote '/' product.toList =
        (walk.containingDirectory '/' filePath.toList).bind fun directory =>
          walk.descend directory (components '/' rest.toList)) ∧
      (IsAbsolute '/' product.toList → IsAbsolute '/' filePath.toList)

/-- Every product path that is extracted is resolved. -/
def ProductsResolve (removeFilename : String → String) (file : XCTestRunFile) : Prop :=
  ∀ (plutil : List String → PlutilResult) (parse : String → Except String Json)
    (targetName outFile fileBuf : String) (values : List Json),
    plutil (file.getDependentProductPathsArguments targetName outFile) = ⟨0, .ok fileBuf⟩ →
      parse fileBuf = .ok (.array values) →
        ∃ products,
          file.getDependentProductPaths plutil parse removeFilename targetName outFile =
            .ok (.ok products) ∧
          List.Forall₂ (Resolves file.filePath) (values.filterMap getAsString) products

section Substitution

/-- The product path has one gap before the key and one behind it. -/
theorem gaps_product {rest : List Char} (h : ¬ testRootKey <:+: rest) :
    Gaps testRootKey (testRootKey ++ '/' :: rest) [[], '/' :: rest] := by
  have htail : ¬ testRootKey <:+: '/' :: rest := by
    rw [List.infix_cons_iff]
    rintro (hstarts | hinfix)
    · have hkey : testRootKey = '_' :: testRootKey.tail := by decide
      rw [hkey, List.cons_prefix_cons] at hstarts
      exact absurd hstarts.1 (by decide)
    · exact h hinfix
  have hfirst : ∀ j < ([] : List Char).length,
      ¬ testRootKey <+: ([] ++ testRootKey ++ '/' :: rest).drop j := by simp
  exact .occurrence hfirst (.last htail)

theorem expandTestRoot_product (testRoot : String) {rest : String}
    (h : ¬ testRootKey <:+: rest.toList) :
    (expandTestRoot testRoot ("__TESTROOT__/" ++ rest)).toList =
      testRoot.toList ++ '/' :: rest.toList := by
  have htext : ("__TESTROOT__/" ++ rest).toList = testRootKey ++ '/' :: rest.toList := by
    have hkey : "__TESTROOT__/".toList = testRootKey ++ ['/'] := by decide
    rw [String.toList_append, hkey, List.append_assoc]
    rfl
  rw [expandTestRoot, String.toList_ofList, replaceAll_eq_substitute, htext]
  calc
    substitute testRootKey testRoot.toList 0 (testRootKey ++ '/' :: rest.toList) =
        testRoot.toList.intercalate [[], '/' :: rest.toList] :=
      (gaps_product h).substitute testRootKey_ne_nil
    _ = testRoot.toList ++ '/' :: rest.toList := by
      rw [List.intercalate_cons_cons, List.intercalate_singleton, List.nil_append]

end Substitution

section Resolution

variable {removeFilename : String → String} {filePath : String}

/-- With a directory in front, the substitution agrees with the walk. -/
theorem resolves_of_mem (llvm : RemovesFilename removeFilename) (hfile : IsFilePath filePath)
    (hsep : '/' ∈ filePath.toList) (value : String) :
    Resolves filePath value (expandTestRoot (removeFilename filePath) value) := by
  obtain ⟨dir, name, hsplit, hname⟩ := exists_last_cut hsep
  have hne : name ≠ [] := by
    rintro rfl
    exact hfile.2 (by simp [hsplit])
  have hpath : filePath = String.ofList dir ++ "/" ++ String.ofList name := by
    apply String.toList_inj.mp
    simp [hsplit]
  have hroot : (removeFilename filePath).toList.rdropWhile (· = '/') =
      dir.rdropWhile (· = '/') := by
    rw [hpath]
    simpa using llvm.directory (String.ofList dir) (String.ofList name) (by simpa using hne)
      (by simpa using hname)
  rintro rest rfl hrest
  rw [expandTestRoot_product _ hrest, hsplit]
  have habs : IsAbsolute '/' ((removeFilename filePath).toList ++ '/' :: rest.toList) ↔
      IsAbsolute '/' (dir ++ '/' :: name) := by
    rw [isAbsolute_append_cons, isAbsolute_append_cons, hroot]
  refine ⟨?_, habs.mp⟩
  intro Node walk
  have hdir : components '/' (removeFilename filePath).toList = components '/' dir := by
    rw [← components_rdropWhile, hroot, components_rdropWhile]
  have hparent : (components '/' (dir ++ '/' :: name)).dropLast = components '/' dir := by
    rw [components_append_cons, components_of_notMem hne hname, List.dropLast_concat]
  have hstart : walk.start '/' ((removeFilename filePath).toList ++ '/' :: rest.toList) =
      walk.start '/' (dir ++ '/' :: name) := if_congr habs rfl rfl
  rw [Walk.denote, Walk.containingDirectory, hparent, hstart]
  calc
    walk.descend (walk.start '/' (dir ++ '/' :: name))
        (components '/' ((removeFilename filePath).toList ++ '/' :: rest.toList)) =
      walk.descend (walk.start '/' (dir ++ '/' :: name))
        (components '/' dir ++ components '/' rest.toList) := by
      rw [components_append_cons, hdir]
    _ = (walk.descend (walk.start '/' (dir ++ '/' :: name)) (components '/' dir)).bind
        fun directory => walk.descend directory (components '/' rest.toList) :=
      walk.descend_append _ _ _

/-- A bare name leaves nothing before the separator of the product. -/
theorem not_resolves_of_notMem (llvm : RemovesFilename removeFilename)
    (hsep : '/' ∉ filePath.toList) :
    ¬ Resolves filePath "__TESTROOT__/a" (expandTestRoot (removeFilename filePath)
      "__TESTROOT__/a") := by
  intro resolves
  have hrest : ¬ testRootKey <:+: "a".toList := by decide
  have habs := (resolves "a" rfl hrest).2
  rw [llvm.bare filePath hsep, show "__TESTROOT__/a" = "__TESTROOT__/" ++ "a" from rfl,
    expandTestRoot_product _ hrest] at habs
  exact hsep (List.mem_of_mem_head? (habs rfl))

end Resolution

theorem XCTestRunFile.getDependentProductPaths_of_array {plutil : List String → PlutilResult}
    {parse : String → Except String Json} (removeFilename : String → String)
    {file : XCTestRunFile} {targetName outFile fileBuf : String} {values : List Json}
    (hrun : plutil (file.getDependentProductPathsArguments targetName outFile) =
      ⟨0, .ok fileBuf⟩)
    (hparse : parse fileBuf = .ok (.array values)) :
    file.getDependentProductPaths plutil parse removeFilename targetName outFile =
      .ok (.ok ((values.filterMap getAsString).map
        (expandTestRoot (removeFilename file.filePath)))) := by
  simp [getDependentProductPaths, hrun, hparse, getAsArray]

/-- A run file whose products are found has a directory in its path. -/
theorem mem_of_productsResolve {removeFilename : String → String}
    (llvm : RemovesFilename removeFilename) {file : XCTestRunFile}
    (resolve : ProductsResolve removeFilename file) : '/' ∈ file.filePath.toList := by
  by_contra hsep
  obtain ⟨products, hproducts, hall⟩ := resolve (fun _ => ⟨0, .ok ""⟩)
    (fun _ => .ok (.array [.string "__TESTROOT__/a"])) "" "" "" _ rfl rfl
  rw [XCTestRunFile.getDependentProductPaths_of_array removeFilename rfl rfl] at hproducts
  obtain rfl := Except.ok.inj (Except.ok.inj hproducts)
  cases hall with
  | cons hfirst _ => exact not_resolves_of_notMem llvm hsep hfirst

/-- **Product paths resolve against the directory of the run file** exactly when its path has a
directory in it. -/
theorem productsResolve_iff {removeFilename : String → String}
    (llvm : RemovesFilename removeFilename) {file : XCTestRunFile}
    (hfile : IsFilePath file.filePath) :
    ProductsResolve removeFilename file ↔ '/' ∈ file.filePath.toList := by
  refine ⟨mem_of_productsResolve llvm, ?_⟩
  intro hsep plutil parse targetName outFile fileBuf values hrun hparse
  refine ⟨_, XCTestRunFile.getDependentProductPaths_of_array removeFilename hrun hparse, ?_⟩
  rw [List.forall₂_map_right_iff]
  exact List.forall₂_same.mpr fun value _ => resolves_of_mem llvm hfile hsep value

theorem productsResolve_example :
    ProductsResolve LLVM.removeFilename ⟨"/tmp/App.xctestrun"⟩ :=
  (productsResolve_iff removeFilename_removesFilename (by decide)).mpr (by decide)

/-- The products of a run file in the current directory are looked for in the root directory. -/
theorem not_productsResolve_example :
    IsFilePath "App.xctestrun" ∧ RemovesFilename LLVM.removeFilename ∧
      expandTestRoot (LLVM.removeFilename "App.xctestrun") "__TESTROOT__/App.app" = "/App.app" ∧
      ¬ ProductsResolve LLVM.removeFilename ⟨"App.xctestrun"⟩ := by
  have hbare : LLVM.removeFilename "App.xctestrun" = "" := by decide
  have hrest : ¬ testRootKey <:+: "App.app".toList := by decide
  refine ⟨by decide, removeFilename_removesFilename, ?_, ?_⟩
  · have htext : "__TESTROOT__/App.app" = "__TESTROOT__/" ++ "App.app" := by decide
    apply String.toList_inj.mp
    rw [hbare, htext, expandTestRoot_product "" hrest]
    decide
  · intro resolve
    have hsep := mem_of_productsResolve removeFilename_removesFilename resolve
    exact absurd hsep (by decide)

end MullXCTest.RunFile
