import MullXCTest.LinkCommand.Taken
import Mathlib.Data.Fintype.EquivFin

/-!
# Which objects reach the mutation pipeline

`collectObjectLinkOpts` removes every `-filelist` from the forwarded options, so
an object that `collectObjectFiles` does not read from a filelist is not linked
at all. What a filelist names is taken from its text when its value is a plain
path of a readable file. For a file that cannot be read, and for an ld64-style
value `file,dirname`, the real linker decides, so there the names are arbitrary.
-/

namespace MullXCTest.LinkCommand

open MarkerScan

/-- What `main` does with its parsed arguments before the real tool runs. -/
inductive StartOutcome
  | stopped (status : Nat)
  | started (inputObjects : List String)
  deriving DecidableEq, Repr

/-- `validateInputFiles`, up to its `exit(1)`; `access` is the test for a readable path. -/
def validateInputFiles (access : String → Bool) (inputFiles : List String) : Bool :=
  inputFiles.all access

namespace FrontEnd

/-- From the parsed arguments to the objects that the `MutationPipeline` is created with. -/
def start (fe : FrontEnd) (fs : FileSystem) (access : String → Bool) (args : InputArgList) :
    Except Fault StartOutcome :=
  if fe.hasHelpFlag args then .ok (.stopped 0)
  else do
    let inputObjects ← fe.collectObjectFiles fs args []
    if validateInputFiles access inputObjects then return .started inputObjects
    else return .stopped 1

/-- The arguments that name objects. For ld64 the values of `-add_ast_path` are none. -/
def objectArgs (fe : FrontEnd) (args : InputArgList) : List Arg :=
  match fe with
  | .ld64 => ((withValue isAstPath false args).filter fun q => !q.2 && q.1.isObject).map Prod.fst
  | .clang | .libtool => args.filter Arg.isObject

end FrontEnd

/-- The names of the objects in each filelist, by the value of its argument. -/
structure FilelistNames (fs : FileSystem) where
  names : String → List String
  names_eq : ∀ path buffer, ',' ∉ path.toList → fs path = some buffer →
    names path = filelistLines buffer

namespace FilelistNames

variable {fs : FileSystem}

/-- The objects that an argument names. -/
def ofArg (filelists : FilelistNames fs) (arg : Arg) : List String :=
  if arg.isOption .input then [arg.getValue] else filelists.names arg.getValue

/-- Names under which every filelist that the reader misses holds one given object. -/
def missing (fs : FileSystem) (object : String) : FilelistNames fs where
  names path :=
    if ',' ∈ path.toList then [object]
    else match fs path with
      | none => [object]
      | some buffer => filelistLines buffer
  names_eq path buffer hcomma hfs := by simp [hcomma, hfs]

end FilelistNames

/-- The tool stops before the real linker, or hands over every object that is named. -/
def NothingDropped (fe : FrontEnd) (fs : FileSystem) (access : String → Bool)
    (args : InputArgList) : Prop :=
  ∀ filelists : FilelistNames fs,
    (∃ status, fe.start fs access args = .ok (.stopped status)) ∨
      ∃ inputObjects, fe.start fs access args = .ok (.started inputObjects) ∧
        ∀ arg ∈ fe.objectArgs args, ∀ object ∈ filelists.ofArg arg, object ∈ inputObjects

/-- Every filelist argument is a plain path that can be read. -/
def FilelistsRead (fe : FrontEnd) (fs : FileSystem) (args : InputArgList) : Prop :=
  ∀ arg ∈ fe.objectArgs args, arg.isOption .filelist = true →
    ',' ∉ arg.getValue.toList ∧ ∃ buffer, fs arg.getValue = some buffer

namespace LD64OptTable

theorem takenObjects_map_fst (ps : List Placed) :
    (takenObjects ps).map Prod.fst = FrontEnd.ld64.objectArgs (ps.map Prod.fst) := by
  rw [FrontEnd.objectArgs, withValue_map]
  change _ = ((((withValue marksAstPath false ps).map (Prod.map Prod.fst id)).filter _).map _)
  induction ps using scan_induction marksAstPath with
  | nil => rfl
  | single p hp =>
      have ha : p.1.isOption .addAstPath = true := hp
      simp [takenObjects, withValue, ha, Arg.isObject,
        Arg.isOption_of_ne ha .input (by decide),
        Arg.isOption_of_ne ha .filelist (by decide)]
  | pair p value it hp ih =>
      have ha : p.1.isOption .addAstPath = true := hp
      rw [takenObjects_astPath hp, ih]
      simp [withValue_marker hp, Arg.isObject,
        Arg.isOption_of_ne ha .input (by decide),
        Arg.isOption_of_ne ha .filelist (by decide)]
  | cons p it hp ih =>
      rw [takenObjects_cons hp, withValue_cons hp]
      cases ho : p.1.isObject <;> simp [ho, ih]

end LD64OptTable

theorem mem_filteredObjects_map_fst (ps : List Placed) (arg : Arg) :
    arg ∈ (filteredObjects ps).map Prod.fst ↔ arg ∈ (ps.map Prod.fst).filter Arg.isObject := by
  have hfilter (id : OptId) :
      (ps.filter fun p => p.1.isOption id).map Prod.fst =
        (ps.map Prod.fst).filter fun arg => arg.isOption id := by
    rw [List.filter_map]
    rfl
  rw [filteredObjects, List.map_append, hfilter, hfilter, List.mem_append]
  simp only [List.mem_filter, Arg.isObject, Bool.or_eq_true, and_or_left]

namespace FrontEnd

/-- The collected objects are those that the object arguments contribute. -/
theorem collected_iff (fe : FrontEnd) (fs : FileSystem) {args : InputArgList}
    (h : fe.Scannable args) :
    ∃ inputObjects, fe.collectObjectFiles fs args [] = .ok inputObjects ∧
      ∀ object, object ∈ inputObjects ↔
        ∃ arg ∈ fe.objectArgs args, object ∈ objectsOf fs arg := by
  have hmap : args.zipIdx.map Prod.fst = args := List.zipIdx_map_fst 0 args
  have heq := fe.collectObjectFiles_eq fs args.zipIdx (hmap.symm ▸ h)
  rw [hmap] at heq
  refine ⟨_, heq, ?_⟩
  intro object
  have hmem : ∀ arg, arg ∈ (fe.takenObjects args.zipIdx).map Prod.fst ↔
      arg ∈ fe.objectArgs args := by
    intro arg
    cases fe with
    | ld64 => rw [takenObjects, LD64OptTable.takenObjects_map_fst, hmap]
    | clang => exact (mem_filteredObjects_map_fst _ arg).trans (by rw [hmap]; rfl)
    | libtool => exact (mem_filteredObjects_map_fst _ arg).trans (by rw [hmap]; rfl)
  simp only [List.mem_flatMap, ← hmem, List.mem_map, exists_exists_and_eq_and]

theorem start_help {fe : FrontEnd} {fs : FileSystem} {access : String → Bool}
    {args : InputArgList} (h : fe.hasHelpFlag args = true) :
    fe.start fs access args = .ok (.stopped 0) := by
  simp [start, h]

theorem start_fault (fs : FileSystem) (access : String → Bool) {args : InputArgList}
    (h : FrontEnd.ld64.hasHelpFlag args = false) (hd : dangling isAstPath args = true) :
    FrontEnd.ld64.start fs access args = .error .iteratorPastEnd := by
  have hc : FrontEnd.ld64.collectObjectFiles fs args [] = .error .iteratorPastEnd :=
    (LD64OptTable.collect_dangling fs args [] [] hd).1
  simp [start, h, hc, bind, Except.bind]

theorem start_collected {fe : FrontEnd} {fs : FileSystem} (access : String → Bool)
    {args : InputArgList} {inputObjects : List String} (h : fe.hasHelpFlag args = false)
    (hc : fe.collectObjectFiles fs args [] = .ok inputObjects) :
    fe.start fs access args =
      if validateInputFiles access inputObjects then .ok (.started inputObjects)
      else .ok (.stopped 1) := by
  simp only [start, h, hc, bind, Except.bind, pure, Except.pure]
  rfl

end FrontEnd

section Exactness

variable {fe : FrontEnd} {fs : FileSystem} {args : InputArgList}

/-- If all filelists are read, every named object is contributed by its argument. -/
theorem FilelistsRead.ofArg_eq (hread : FilelistsRead fe fs args) (filelists : FilelistNames fs)
    {arg : Arg} (harg : arg ∈ fe.objectArgs args) :
    filelists.ofArg arg = objectsOf fs arg := by
  cases hin : arg.isOption .input
  · have hobj : arg.isObject = true := by
      cases fe with
      | ld64 =>
          simp only [FrontEnd.objectArgs, List.mem_map, List.mem_filter, Bool.and_eq_true] at harg
          obtain ⟨q, ⟨-, -, hq⟩, rfl⟩ := harg
          exact hq
      | clang => exact (List.mem_filter.mp harg).2
      | libtool => exact (List.mem_filter.mp harg).2
    have hfl : arg.isOption .filelist = true := by simpa [Arg.isObject, hin] using hobj
    obtain ⟨hcomma, buffer, hfs⟩ := hread arg harg hfl
    rw [FilelistNames.ofArg, hin, objectsOf_filelist hin hfs]
    exact filelists.names_eq _ _ hcomma hfs
  · rw [FilelistNames.ofArg, hin, objectsOf_input hin]
    rfl

/-- If some filelist is not read, its names can be such that an object is lost. -/
theorem exists_lost_of_not_filelistsRead (hread : ¬ FilelistsRead fe fs args)
    (inputObjects : List String) :
    ∃ filelists : FilelistNames fs, ∃ arg ∈ fe.objectArgs args,
      ∃ object ∈ filelists.ofArg arg, object ∉ inputObjects := by
  obtain ⟨object, hobject⟩ := Infinite.exists_notMem_finset inputObjects.toFinset
  rw [List.mem_toFinset] at hobject
  simp only [FilelistsRead, not_forall] at hread
  obtain ⟨arg, harg, hfl, hmiss⟩ := hread
  refine ⟨FilelistNames.missing fs object, arg, harg, object, ?_, hobject⟩
  have hin := Arg.isOption_of_ne hfl .input (by decide)
  by_cases hcomma : ',' ∈ arg.getValue.toList
  · simp [FilelistNames.ofArg, FilelistNames.missing, hin, hcomma]
  · cases hfs : fs arg.getValue with
    | none => simp [FilelistNames.ofArg, FilelistNames.missing, hin, hcomma, hfs]
    | some buffer => exact absurd ⟨hcomma, buffer, hfs⟩ hmiss

/-- **No silent loss.** No named object is dropped exactly if the help text is printed, or the
scan of the arguments ends and either an object that was collected cannot be accessed, which
stops the tool, or every filelist argument is a plain path of a readable file. -/
theorem nothingDropped_iff (fe : FrontEnd) (fs : FileSystem) (access : String → Bool)
    (args : InputArgList) :
    NothingDropped fe fs access args ↔
      fe.hasHelpFlag args = true ∨
        (fe.Scannable args ∧
          ((∃ arg ∈ fe.objectArgs args, ∃ object ∈ objectsOf fs arg, access object = false) ∨
            FilelistsRead fe fs args)) := by
  cases hhelp : fe.hasHelpFlag args
  case true =>
    simp only [true_or, iff_true]
    exact fun _ => Or.inl ⟨0, FrontEnd.start_help hhelp⟩
  by_cases hscan : fe.Scannable args
  · obtain ⟨inputObjects, hc, hmem⟩ := fe.collected_iff fs hscan
    have hstart := FrontEnd.start_collected access hhelp hc
    have hvalid : validateInputFiles access inputObjects = false ↔
        ∃ arg ∈ fe.objectArgs args, ∃ object ∈ objectsOf fs arg, access object = false := by
      simp only [validateInputFiles, List.all_eq_false, hmem, Bool.not_eq_true]
      constructor
      · rintro ⟨object, ⟨arg, harg, hobject⟩, haccess⟩
        exact ⟨arg, harg, object, hobject, haccess⟩
      · rintro ⟨arg, harg, object, hobject, haccess⟩
        exact ⟨object, ⟨arg, harg, hobject⟩, haccess⟩
    simp only [Bool.false_eq_true, false_or, hscan, true_and, ← hvalid]
    cases hv : validateInputFiles access inputObjects
    · simp only [true_or, iff_true]
      exact fun _ => Or.inl ⟨1, by simp [hstart, hv]⟩
    · rw [hv, if_pos rfl] at hstart
      simp only [Bool.true_eq_false, false_or]
      constructor
      · intro hnothing
        by_contra hread
        obtain ⟨filelists, arg, harg, object, hobject, hlost⟩ :=
          exists_lost_of_not_filelistsRead hread inputObjects
        rcases hnothing filelists with ⟨status, hstop⟩ | ⟨objects, hobjects, hall⟩
        · rw [hstart] at hstop
          cases hstop
        · rw [hstart] at hobjects
          cases hobjects
          exact hlost (hall arg harg object hobject)
      · intro hread filelists
        refine Or.inr ⟨inputObjects, hstart, ?_⟩
        intro arg harg object hobject
        rw [hread.ofArg_eq filelists harg] at hobject
        exact (hmem object).mpr ⟨arg, harg, hobject⟩
  · simp only [Bool.false_eq_true, false_or, hscan, false_and, iff_false]
    intro hnothing
    simp only [FrontEnd.Scannable, Classical.not_imp, Bool.not_eq_false] at hscan
    obtain ⟨rfl, hd⟩ := hscan
    have hstart := FrontEnd.start_fault fs access hhelp hd
    rcases hnothing (FilelistNames.missing fs "") with ⟨status, hstop⟩ | ⟨objects, hobjects, -⟩
    · rw [hstart] at hstop
      cases hstop
    · rw [hstart] at hobjects
      cases hobjects

end Exactness

section Example

/-- An object named directly beside a filelist that cannot be read. -/
def unreadArgs : InputArgList := parseFlat ["a.o", "-filelist", "objects"]

theorem not_nothingDropped_of_started {fe : FrontEnd}
    (hstart : fe.start (fun _ => none) (fun _ => true) unreadArgs = .ok (.started ["a.o"]))
    (harg : Arg.ofFilelist "objects" ∈ fe.objectArgs unreadArgs) :
    ¬ NothingDropped fe (fun _ => none) (fun _ => true) unreadArgs := by
  intro hnothing
  rcases hnothing (FilelistNames.missing _ "b.o") with ⟨status, hstop⟩ | ⟨objects, hobjects, hall⟩
  · rw [hstart] at hstop
    cases hstop
  · rw [hstart] at hobjects
    cases hobjects
    have hlost : "b.o" ∈ ["a.o"] := hall _ harg "b.o" (by decide)
    exact absurd hlost (by decide)

/-- The link goes on without the objects of the filelist, in every front end. -/
theorem not_nothingDropped_example :
    ¬ NothingDropped .ld64 (fun _ => none) (fun _ => true) unreadArgs ∧
      ¬ NothingDropped .clang (fun _ => none) (fun _ => true) unreadArgs ∧
      ¬ NothingDropped .libtool (fun _ => none) (fun _ => true) unreadArgs :=
  ⟨not_nothingDropped_of_started (by decide) (by decide),
    not_nothingDropped_of_started (by decide) (by decide),
    not_nothingDropped_of_started (by decide) (by decide)⟩

end Example

end MullXCTest.LinkCommand
