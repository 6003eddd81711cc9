import MullXCTest.LinkCommand.Taken

/-!
# The order of the collected objects

The loop of `LD64OptTable` keeps the order of the command line. The two passes of
`ClangOptTable` and mull-libtool move all inputs in front of all filelists, which is
the same order only where no input stands behind a filelist.
-/

namespace MullXCTest.LinkCommand

/-- The objects in command line order, every filelist expanded in place. -/
def inOrder (fs : FileSystem) (args : InputArgList) : List String :=
  (args.filter Arg.isObject).flatMap (objectsOf fs)

/-- All filelists can be read. -/
def FilelistsReadable (fs : FileSystem) (args : InputArgList) : Prop :=
  ∀ arg ∈ args, arg.isOption .filelist = true → ∃ buffer, fs arg.getValue = some buffer

/-- All front ends collect the objects in command line order. -/
def OrderKept (args : InputArgList) : Prop :=
  ∀ fs, FilelistsReadable fs args → ∀ fe : FrontEnd,
    fe.collectObjectFiles fs args [] = .ok (inOrder fs args)

/-- No input stands behind a filelist. -/
def InputsFirst (args : InputArgList) : Prop :=
  args.Pairwise fun arg arg' => ¬ (arg.isOption .filelist = true ∧ arg'.isOption .input = true)

instance (args : InputArgList) : Decidable (InputsFirst args) :=
  inferInstanceAs (Decidable (args.Pairwise _))

section Order

variable {fs : FileSystem} {args : InputArgList}

theorem LD64OptTable.collectObjectFiles_inOrder
    (h : ∀ arg ∈ args, arg.isOption .addAstPath = false) (objectFiles : List String) :
    LD64OptTable.collectObjectFiles fs args objectFiles =
      .ok (objectFiles ++ inOrder fs args) := by
  induction args generalizing objectFiles with
  | nil => simp [LD64OptTable.collectObjectFiles, inOrder]
  | cons arg rest ih =>
      have hrest := ih fun a ha => h a (List.mem_cons_of_mem _ ha)
      rw [LD64OptTable.collectObjectFiles_cons (h arg List.mem_cons_self)]
      unfold inOrder at hrest ⊢
      cases hin : arg.isOption .input
      · cases hfl : arg.isOption .filelist
        · simp [hrest, Arg.isObject, hin, hfl]
        · simp [hrest, Arg.isObject, hin, hfl, readFilelistFile_eq hin]
      · simp [hrest, Arg.isObject, hin, objectsOf_input hin]

theorem filteredObjects_map_fst (ps : List Placed) :
    (filteredObjects ps).map Prod.fst =
      ((ps.map Prod.fst).filter fun arg => arg.isOption .input) ++
        (ps.map Prod.fst).filter fun arg => arg.isOption .filelist := by
  rw [filteredObjects, List.map_append, List.filter_map, List.filter_map]
  rfl

/-- The two passes, on arguments without their places. -/
theorem collectFiltered_nil (fs : FileSystem) (args : InputArgList) :
    collectFiltered fs args [] =
      ((args.filter fun arg => arg.isOption .input) ++
        args.filter fun arg => arg.isOption .filelist).flatMap (objectsOf fs) := by
  have hmap : args.zipIdx.map Prod.fst = args := List.zipIdx_map_fst 0 args
  have hplaced := collectFiltered_eq fs args.zipIdx []
  have hpasses := filteredObjects_map_fst args.zipIdx
  rw [hmap] at hplaced hpasses
  rw [hplaced, ← hpasses, List.flatMap_map]
  rfl

/-- Moving the inputs to the front changes nothing if they are there. -/
theorem filter_append_filter (h : InputsFirst args) :
    ((args.filter fun arg => arg.isOption .input) ++
      args.filter fun arg => arg.isOption .filelist) = args.filter Arg.isObject := by
  induction args with
  | nil => rfl
  | cons arg rest ih =>
      obtain ⟨hfirst, hrest⟩ := List.pairwise_cons.mp h
      cases hin : arg.isOption .input
      · cases hfl : arg.isOption .filelist
        · simpa [List.filter_cons, hin, hfl, Arg.isObject] using ih hrest
        · have hnone : rest.filter (fun arg => arg.isOption .input) = [] := by
            rw [List.filter_eq_nil_iff]
            exact fun a ha hinput => hfirst a ha ⟨hfl, hinput⟩
          have hih := ih hrest
          rw [hnone, List.nil_append] at hih
          simp [hin, hfl, Arg.isObject, hnone, hih]
      · have hfl := Arg.isOption_of_ne hin .filelist (by decide)
        simpa [List.filter_cons, hin, hfl, Arg.isObject] using ih hrest

theorem orderKept_of_inputsFirst (h : ∀ arg ∈ args, arg.isOption .addAstPath = false)
    (first : InputsFirst args) : OrderKept args := by
  intro fs _ fe
  have hfiltered : collectFiltered fs args [] = inOrder fs args := by
    rw [collectFiltered_nil, filter_append_filter first, inOrder]
  cases fe with
  | ld64 => exact LD64OptTable.collectObjectFiles_inOrder h []
  | clang => exact congrArg Except.ok hfiltered
  | libtool => exact congrArg Except.ok hfiltered

end Order

section Fresh

variable {args : InputArgList} {arg : Arg}

/-- A path that is not among the values of the arguments: it is longer than each of them. -/
def freshPath (args : InputArgList) : String :=
  let values := (args.map fun arg => arg.getValue.toList).flatten
  String.ofList (List.replicate (values.length + 1) 'o')

theorem freshPath_ne (h : arg ∈ args) : arg.getValue ≠ freshPath args := by
  intro heq
  have hsub : arg.getValue.toList.Sublist (args.map fun arg => arg.getValue.toList).flatten :=
    List.sublist_flatten_of_mem (List.mem_map_of_mem h)
  have hle := hsub.length_le
  rw [heq, freshPath, String.toList_ofList, List.length_replicate] at hle
  omega

theorem listable_freshPath (args : InputArgList) : Listable (freshPath args) where
  nonempty := by simp [freshPath]
  no_newline := by simp [freshPath]
  no_trailing := by
    rw [freshPath, String.toList_ofList, rtrim, List.rdropWhile_eq_self_iff]
    intro hne
    rw [List.getLast_replicate]
    decide

/-- Every file is a filelist with the fresh path alone. -/
def freshFiles (args : InputArgList) : FileSystem :=
  fun _ => some (filelistText [freshPath args])

theorem filelistsReadable_freshFiles (args : InputArgList) :
    FilelistsReadable (freshFiles args) args :=
  fun _ _ _ => ⟨_, rfl⟩

theorem objectsOf_freshFiles (h : arg.isOption .filelist = true) :
    objectsOf (freshFiles args) arg = [freshPath args] := by
  have hread : (freshFiles args) arg.getValue = some (filelistText [freshPath args]) := rfl
  have hin := Arg.isOption_of_ne h .input (by decide)
  rw [objectsOf_filelist hin hread]
  apply filelistLines_filelistText
  intro path hpath
  rw [List.mem_singleton.mp hpath]
  exact listable_freshPath args

/-- No collected path stands behind the fresh one, the fresh one apart. -/
def FreshLast (args : InputArgList) (objectFiles : List String) : Prop :=
  objectFiles.Pairwise fun first second => ¬ (first = freshPath args ∧ second ≠ freshPath args)

theorem freshLast_collectFiltered (args : InputArgList) :
    FreshLast args (collectFiltered (freshFiles args) args []) := by
  rw [collectFiltered_nil, List.flatMap_append]
  have hinputs : ∀ path ∈ (args.filter fun arg => arg.isOption .input).flatMap
      (objectsOf (freshFiles args)), path ≠ freshPath args := by
    intro path hpath
    obtain ⟨arg, harg, hof⟩ := List.mem_flatMap.mp hpath
    obtain ⟨hmem, hin⟩ := List.mem_filter.mp harg
    rw [objectsOf_input hin, List.mem_singleton] at hof
    rw [hof]
    exact freshPath_ne hmem
  have hfilelists : ∀ path ∈ (args.filter fun arg => arg.isOption .filelist).flatMap
      (objectsOf (freshFiles args)), path = freshPath args := by
    intro path hpath
    obtain ⟨arg, harg, hof⟩ := List.mem_flatMap.mp hpath
    rw [objectsOf_freshFiles (List.mem_filter.mp harg).2] at hof
    exact List.mem_singleton.mp hof
  apply List.pairwise_append.mpr
  refine ⟨List.pairwise_of_forall_mem_list ?_, List.pairwise_of_forall_mem_list ?_, ?_⟩
  · exact fun first hfirst _ _ hlast => hinputs first hfirst hlast.1
  · exact fun _ _ second hsecond hlast => hlast.2 (hfilelists second hsecond)
  · exact fun first hfirst _ _ hlast => hinputs first hfirst hlast.1

theorem inputsFirst_of_freshLast (h : FreshLast args (inOrder (freshFiles args) args)) :
    InputsFirst args := by
  obtain ⟨_, hpairs⟩ := List.pairwise_flatMap.mp h
  apply (List.pairwise_filter.mp hpairs).imp_of_mem
  intro arg arg' _ hmem' hlast hbehind
  obtain ⟨hfilelist, hinput⟩ := hbehind
  refine hlast (by simp [Arg.isObject, hfilelist]) (by simp [Arg.isObject, hinput])
    (freshPath args) ?_ arg'.getValue ?_ ⟨rfl, freshPath_ne hmem'⟩
  · rw [objectsOf_freshFiles hfilelist]
    exact List.mem_singleton_self _
  · rw [objectsOf_input hinput]
    exact List.mem_singleton_self _

end Fresh

/-- Without AST paths, the three front ends collect the objects in command line order from
every readable file system exactly if no input stands behind a filelist. -/
theorem orderKept_iff (args : InputArgList)
    (h : ∀ arg ∈ args, arg.isOption .addAstPath = false) :
    OrderKept args ↔ InputsFirst args := by
  constructor
  · intro kept
    have hcollected := kept _ (filelistsReadable_freshFiles args) .clang
    have hsame : collectFiltered (freshFiles args) args [] = inOrder (freshFiles args) args :=
      Except.ok.inj hcollected
    apply inputsFirst_of_freshLast
    rw [← hsame]
    exact freshLast_collectFiltered args
  · exact orderKept_of_inputsFirst h

/-- A filelist behind an input. -/
def inputThenFilelist : InputArgList := parseFlat ["a.o", "-filelist", "objects"]

theorem orderKept_iff_example : OrderKept inputThenFilelist :=
  (orderKept_iff inputThenFilelist (by decide)).mpr (by decide)

/-- A filelist in front of an input. -/
def filelistThenInput : InputArgList := parseFlat ["-filelist", "objects", "b.o"]

theorem not_orderKept_example : ¬ OrderKept filelistThenInput := by
  intro kept
  have hclang := kept (fun _ => some "a.o\n") (fun _ _ _ => ⟨_, rfl⟩) .clang
  revert hclang
  decide

end MullXCTest.LinkCommand
