import MullXCTest.Pipeline.Instrumentation

/-!
# Instrumentation is local

No stage of the pipeline lets one bitcode see another: the coverage is judged function
by function, the points keep their bitcodes, the syntax index has one entry a file, and
the phases change a bitcode by its own points. What is left of the program is whether
any point survives at all.
-/

namespace MullXCTest.Pipeline

open SwiftSupport SwiftSupport.SyntaxMutationFinder Scatter TaskExecutor

namespace Parts

variable {Module Function Site : Type} {parts : Parts Module Function Site}
  {executors : Executors Module Function Site}

/-- What is assumed of mull: its executors run their tasks on consecutive batches, its finder looks
at one function after the other, it removes calls at instructions only, and its syntax filter
reads the entry for the file of a point. -/
structure Assumed (parts : Parts Module Function Site)
    (executors : Executors Module Function Site) : Prop where
  workers_pos : 0 < executors.workers
  functions : executors.functionRunner.Assumed
  points : executors.pointRunner.Assumed
  covers : Covers executors.taskBatches
  compiles : ∀ modules output,
    executors.mutantCompiler modules output = output ++ modules.map parts.compile
  finds : ∀ program functions,
    executors.getMutationPoints program (executors.selectInstructions functions) =
      functions.flatMap fun f =>
        (parts.getMutationPoints (forget f)).map fun site => (site, f.bitcode.2)
  instructions : ∀ site, parts.mutatorKind site = .cxxRemoveVoidCall →
    parts.originalValue site ≠ .other
  reads_own_entry : ∀ storage storage' site,
    storage.lookup (parts.filePath site) = storage'.lookup (parts.filePath site) →
      parts.astShouldSkip storage site = parts.astShouldSkip storage' site

/-- A function under test with the position of its bitcode. -/
def place (i : Nat) (f : FunctionUnderTest Module Function) :
    FunctionUnderTest (Bitcode Module) Function :=
  ⟨f.function, (f.bitcode, i), f.covered⟩

/-- Without the records of a function elsewhere its bitcode selects the same functions. -/
theorem getFunctionsUnderTest_zipIdx (coverage : Option (List FunctionRecord))
    (program : List Module) :
    getFunctionsUnderTest (finder parts executors).symbols parts.includeNotCovered coverage
        program.zipIdx =
      program.zipIdx.flatMap fun bitcode =>
        (getFunctionsUnderTest parts.symbols parts.includeNotCovered coverage
          [bitcode.1]).map (place bitcode.2) := by
  cases coverage with
  | none =>
      simp only [getFunctionsUnderTest, List.flatMap_cons, List.flatMap_nil, List.append_nil,
        List.map_map]
      rfl
  | some records =>
      have hjudged : ∀ (function : Function) (bitcode : Bitcode Module),
          judged (finder parts executors).symbols parts.includeNotCovered records
              (function, bitcode) =
            (judged parts.symbols parts.includeNotCovered records (function, bitcode.1)).map
              (place bitcode.2) := by
        intro function bitcode
        have hcovered : Covered (finder parts executors).symbols records function ↔
            Covered parts.symbols records function := Iff.rfl
        simp only [judged, hcovered]
        split_ifs <;> rfl
      simp only [getFunctionsUnderTest_eq, programFunctions, List.flatMap_cons, List.flatMap_nil,
        List.append_nil, List.filterMap_flatMap, List.filterMap_map, List.map_filterMap]
      congr 1
      funext bitcode
      congr 1
      funext function
      exact hjudged function bitcode

theorem unskipped_place (i : Nat) (functions : List (FunctionUnderTest Module Function)) :
    unskipped (parts.functionFilters.map fun shouldSkip f => shouldSkip (forget f))
        (functions.map (place i)) =
      (unskipped parts.functionFilters functions).map (place i) := by
  simp only [unskipped, List.filter_map, List.all_map]
  rfl

/-- The coverage that is loaded for the program. -/
def coverage (parts : Parts Module Function Site) : Option (List FunctionRecord) :=
  (loadCoverage parts.load parts.coverageInfo parts.targetExecutables []).1

/-- The points are found bitcode by bitcode. -/
theorem findMutationPoints_eq (assumed : Assumed parts executors) (program : List Module) :
    findMutationPoints parts executors program = tagged parts.ownPoints program := by
  have hfind : findMutationPoints parts executors program =
      (MutationPipeline.filterFunctions executors.functionRunner executors.workers
        (parts.functionFilters.map fun shouldSkip f => shouldSkip (forget f))
        (getFunctionsUnderTest (finder parts executors).symbols parts.includeNotCovered
          parts.coverage program.zipIdx)).flatMap fun f =>
            (parts.getMutationPoints (forget f)).map fun site => (site, f.bitcode.2) :=
    assumed.finds _ _
  rw [hfind, MutationPipeline.filterFunctions, foldl_pass assumed.functions assumed.workers_pos,
    getFunctionsUnderTest_zipIdx, unskipped, List.filter_flatMap, List.flatMap_assoc, tagged]
  congr 1
  funext bitcode
  have hplace := @unskipped_place _ _ _ parts bitcode.2
    (getFunctionsUnderTest parts.symbols parts.includeNotCovered parts.coverage [bitcode.1])
  rw [unskipped] at hplace
  rw [hplace, List.flatMap_map, ownPoints, List.map_flatMap]
  rfl

theorem decodeCString_idem (path : String) :
    decodeCString (decodeCString path) = decodeCString path := by
  simp [decodeCString, List.takeWhile_takeWhile]

/-- The storage of the syntax filter answers for a point as an index of its file alone. -/
theorem astShouldSkip_eq (assumed : Assumed parts executors)
    {mutationPoints : List (MutationPoint Site)} {storage : ASTMutationStorage}
    (h : SyntaxStorage parts executors mutationPoints storage) {point : MutationPoint Site}
    (hmem : point ∈ mutationPoints) :
    parts.astShouldSkip storage point.1 = parts.ownSyntaxFilter point.1 := by
  apply assumed.reads_own_entry
  rw [lookup_findMutations assumed.covers assumed.workers_pos h, lookup_IndexSwiftSource]
  have hsource : parts.filePath point.1 ∈
      (mutationPoints.map fun point => parts.filePath point.1).toFinset := by
    rw [List.mem_toFinset]
    exact List.mem_map_of_mem hmem
  have hindexed : parts.filePath point.1 ∈
        (mutationPoints.map fun point => parts.filePath point.1).toFinset.image decodeCString ↔
      parts.filePath point.1 = decodeCString (parts.filePath point.1) := by
    constructor
    · intro himage
      obtain ⟨path, -, hpath⟩ := Finset.mem_image.mp himage
      rw [← hpath, decodeCString_idem]
    · intro hself
      exact Finset.mem_image.mpr ⟨_, hsource, hself.symm⟩
  simp only [hindexed]
  rfl

/-- The filters keep of the points what they keep of each module alone. -/
theorem filterMutations_eq (assumed : Assumed parts executors) {program : List Module}
    {storage : ASTMutationStorage}
    (h : parts.enableSyntaxFilter = true →
      SyntaxStorage parts executors (findMutationPoints parts executors program) storage) :
    filterMutations parts executors storage (findMutationPoints parts executors program) =
      tagged parts.ownSurvivors program := by
  have hstage : filterMutations parts executors storage
      (findMutationPoints parts executors program) =
        unskipped ((parts.allMutationFilters storage).map fun filter point => filter point.1)
          (findMutationPoints parts executors program) := by
    rw [← foldl_pass assumed.points assumed.workers_pos, List.foldl_map]
    rfl
  have hown : parts.ownSurvivors = fun module => (parts.ownPoints module).filter fun site =>
      (parts.mutationFilters ++ [parts.runtimeFunctionFilter] ++
        if parts.enableSyntaxFilter then [parts.ownSyntaxFilter] else []).all
          fun shouldSkip => !shouldSkip site := rfl
  rw [hstage, hown, ← filter_tagged, ← findMutationPoints_eq assumed, unskipped]
  apply List.filter_congr
  intro point hmem
  rw [List.all_map, allMutationFilters]
  cases henabled : parts.enableSyntaxFilter with
  | false => rfl
  | true =>
      have hast := astShouldSkip_eq assumed (h henabled) hmem
      simp [hast]
      rfl

/-- The phases change each module by its own points. -/
theorem applyMutationPoints_tagged (g : Module → List Site) (program : List Module) :
    applyMutationPoints parts program (tagged g program) =
      program.map fun module => parts.instrument module (g module) := by
  have hadded : scatter (fun site sites => sites ++ [site]) (tagged g program)
      (program.map fun _ => []) = program.map g := by
    rw [scatter_tagged _ _ (List.length_map _), List.zipWith_map_right, List.zipWith_self]
    congr 1
    funext module
    rw [List.foldl_append_eq_append, List.nil_append, ← List.flatMap_def]
    exact List.flatMap_singleton' (g module)
  rw [applyMutationPoints, hadded]
  simp only [List.zipWith_map_left, List.zipWith_self, List.zipWith_map_right]
  rw [scatter_tagged _ _ (List.length_map _), List.zipWith_map_right, List.zipWith_self]
  rfl

/-- The assertion of the filter that `setupSwiftFilter` adds does not fail. -/
theorem shouldSkip_eq (assumed : Assumed parts executors) (site : Site) :
    RuntimeFunctionFilter.shouldSkip (parts.mutatorKind site) (parts.originalValue site) =
      some (parts.runtimeFunctionFilter site) := by
  unfold runtimeFunctionFilter
  cases hskip : RuntimeFunctionFilter.shouldSkip (parts.mutatorKind site)
      (parts.originalValue site) with
  | none =>
      obtain ⟨hkind, hvalue⟩ := RuntimeFunctionFilter.shouldSkip_eq_none.mp hskip
      exact absurd hvalue (assumed.instructions site hkind)
  | some skipped => cases skipped <;> rfl

theorem runtimeFunctionFilter_eq_true {site : Site} :
    parts.runtimeFunctionFilter site = true ↔
      RuntimeFunctionFilter.OfRuntime (parts.mutatorKind site) (parts.originalValue site) := by
  rw [runtimeFunctionFilter, beq_iff_eq, RuntimeFunctionFilter.shouldSkip_eq_true]

/-- Why a point of a module survives. -/
theorem mem_ownSurvivors_iff {module : Module} {site : Site} :
    site ∈ parts.ownSurvivors module ↔
      site ∈ parts.ownPoints module ∧
        (∀ shouldSkip ∈ parts.mutationFilters, shouldSkip site = false) ∧
        ¬ RuntimeFunctionFilter.OfRuntime (parts.mutatorKind site) (parts.originalValue site) ∧
        (parts.enableSyntaxFilter = true → parts.ownSyntaxFilter site = false) := by
  rw [← runtimeFunctionFilter_eq_true, ownSurvivors, unskipped, List.mem_filter, List.all_append,
    List.all_append, Bool.and_eq_true, Bool.and_eq_true, and_assoc]
  apply and_congr_right
  intro _
  apply and_congr
  · simp
  · apply and_congr
    · simp
    · cases parts.enableSyntaxFilter <;> simp

/-- **Which mutation points survive.** Whatever the interleaving in which the syntax index is
made, a point of a bitcode survives exactly if it is found in that bitcode, no filter of the
configuration skips it, it does not remove a call into the Swift runtime, and the index of
its own source file has it; no assertion of the filters fails. -/
theorem filterMutations_survivors_iff (assumed : Assumed parts executors) (program : List Module)
    {storage : ASTMutationStorage}
    (h : parts.enableSyntaxFilter = true →
      SyntaxStorage parts executors (findMutationPoints parts executors program) storage)
    (site : Site) (i : Nat) :
    RuntimeFunctionFilter.shouldSkip (parts.mutatorKind site) (parts.originalValue site) ≠ none ∧
      ((site, i) ∈ filterMutations parts executors storage
          (findMutationPoints parts executors program) ↔
        ∃ module, program[i]? = some module ∧ site ∈ parts.ownPoints module ∧
          (∀ shouldSkip ∈ parts.mutationFilters, shouldSkip site = false) ∧
          ¬ RuntimeFunctionFilter.OfRuntime (parts.mutatorKind site)
            (parts.originalValue site) ∧
          (parts.enableSyntaxFilter = true → parts.ownSyntaxFilter site = false)) := by
  constructor
  · rw [shouldSkip_eq assumed]
    exact Option.some_ne_none _
  · rw [filterMutations_eq assumed h, mem_tagged_iff]
    simp only [mem_ownSurvivors_iff]

/-- Some mutation point in the module of the input survives. -/
def Mutated (parts : Parts Module Function Site) (inputFile : String) : Prop :=
  ∃ module, loadedModule parts.readers inputFile = some module ∧ parts.ownSurvivors module ≠ []

/-- The object that is compiled in place of an input with a module. -/
def recompiled (parts : Parts Module Function Site) (inputFile : String) : Option String :=
  (loadedModule parts.readers inputFile).map fun module =>
    parts.compile (parts.instrument module (parts.ownSurvivors module))

/-- Some interleaving of the indexing workers comes to its end. -/
theorem exists_syntaxStorage (assumed : Assumed parts executors)
    (mutationPoints : List (MutationPoint Site)) :
    ∃ storage, SyntaxStorage parts executors mutationPoints storage := by
  have hindexer := @assumed_indexer parts.parse _ _
    (mutationPoints.map fun point => parts.filePath point.1).toFinset assumed.covers
    assumed.workers_pos
  obtain ⟨s, hreachable, hfinal⟩ := Transition.exists_final PthreadTaskExecutor.step_wellFounded
    (PthreadTaskExecutor.start (indexer parts.parse executors.taskBatches executors.workers
      (mutationPoints.map fun point => parts.filePath point.1).toFinset))
  exact ⟨_, s, hreachable, PthreadTaskExecutor.returned_of_final hindexer.splits counts_indexer
    hreachable hfinal, rfl⟩

/-- The pipeline in which each module is treated alone, by its own filters. -/
theorem filteredMutations_environment (program : List Module) :
    MutationPipeline.filteredMutations parts.environment program =
      program.flatMap parts.ownSurvivors := by
  have hstage : ∀ (filters : List (Site → Bool)) (points : List Site),
      MutationPipeline.filterMutations parts.environment filters points =
        unskipped filters points := by
    intro filters
    induction filters with
    | nil => simp [MutationPipeline.filterMutations, unskipped]
    | cons filter rest ih =>
        intro points
        refine (ih _).trans ?_
        simp [environment, unskipped, List.filter_filter, Bool.and_comm]
  rw [MutationPipeline.filteredMutations, hstage]
  simp only [environment, unskipped, List.filter_flatMap]
  congr 1
  funext module
  rw [ownSurvivors, unskipped]
  by_cases henabled : parts.enableSyntaxFilter = true
  · simp [henabled]
  · simp [henabled]

/-- Every run gives what the pipeline gives in which each module is treated alone. -/
theorem runs_eq (assumed : Assumed parts executors) {inputObjects result : List String}
    (h : Runs parts executors inputObjects result) :
    result = MutationPipeline.run parts.environment inputObjects := by
  obtain ⟨storage, hstorage, rfl⟩ := h
  obtain ⟨hout, hbit⟩ := MutationPipeline.foldl_extractInput parts.environment inputObjects {}
  rw [List.nil_append] at hout hbit
  rw [hbit] at hstorage
  rw [MutationPipeline.run_eq, hbit, hout, filterMutations_eq assumed hstorage,
    applyMutationPoints_tagged, assumed.compiles]
  dsimp only
  rw [filteredMutations_environment, ← map_fst_tagged, List.isEmpty_map]
  rfl

theorem mutated_iff {inputObjects : List String} :
    (inputObjects.filterMap (loadedModule parts.readers)).flatMap parts.ownSurvivors ≠ [] ↔
      ∃ inputFile ∈ inputObjects, parts.Mutated inputFile := by
  simp only [ne_eq, List.flatMap_eq_nil_iff, List.mem_filterMap, Mutated, not_forall,
    exists_prop]
  constructor
  · rintro ⟨module, ⟨inputFile, hmem, hloaded⟩, hne⟩
    exact ⟨inputFile, hmem, module, hloaded, hne⟩
  · rintro ⟨inputFile, hmem, module, hloaded, hne⟩
    exact ⟨module, ⟨inputFile, hmem, hloaded⟩, hne⟩

/-- **Instrumentation is local.** With any workers, batches and interleavings the pipeline is the
one in which each module is treated alone. What is compiled in place of an input depends on
that input alone; the other inputs of the command line only decide, all together, whether
anything is compiled at all. -/
theorem instrumentation_local (assumed : Assumed parts executors) (inputObjects : List String) :
    (∃ result, Runs parts executors inputObjects result) ∧
      ∀ result, Runs parts executors inputObjects result →
        result = MutationPipeline.run parts.environment inputObjects ∧
          ((¬ ∃ inputFile ∈ inputObjects, parts.Mutated inputFile) → result = inputObjects) ∧
          ((∃ inputFile ∈ inputObjects, parts.Mutated inputFile) →
            result =
              (inputObjects.filter fun inputFile => (parts.recompiled inputFile).isNone) ++
                inputObjects.filterMap parts.recompiled) := by
  constructor
  · obtain ⟨storage, hstorage⟩ := exists_syntaxStorage assumed
      (findMutationPoints parts executors
        (inputObjects.foldl (MutationPipeline.extractInput parts.environment) {}).bitcode)
    exact ⟨_, storage, fun _ => hstorage, rfl⟩
  · intro result h
    have heq := runs_eq assumed h
    refine ⟨heq, ?_⟩
    rw [heq, MutationPipeline.run_eq]
    dsimp only
    rw [filteredMutations_environment, ← mutated_iff]
    constructor
    · intro hnone
      rw [not_not] at hnone
      exact if_pos (List.isEmpty_iff.mpr hnone)
    · intro hsome
      refine (if_neg fun hempty => hsome (List.isEmpty_iff.mp hempty)).trans ?_
      have hpassed : (fun inputFile => (parts.recompiled inputFile).isNone) =
          fun inputFile => (loadedModule parts.readers inputFile).isNone := by
        funext inputFile
        exact Option.isNone_map
      have hcompiled : inputObjects.filterMap parts.recompiled =
          ((inputObjects.filterMap (loadedModule parts.readers)).map fun module =>
            parts.instrument module (parts.ownSurvivors module)).map parts.compile := by
        rw [List.map_filterMap, List.map_filterMap]
        congr 1
        funext inputFile
        rw [Option.map_map]
        rfl
      rw [hpassed, hcompiled]
      rfl

section Example

/-- Each module is one function with one call that can be removed; `a.swift` has one construct. -/
def exampleParts : Parts String String String where
  readers := MutationPipeline.exampleEnvironment.readers
  symbols := { getModule := fun module => [module], getName := id, unitFilePath := fun _ => "" }
  load := fun _ _ => .error []
  coverageInfo := ""
  targetExecutables := []
  includeNotCovered := false
  functionFilters := []
  getMutationPoints := fun f => [f.function]
  mutationFilters := [fun site => site == ""]
  mutatorKind := fun _ => .cxxRemoveVoidCall
  originalValue := fun _ => .call (some "$s4main1fyyF")
  filePath := fun _ => "a.swift"
  enableSyntaxFilter := true
  parse := exampleParser
  astShouldSkip := fun storage _ => decide ((storage.lookup "a.swift").getD ∅ = ∅)
  cloneMutatedFunctions := fun _ module => module
  deleteOriginalFunctions := fun _ module => module
  insertMutationTrampolines := fun _ module => module
  applyMutation := fun _ module => module ++ "+"
  compile := fun module => module ++ ".o"

def exampleExecutors : Executors String String String where
  workers := 2
  functionRunner := evenRunner
  selectInstructions := id
  getMutationPoints := fun _ functions => functions.map fun f => (f.function, f.bitcode.2)
  pointRunner := evenRunner
  taskBatches := PthreadTaskExecutor.evenBatches
  mutantCompiler := fun modules output => output ++ modules.map (· ++ ".o")

theorem assumed_example : Assumed exampleParts exampleExecutors where
  workers_pos := Nat.two_pos
  functions := assumed_evenRunner
  points := assumed_evenRunner
  covers := covers_evenBatches
  compiles _ _ := rfl
  finds _ functions := List.map_eq_flatMap
  instructions _ _ h := by cases h
  reads_own_entry storage storage' _ h := by
    simp only [exampleParts] at h ⊢
    rw [h]

theorem instrumentation_local_example :
    Runs exampleParts exampleExecutors ["a.o", "b.o", "a.o"] ["b.o", "module+.o", "module+.o"] := by
  obtain ⟨⟨result, hruns⟩, hall⟩ := instrumentation_local assumed_example ["a.o", "b.o", "a.o"]
  obtain ⟨-, -, hlocal⟩ := hall result hruns
  have hmutated : exampleParts.Mutated "a.o" := ⟨"module", rfl, by decide⟩
  have hresult := hlocal ⟨"a.o", List.mem_cons_self, hmutated⟩
  rwa [hresult] at hruns

theorem filterMutations_survivors_iff_example :
    ∃ storage, SyntaxStorage exampleParts exampleExecutors
        (findMutationPoints exampleParts exampleExecutors ["m", "n"]) storage ∧
      ("n", 1) ∈ filterMutations exampleParts exampleExecutors storage
        (findMutationPoints exampleParts exampleExecutors ["m", "n"]) := by
  obtain ⟨storage, hstorage⟩ := exists_syntaxStorage assumed_example
    (findMutationPoints exampleParts exampleExecutors ["m", "n"])
  refine ⟨storage, hstorage, ?_⟩
  apply (filterMutations_survivors_iff assumed_example ["m", "n"] (fun _ => hstorage) "n" 1).2.mpr
  refine ⟨"n", rfl, List.mem_cons_self, by decide, ?_, by decide⟩
  rintro ⟨-, name, hname, huser | hname'⟩
  · cases hname
    exact absurd huser (by decide)
  · cases hname
    exact absurd hname' (by decide)

end Example

end Parts

end MullXCTest.Pipeline
