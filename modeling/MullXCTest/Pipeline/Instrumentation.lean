import MullXCTest.Library.Scatter
import MullXCTest.Pipeline.MutationPoints
import MullXCTest.SwiftSupport.RuntimeFunctionFilter
import MullXCTest.SwiftSupport.SyntaxIndex

/-!
# The instrumentation of a program

`MutationPipeline::run` with its stages: mutation points that belong to the bitcode
they were found in, the two filters that it sets up, the phases of `applyMutation` and
the compilation. What LLVM and mull do to one module, function or mutation point is a
parameter; the order in which the workers do it is not.
-/

namespace MullXCTest.Pipeline

open SwiftSupport SwiftSupport.SyntaxMutationFinder Scatter

/-- LLVM's and mull's parts and the settings. A `Site` is a mutation point without its bitcode. -/
structure Parts (Module Function Site : Type) where
  readers : Readers Module
  symbols : Symbols Module Function
  /-- `CoverageMapping::load`. -/
  load : List String → String → Except (List String) (List FunctionRecord)
  coverageInfo : String
  targetExecutables : List String
  includeNotCovered : Bool
  functionFilters : List (FunctionUnderTest Module Function → Bool)
  /-- The mutation points of mull's mutators in the selected instructions of a function. -/
  getMutationPoints : FunctionUnderTest Module Function → List Site
  mutationFilters : List (Site → Bool)
  mutatorKind : Site → MutatorKind
  originalValue : Site → OriginalValue
  filePath : Site → String
  enableSyntaxFilter : Bool
  parse : SyntaxParser
  /-- `shouldSkip` of mull's `ASTMutationFilter`. -/
  astShouldSkip : ASTMutationStorage → Site → Bool
  /-- The tasks on a bitcode with the mutations that were added to it. -/
  cloneMutatedFunctions : List Site → Module → Module
  deleteOriginalFunctions : List Site → Module → Module
  insertMutationTrampolines : List Site → Module → Module
  applyMutation : Site → Module → Module
  /-- The object file that `OriginalCompilationTask` makes of one module. -/
  compile : Module → String

/-- A bitcode is told from the others by its position in the program. -/
abbrev Bitcode (Module : Type) := Module × Nat

/-- A mutation point, with the position of its bitcode. -/
abbrev MutationPoint (Site : Type) := Site × Nat

/-- mull's executors. -/
structure Executors (Module Function Site : Type) where
  workers : Nat
  functionRunner : FilterRunner (FunctionUnderTest (Bitcode Module) Function)
  /-- The executor of `InstructionSelectionTask`, which writes into the functions. -/
  selectInstructions : List (FunctionUnderTest (Bitcode Module) Function) →
    List (FunctionUnderTest (Bitcode Module) Function)
  /-- `getMutationPoints` of mull's finder. -/
  getMutationPoints : List (Bitcode Module) →
    List (FunctionUnderTest (Bitcode Module) Function) → List (MutationPoint Site)
  pointRunner : FilterRunner (MutationPoint Site)
  taskBatches : Nat → Nat → List Nat
  mutantCompiler : List Module → List String → List String

namespace Parts

variable {Module Function Site : Type} (parts : Parts Module Function Site)
  (executors : Executors Module Function Site)

/-- A function under test without the position of its bitcode. -/
def forget (f : FunctionUnderTest (Bitcode Module) Function) : FunctionUnderTest Module Function :=
  ⟨f.function, f.bitcode.1, f.covered⟩

def finder : Finder (Bitcode Module) Function (MutationPoint Site) where
  symbols :=
    { getModule := fun bitcode => parts.symbols.getModule bitcode.1
      getName := parts.symbols.getName
      unitFilePath := parts.symbols.unitFilePath }
  load := parts.load
  coverageInfo := parts.coverageInfo
  targetExecutables := parts.targetExecutables
  includeNotCovered := parts.includeNotCovered
  workers := executors.workers
  functionFilters := parts.functionFilters.map fun shouldSkip f => shouldSkip (forget f)
  filterRunner := executors.functionRunner
  selectInstructions := executors.selectInstructions
  getMutationPoints := executors.getMutationPoints

def findMutationPoints (program : List Module) : List (MutationPoint Site) :=
  (MutationPipeline.findMutationPoints (finder parts executors) program.zipIdx []).1

/-- `shouldSkip` of the filter that `setupSwiftFilter` adds. -/
def runtimeFunctionFilter (site : Site) : Bool :=
  RuntimeFunctionFilter.shouldSkip (parts.mutatorKind site) (parts.originalValue site) == some true

/-- What `setupSyntaxFilter` can leave in the storage of its filter. -/
def SyntaxStorage (mutationPoints : List (MutationPoint Site)) (storage : ASTMutationStorage) :
    Prop :=
  findMutations parts.parse executors.taskBatches executors.workers
    (mutationPoints.map fun point => parts.filePath point.1).toFinset ∅ storage

/-- `filters.mutationFilters` behind `setupSwiftFilter` and `setupSyntaxFilter`. -/
def allMutationFilters (storage : ASTMutationStorage) : List (Site → Bool) :=
  parts.mutationFilters ++ [parts.runtimeFunctionFilter] ++
    if parts.enableSyntaxFilter then [parts.astShouldSkip storage] else []

def filterMutations (storage : ASTMutationStorage) (mutationPoints : List (MutationPoint Site)) :
    List (MutationPoint Site) :=
  (parts.allMutationFilters storage).foldl
    (fun mutations filter => executors.pointRunner.pass executors.workers
      (fun point => filter point.1) mutations) mutationPoints

/-- The three phases run over all bitcodes, one after the other, and one task applies the points. -/
def applyMutationPoints (program : List Module) (mutationPoints : List (MutationPoint Site)) :
    List Module :=
  -- `addMutation`
  let mutations := scatter (fun site sites => sites ++ [site]) mutationPoints
    (program.map fun _ => [])
  let program := List.zipWith parts.cloneMutatedFunctions mutations program
  let program := List.zipWith parts.deleteOriginalFunctions mutations program
  let program := List.zipWith parts.insertMutationTrampolines mutations program
  scatter parts.applyMutation mutationPoints program

/-- The mutation points in the functions of one module. -/
def ownPoints (module : Module) : List Site :=
  let coverage := (loadCoverage parts.load parts.coverageInfo parts.targetExecutables []).1
  (unskipped parts.functionFilters
    (getFunctionsUnderTest parts.symbols parts.includeNotCovered coverage [module])).flatMap
      parts.getMutationPoints

/-- The syntax filter with an index of the file of the point alone. -/
def ownSyntaxFilter (site : Site) : Bool :=
  parts.astShouldSkip (indexSwiftSource parts.parse (parts.filePath site) ∅).1 site

/-- The points of one module that no filter skips. -/
def ownSurvivors (module : Module) : List Site :=
  unskipped
    (parts.mutationFilters ++ [parts.runtimeFunctionFilter] ++
      if parts.enableSyntaxFilter then [parts.ownSyntaxFilter] else [])
    (parts.ownPoints module)

/-- The phases on one module and its points. -/
def instrument (module : Module) (sites : List Site) : Module :=
  sites.foldl (fun module site => parts.applyMutation site module)
    (parts.insertMutationTrampolines sites
      (parts.deleteOriginalFunctions sites (parts.cloneMutatedFunctions sites module)))

/-- The pipeline in which every module is treated alone. -/
def environment : Environment Module Site where
  readers := parts.readers
  findMutationPoints := fun program => program.flatMap parts.ownPoints
  mutationFilters := parts.mutationFilters
  runtimeFunctionFilter := parts.runtimeFunctionFilter
  enableSyntaxFilter := parts.enableSyntaxFilter
  astMutationFilter := fun _ => parts.ownSyntaxFilter
  filterRunner := fun shouldSkip points => points.filter fun point => !shouldSkip point
  applyMutation := fun _ module => parts.instrument module (parts.ownSurvivors module)
  compile := parts.compile
  mutantCompiler := fun modules output => output ++ modules.map parts.compile

/-- `MutationPipeline::run` for some interleaving of the workers. Of the environment the loop over
the inputs uses the readers alone. -/
def Runs (inputObjects result : List String) : Prop :=
  let state := inputObjects.foldl (MutationPipeline.extractInput parts.environment) {}
  let program := state.bitcode
  let mutationPoints := findMutationPoints parts executors program
  ∃ storage,
    (parts.enableSyntaxFilter = true → SyntaxStorage parts executors mutationPoints storage) ∧
      let filtered := filterMutations parts executors storage mutationPoints
      result =
        if filtered.isEmpty then inputObjects
        else executors.mutantCompiler (applyMutationPoints parts program filtered)
          state.outputObjectFiles

end Parts

end MullXCTest.Pipeline
