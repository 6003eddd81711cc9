import MullXCTest.Pipeline.CoverageSelection
import MullXCTest.Pipeline.FilterStages

/-!
# Finding the mutation points

`findMutationPoints` puts the two selections in front of mull's finder: the functions
that the coverage judges to be under test, and those of them that no filter skips.
-/

namespace MullXCTest.Pipeline

variable {Module Function Point : Type}

/-- What `findMutationPoints` uses of LLVM, of mull and of the configuration. -/
structure Finder (Module Function Point : Type) where
  symbols : Symbols Module Function
  /-- `CoverageMapping::load`. -/
  load : List String → String → Except (List String) (List FunctionRecord)
  coverageInfo : String
  targetExecutables : List String
  includeNotCovered : Bool
  workers : Nat
  functionFilters : List (FunctionUnderTest Module Function → Bool)
  filterRunner : FilterRunner (FunctionUnderTest Module Function)
  /-- The executor of `InstructionSelectionTask`, which writes into the functions. -/
  selectInstructions :
    List (FunctionUnderTest Module Function) → List (FunctionUnderTest Module Function)
  getMutationPoints : List Module → List (FunctionUnderTest Module Function) → List Point

namespace MutationPipeline

def findMutationPoints (finder : Finder Module Function Point) (program : List Module)
    (diagnostics : Diagnostics) : List Point × Diagnostics :=
  let (coverage, diagnostics) :=
    loadCoverage finder.load finder.coverageInfo finder.targetExecutables diagnostics
  let functionsUnderTest :=
    getFunctionsUnderTest finder.symbols finder.includeNotCovered coverage program
  let filteredFunctions :=
    filterFunctions finder.filterRunner finder.workers finder.functionFilters functionsUnderTest
  (finder.getMutationPoints program (finder.selectInstructions filteredFunctions), diagnostics)

end MutationPipeline

end MullXCTest.Pipeline
