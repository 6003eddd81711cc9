import MullXCTest.LLVM.Path
import MullXCTest.Library.SetTable
import MullXCTest.Pipeline.EmbeddedBitcode

/-!
# The functions under test

`loadCoverage` and `getFunctionsUnderTest`: the names of the covered functions are
split at their first colon into two tables, and every function of the program is
looked up in both. A lookup in the scoped table inserts an entry for the scope.
-/

namespace MullXCTest.Pipeline

/-- What is read of an `llvm::coverage::FunctionRecord`. -/
structure FunctionRecord where
  name : String
  executionCount : Nat
  deriving DecidableEq, Repr

/-- What LLVM and mull tell about the bitcode of a program. -/
structure Symbols (Bitcode Function : Type) where
  getModule : Bitcode → List Function
  getName : Function → String
  /-- `SourceLocation::locationFromFunction(&function).unitFilePath`. -/
  unitFilePath : Function → String

/-- mull's `FunctionUnderTest`. -/
structure FunctionUnderTest (Bitcode Function : Type) where
  function : Function
  bitcode : Bitcode
  covered : Bool := true
  deriving DecidableEq, Repr

/-- `load` is `CoverageMapping::load`, with the messages of its error. -/
def loadCoverage (load : List String → String → Except (List String) (List FunctionRecord))
    (coverageInfo : String) (targetExecutables : List String) (diagnostics : Diagnostics) :
    Option (List FunctionRecord) × Diagnostics :=
  if coverageInfo.isEmpty then (none, diagnostics)
  else
    match load targetExecutables coverageInfo with
    | .error messages =>
        (none, diagnostics ++
          ["Cannot read coverage info: " ++ String.join (messages.map (· ++ "\n"))])
    | .ok coverage => (some coverage, diagnostics)

/-- The scope and the name in the name of a record. -/
def splitName (name : String) : String × String :=
  match name.toList.findIdx? (· = ':') with
  | none => ("", name)
  | some idx => (String.ofList (name.toList.take idx), String.ofList (name.toList.drop (idx + 1)))

/-- `scopedFunctions` and `unscopedFunctions`. -/
structure CoveredNames where
  scopedFunctions : SetTable String String := ∅
  unscopedFunctions : Finset String := ∅

/-- One round of the loop over the records. -/
def addRecord (names : CoveredNames) (it : FunctionRecord) : CoveredNames :=
  if it.executionCount = 0 then names
  else
    let (scope, name) := splitName it.name
    if scope.isEmpty then
      { names with unscopedFunctions := insert name names.unscopedFunctions }
    else
      { names with scopedFunctions := SetTable.add names.scopedFunctions scope name }

section Lookup

variable {Bitcode Function : Type} (symbols : Symbols Bitcode Function)

/-- The variable `covered` of a function, and the scoped table behind its lookup. -/
def lookupFunction (unscopedFunctions : Finset String) (scopedFunctions : SetTable String String)
    (function : Function) : Bool × SetTable String String :=
  let name := symbols.getName function
  if name ∈ unscopedFunctions then (true, scopedFunctions)
  else
    let scope := LLVM.filename (symbols.unitFilePath function)
    let (functions, scopedFunctions) := SetTable.subscript scopedFunctions scope
    (decide (name ∈ functions), scopedFunctions)

/-- The scoped table and the functions so far. -/
abbrev Selection (Bitcode Function : Type) :=
  SetTable String String × List (FunctionUnderTest Bitcode Function)

/-- One round of the loop over the functions of a module. -/
def selectFunction (unscopedFunctions : Finset String) (includeNotCovered : Bool)
    (bitcode : Bitcode) (state : Selection Bitcode Function) (function : Function) :
    Selection Bitcode Function :=
  let (covered, scopedFunctions) := lookupFunction symbols unscopedFunctions state.1 function
  if covered then (scopedFunctions, state.2 ++ [{ function, bitcode }])
  else if includeNotCovered then
    (scopedFunctions, state.2 ++ [{ function, bitcode, covered := false }])
  else (scopedFunctions, state.2)

def getFunctionsUnderTest (includeNotCovered : Bool) (coverage : Option (List FunctionRecord))
    (program : List Bitcode) : List (FunctionUnderTest Bitcode Function) :=
  match coverage with
  | some records =>
      let names := records.foldl addRecord {}
      (program.foldl
        (fun state bitcode => (symbols.getModule bitcode).foldl
          (selectFunction symbols names.unscopedFunctions includeNotCovered bitcode) state)
        (names.scopedFunctions, [])).2
  | none =>
      program.flatMap fun bitcode =>
        (symbols.getModule bitcode).map fun function => { function, bitcode }

end Lookup

end MullXCTest.Pipeline
