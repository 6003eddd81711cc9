import MullXCTest.Pipeline.EmbeddedBitcode

/-!
# The mutation pipeline

`MutationPipeline::run` from the input objects to the objects for the linker.
The loop over the inputs fills the output vector before it is known whether any
mutation survives, and the early return ignores what is already in it.
-/

namespace MullXCTest.Pipeline

/-- What the pipeline uses of mull and of its configuration. -/
structure Environment (Module Point : Type) where
  readers : Readers Module
  findMutationPoints : List Module → List Point
  /-- `shouldSkip` of the filters that `main` set up. -/
  mutationFilters : List (Point → Bool)
  /-- `shouldSkip` of the filter that `setupSwiftFilter` adds. -/
  runtimeFunctionFilter : Point → Bool
  enableSyntaxFilter : Bool
  /-- `shouldSkip` of the filter that `setupSyntaxFilter` makes for the found points. -/
  astMutationFilter : List Point → Point → Bool
  /-- The executor of `MutationFilterTask`. -/
  filterRunner : (Point → Bool) → List Point → List Point
  applyMutation : List Point → Module → Module
  /-- The object file that `OriginalCompilationTask` makes of one module. -/
  compile : Module → String
  /-- The executor of `OriginalCompilationTask`, which appends to its output. -/
  mutantCompiler : List Module → List String → List String

namespace MutationPipeline

variable {Module Point : Type} (env : Environment Module Point)

/-- The state of the loop that extracts and loads the inputs. -/
structure Extraction (Module : Type) where
  outputObjectFiles : List String := []
  bitcode : List Module := []
  diagnostics : Diagnostics := []

/-- One round of the loop. An input without a module is passed to the linker directly. -/
def extractInput (state : Extraction Module) (inputFile : String) : Extraction Module :=
  match extractEmbeddedFile env.readers inputFile state.diagnostics with
  | (none, diagnostics) =>
      { state with outputObjectFiles := state.outputObjectFiles ++ [inputFile], diagnostics }
  | (some buffer, diagnostics) =>
      match loadBitcodeFromBuffer env.readers buffer diagnostics with
      | (none, diagnostics) =>
          { state with outputObjectFiles := state.outputObjectFiles ++ [inputFile], diagnostics }
      | (some bc, diagnostics) =>
          { state with bitcode := state.bitcode ++ [bc], diagnostics }

/-- Every filter runs over what the filter before it left. -/
def filterMutations (filters : List (Point → Bool)) (mutationPoints : List Point) :
    List Point :=
  filters.foldl (fun mutations filter => env.filterRunner filter mutations) mutationPoints

/-- The mutation points that survive the filters, `setupSwiftFilter` and
`setupSyntaxFilter` included. -/
def filteredMutations (program : List Module) : List Point :=
  let mutationPoints := env.findMutationPoints program
  let filters := env.mutationFilters ++ [env.runtimeFunctionFilter]
  let filters :=
    if env.enableSyntaxFilter then filters ++ [env.astMutationFilter mutationPoints] else filters
  filterMutations env filters mutationPoints

def run (inputObjects : List String) : List String :=
  let state := inputObjects.foldl (extractInput env) {}
  let program := state.bitcode
  let filtered := filteredMutations env program
  if filtered.isEmpty then inputObjects
  else env.mutantCompiler (program.map (env.applyMutation filtered)) state.outputObjectFiles

/-- A round appends its input to exactly one of the two vectors. -/
theorem extractInput_eq (state : Extraction Module) (inputFile : String) :
    (extractInput env state inputFile).outputObjectFiles =
        state.outputObjectFiles ++
          [inputFile].filter (fun path => (loadedModule env.readers path).isNone) ∧
      (extractInput env state inputFile).bitcode =
        state.bitcode ++ [inputFile].filterMap (loadedModule env.readers) := by
  have hextract := extractEmbeddedFile_fst env.readers inputFile state.diagnostics
  cases hx : extractEmbeddedFile env.readers inputFile state.diagnostics with
  | mk buffer? diagnostics =>
      rw [hx] at hextract
      simp only [extractInput, hx]
      cases buffer? with
      | none => simp [loadedModule, ← hextract]
      | some buffer =>
          have hload := loadBitcodeFromBuffer_fst env.readers buffer diagnostics
          cases hl : loadBitcodeFromBuffer env.readers buffer diagnostics with
          | mk module? diagnostics' =>
              rw [hl] at hload
              cases module? <;> simp [hl, loadedModule, ← hextract, ← hload]

/-- The loop separates the inputs into those without a module and the loaded modules. -/
theorem foldl_extractInput (inputObjects : List String) (state : Extraction Module) :
    (inputObjects.foldl (extractInput env) state).outputObjectFiles =
        state.outputObjectFiles ++
          inputObjects.filter (fun path => (loadedModule env.readers path).isNone) ∧
      (inputObjects.foldl (extractInput env) state).bitcode =
        state.bitcode ++ inputObjects.filterMap (loadedModule env.readers) := by
  induction inputObjects generalizing state with
  | nil => simp
  | cons inputFile rest ih =>
      obtain ⟨hout, hbit⟩ := extractInput_eq env state inputFile
      obtain ⟨ihout, ihbit⟩ := ih (extractInput env state inputFile)
      constructor
      · rw [List.foldl_cons, ihout, hout, List.append_assoc, ← List.filter_append]
        rfl
      · rw [List.foldl_cons, ihbit, hbit, List.append_assoc, ← List.filterMap_append]
        rfl

theorem length_filter_add_filterMap {α β : Type} (f : α → Option β) (l : List α) :
    (l.filter fun a => (f a).isNone).length + (l.filterMap f).length = l.length := by
  induction l with
  | nil => rfl
  | cons a rest ih =>
      cases h : f a <;> simp [h] <;> omega

/-- The result of a run in terms of the inputs alone. -/
theorem run_eq (inputObjects : List String) :
    run env inputObjects =
      let program := inputObjects.filterMap (loadedModule env.readers)
      if (filteredMutations env program).isEmpty then inputObjects
      else env.mutantCompiler (program.map (env.applyMutation (filteredMutations env program)))
        (inputObjects.filter fun path => (loadedModule env.readers path).isNone) := by
  obtain ⟨hout, hbit⟩ := foldl_extractInput env inputObjects {}
  rw [List.nil_append] at hout hbit
  simp only [run, hout, hbit]

/-- The mutation points that survive the filters on the modules of the inputs. -/
def survivors (inputObjects : List String) : List Point :=
  filteredMutations env (inputObjects.filterMap (loadedModule env.readers))

/-- **No object is lost or duplicated.** Without a surviving mutation point the inputs are
returned as they are; otherwise the inputs without a loaded module come first, followed by
one compiled object for each of the others, both in input order. -/
theorem run_conserves_objects
    (appends : ∀ modules output,
      env.mutantCompiler modules output = output ++ modules.map env.compile)
    (inputObjects : List String) :
    (survivors env inputObjects = [] → run env inputObjects = inputObjects) ∧
      (survivors env inputObjects ≠ [] →
        run env inputObjects =
            inputObjects.filter (fun path => (loadedModule env.readers path).isNone) ++
              (inputObjects.filterMap (loadedModule env.readers)).map
                (fun module =>
                  env.compile (env.applyMutation (survivors env inputObjects) module)) ∧
          (run env inputObjects).length = inputObjects.length) := by
  constructor
  · intro hempty
    have he : (survivors env inputObjects).isEmpty = true := by simp [hempty]
    rw [run_eq]
    exact if_pos he
  · intro hne
    have he : ¬ (survivors env inputObjects).isEmpty = true := by simpa using hne
    have hrun : run env inputObjects =
        inputObjects.filter (fun path => (loadedModule env.readers path).isNone) ++
          (inputObjects.filterMap (loadedModule env.readers)).map
            (fun module =>
              env.compile (env.applyMutation (survivors env inputObjects) module)) := by
      rw [run_eq]
      exact (if_neg he).trans (by rw [appends, List.map_map]; rfl)
    refine ⟨hrun, ?_⟩
    rw [hrun, List.length_append, List.length_map]
    exact length_filter_add_filterMap _ inputObjects

section Example

/-- `a.o` has bitcode, `b.o` has none that loads, and any other path cannot be read. The only
mutation point is that of the one module; the executor compiles the modules one by one. -/
def exampleEnvironment : Environment String String where
  readers :=
    { createBinary := fun path =>
        if path = "a.o" then
          .ok (.machOObjectFile [⟨.ok "__bitcode", "__LLVM", .ok [66, 67]⟩])
        else if path = "b.o" then .ok (.machOObjectFile [])
        else .error "no such file"
      loadModuleFromBuffer := fun buffer => if buffer = [] then none else some "module"
      hasDebugInfo := fun _ => true }
  findMutationPoints := id
  mutationFilters := []
  runtimeFunctionFilter := fun _ => false
  enableSyntaxFilter := false
  astMutationFilter := fun _ _ => false
  filterRunner := fun filter points => points.filter fun point => !filter point
  applyMutation := fun _ module => module
  compile := fun module => module ++ ".o"
  mutantCompiler := fun modules output => output ++ modules.map (· ++ ".o")

theorem run_conserves_objects_example :
    run exampleEnvironment ["a.o", "b.o", "a.o", "c.o"] =
        ["b.o", "c.o", "module.o", "module.o"] ∧
      (run exampleEnvironment ["a.o", "b.o", "a.o", "c.o"]).length = 4 := by
  have h := run_conserves_objects exampleEnvironment (fun _ _ => rfl)
    ["a.o", "b.o", "a.o", "c.o"]
  obtain ⟨hrun, hlength⟩ := h.2 (by decide)
  exact ⟨hrun, hlength⟩

end Example

end MutationPipeline

end MullXCTest.Pipeline
