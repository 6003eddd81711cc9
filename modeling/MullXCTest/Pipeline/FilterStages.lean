import MullXCTest.Pipeline.FunctionsUnderTest
import MullXCTest.Pipeline.MutationPipeline
import MullXCTest.TaskExecutor.SequentialRefinement
import Mathlib.Data.List.SplitLengths

/-!
# The filter stages

`filterFunctions` and `filterMutations` run one parallel pass for every filter, each
over what the pass before it left. Whatever the batches, together the passes keep what
no filter skips.
-/

namespace MullXCTest.Pipeline

variable {Element Bitcode Function Module Point : Type}

/-- mull's filter task and its `TaskExecutor`, on one kind of elements. -/
structure FilterRunner (Element : Type) where
  /-- `operator()` of the task for the filter with this `shouldSkip`. -/
  filterTask : (Element → Bool) → List Element → List Element
  /-- The output behind `execute`, from the tasks, the input and the output in front of it. -/
  execute : List (List Element → List Element) → List Element → List Element → List Element

namespace FilterRunner

/-- A filter task keeps what is not skipped, and the tasks run on consecutive batches. -/
structure Assumed (runner : FilterRunner Element) : Prop where
  keeps : ∀ shouldSkip batch,
    runner.filterTask shouldSkip batch = batch.filter fun e => !shouldSkip e
  concatenates : ∀ tasks input out, tasks ≠ [] → ∃ batches : List (List Element),
    batches.flatten = input ∧ batches.length ≤ tasks.length ∧
      runner.execute tasks input out =
        out ++ (List.zipWith (fun task batch => task batch) tasks batches).flatten

/-- One pass: a task of the filter for every worker, and an output of its own. -/
def pass (runner : FilterRunner Element) (workers : Nat) (filter : Element → Bool)
    (elements : List Element) : List Element :=
  runner.execute (List.replicate workers (runner.filterTask filter)) elements []

end FilterRunner

namespace MutationPipeline

def filterFunctions (runner : FilterRunner (FunctionUnderTest Bitcode Function)) (workers : Nat)
    (functionFilters : List (FunctionUnderTest Bitcode Function → Bool))
    (functions : List (FunctionUnderTest Bitcode Function)) :
    List (FunctionUnderTest Bitcode Function) :=
  functionFilters.foldl
    (fun filteredFunctions filter => runner.pass workers filter filteredFunctions) functions

end MutationPipeline

/-- The environment in which this runner filters the mutation points. -/
def Environment.withRunner (env : Environment Module Point) (runner : FilterRunner Point)
    (workers : Nat) : Environment Module Point :=
  { env with filterRunner := runner.pass workers }

/-- The elements that no filter skips. -/
def unskipped (filters : List (Element → Bool)) (elements : List Element) : List Element :=
  elements.filter fun e => filters.all fun shouldSkip => !shouldSkip e

/-- What a filter stage is for: with any workers it keeps what no filter skips, so that neither
the order of the filters nor a repetition of filters or of the stage matters. -/
structure PlainConjunction
    (stage : Nat → List (Element → Bool) → List Element → List Element) : Prop where
  exact : ∀ workers, 0 < workers → ∀ filters elements,
    stage workers filters elements = unskipped filters elements
  orderFree : ∀ workers workers', 0 < workers → 0 < workers' → ∀ filters filters',
    (∀ shouldSkip, shouldSkip ∈ filters ↔ shouldSkip ∈ filters') → ∀ elements,
      stage workers filters elements = stage workers' filters' elements
  idempotent : ∀ workers, 0 < workers → ∀ filters elements,
    stage workers filters (stage workers filters elements) = stage workers filters elements

section Passes

variable {runner : FilterRunner Element}

/-- However the input is cut, equal tasks for the batches filter it as a whole. -/
theorem FilterRunner.pass_eq (assumed : runner.Assumed) {workers : Nat} (h : 0 < workers)
    (filter : Element → Bool) (elements : List Element) :
    runner.pass workers filter elements = elements.filter fun e => !filter e := by
  have hne : List.replicate workers (runner.filterTask filter) ≠ [] := by
    simpa using Nat.pos_iff_ne_zero.mp h
  obtain ⟨batches, hflatten, hlength, hexecute⟩ := assumed.concatenates _ elements [] hne
  rw [List.length_replicate] at hlength
  have hbatches : List.zipWith (fun task batch => task batch)
      (List.replicate workers (runner.filterTask filter)) batches =
        batches.map (List.filter fun e => !filter e) := by
    apply List.ext_getElem
    · simpa using hlength
    · intro i hi hi'
      simp [assumed.keeps]
  calc
    runner.pass workers filter elements =
        (batches.map (List.filter fun e => !filter e)).flatten := by
      rw [FilterRunner.pass, hexecute, hbatches, List.nil_append]
    _ = batches.flatten.filter fun e => !filter e := List.filter_flatten.symm
    _ = elements.filter fun e => !filter e := by rw [hflatten]

/-- One pass after the other keeps what no filter skips. -/
theorem foldl_pass (assumed : runner.Assumed) {workers : Nat} (h : 0 < workers)
    (filters : List (Element → Bool)) (elements : List Element) :
    filters.foldl (fun filtered filter => runner.pass workers filter filtered) elements =
      unskipped filters elements := by
  induction filters generalizing elements with
  | nil => simp [unskipped]
  | cons filter rest ih =>
      rw [List.foldl_cons, ih, FilterRunner.pass_eq assumed h]
      simp [unskipped, List.filter_filter, Bool.and_comm]

theorem unskipped_congr {filters filters' : List (Element → Bool)}
    (h : ∀ shouldSkip, shouldSkip ∈ filters ↔ shouldSkip ∈ filters') (elements : List Element) :
    unskipped filters elements = unskipped filters' elements := by
  have hall : ∀ e, (filters.all fun shouldSkip => !shouldSkip e) =
      filters'.all fun shouldSkip => !shouldSkip e := by
    intro e
    rw [Bool.eq_iff_iff, List.all_eq_true, List.all_eq_true]
    simp only [h]
  simp only [unskipped, hall]

theorem PlainConjunction.of_exact
    {stage : Nat → List (Element → Bool) → List Element → List Element}
    (exact : ∀ workers, 0 < workers → ∀ filters elements,
      stage workers filters elements = unskipped filters elements) :
    PlainConjunction stage where
  exact := exact
  orderFree workers workers' h h' filters filters' same elements := by
    rw [exact workers h, exact workers' h']
    exact unskipped_congr same elements
  idempotent workers h filters elements := by
    rw [exact workers h, exact workers h]
    simp [unskipped, List.filter_filter]

end Passes

namespace MutationPipeline

/-- With the syntax filter one more pass runs, over the points of the run without it. -/
theorem survivors_syntaxFilter {runner : FilterRunner Point} (assumed : runner.Assumed)
    {workers : Nat} (h : 0 < workers) (env : Environment Module Point)
    (inputObjects : List String) :
    survivors { env.withRunner runner workers with enableSyntaxFilter := true } inputObjects =
      (survivors { env.withRunner runner workers with enableSyntaxFilter := false }
        inputObjects).filter fun point => !env.astMutationFilter
          (env.findMutationPoints (inputObjects.filterMap (loadedModule env.readers))) point := by
  simp only [survivors, filteredMutations, filterMutations, Environment.withRunner, if_true,
    Bool.false_eq_true, if_false, List.foldl_append, List.foldl_cons, List.foldl_nil]
  exact FilterRunner.pass_eq assumed h _ _

/-- **The filter stages are a plain conjunction.** Both stages keep the elements that no filter
skips, in their order, whatever the workers and the order of the filters; and the syntax filter
takes from the surviving points those that it skips. -/
theorem filter_stages_conjunction
    {functionRunner : FilterRunner (FunctionUnderTest Bitcode Function)}
    {pointRunner : FilterRunner Point} (functions : functionRunner.Assumed)
    (points : pointRunner.Assumed) (env : Environment Module Point) :
    PlainConjunction (filterFunctions functionRunner) ∧
      PlainConjunction (fun workers => filterMutations (env.withRunner pointRunner workers)) ∧
      ∀ workers, 0 < workers → ∀ inputObjects : List String,
        survivors { env.withRunner pointRunner workers with enableSyntaxFilter := true }
            inputObjects =
          (survivors { env.withRunner pointRunner workers with enableSyntaxFilter := false }
            inputObjects).filter fun point => !env.astMutationFilter
              (env.findMutationPoints
                (inputObjects.filterMap (loadedModule env.readers))) point := by
  refine ⟨PlainConjunction.of_exact ?_, PlainConjunction.of_exact ?_, ?_⟩
  · intro workers h
    exact foldl_pass functions h
  · intro workers h
    exact foldl_pass points h
  · intro workers h
    exact survivors_syntaxFilter points h env

end MutationPipeline

section Example

open MutationPipeline TaskExecutor.PthreadTaskExecutor

/-- An executor with at most one batch for an element, of sizes as even as possible. -/
def evenRunner : FilterRunner Element where
  filterTask shouldSkip batch := batch.filter fun e => !shouldSkip e
  execute tasks input out :=
    let workers := min input.length tasks.length
    out ++ (List.zipWith (fun task batch => task batch) tasks
      ((evenBatches input.length workers).splitLengths input)).flatten

theorem assumed_evenRunner : (evenRunner : FilterRunner Element).Assumed where
  keeps _ _ := rfl
  concatenates tasks input out hne := by
    refine ⟨(evenBatches input.length (min input.length tasks.length)).splitLengths input,
      ?_, ?_, rfl⟩
    · cases input with
      | nil => simp [evenBatches]
      | cons a rest =>
          have htasks := List.length_pos_iff.mpr hne
          have hworkers : 0 < min (a :: rest).length tasks.length := by simp; omega
          exact List.flatten_splitLengths _ _ (evenBatches_sum hworkers).ge
    · rw [List.length_splitLengths, evenBatches, List.length_map, List.length_range]
      exact min_le_right _ _

theorem filter_stages_conjunction_example :
    (filterFunctions evenRunner 2 [fun f => f.function = "b", fun f => !f.covered]
        [⟨"a", 0, true⟩, ⟨"b", 0, true⟩, ⟨"c", 1, false⟩, ⟨"d", 1, true⟩] =
      [⟨"a", 0, true⟩, ⟨"d", 1, true⟩]) ∧
      survivors { exampleEnvironment.withRunner evenRunner 3 with enableSyntaxFilter := true }
        ["a.o", "b.o"] = ["module"] := by
  obtain ⟨hfunctions, -, hsurvivors⟩ := filter_stages_conjunction
    (assumed_evenRunner : (evenRunner : FilterRunner (FunctionUnderTest Nat String)).Assumed)
    assumed_evenRunner exampleEnvironment
  constructor
  · rw [hfunctions.exact 2 (by decide)]
    decide
  · rw [hsurvivors 3 (by decide)]
    decide

end Example

end MullXCTest.Pipeline
