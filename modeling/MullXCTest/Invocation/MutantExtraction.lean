import MullXCTest.Invocation.BaselineInfluence
import MullXCTest.LLVM.Path
import Mathlib.Data.List.Nodup

/-!
# The mutants of a test target

`XCTestRunInvocation::extractMutantInfo` joins the mutants of all dependent products
as they come, so that a mutant that is in two of them is there twice, is run twice and
is reported twice. The tasks store one result for each mutant of their batches.
-/

namespace MullXCTest.Invocation

open MutantExecutionTask XCTestRunInvocation Interleaving

/-- The binary in a bundle has the name of the bundle without its extension. -/
def getBundleBinaryPath (bundlePath : String) : String :=
  pathAppend bundlePath (LLVM.rsplitDotFirst (LLVM.filename bundlePath))

section Extraction

/-- What `ExtractMutantInfo` reads from a binary. -/
abbrev BinaryReader := String → Except String (List Mutant)

/-- `extractMutantInfo` on what `getDependentProductPaths` returns, with the errors that it
reports. A binary that cannot be read is passed over. -/
def extractMutantInfo (products : Except String (List String)) (reader : BinaryReader) :
    List Mutant × List String :=
  match products with
  | .error message => ([], [message])
  | .ok products =>
      (products.flatMap fun product =>
        match reader (getBundleBinaryPath product) with
        | .error _ => []
        | .ok result => result, [])

/-- The mutants of the binaries that can be read, binary by binary. -/
def readBinaries (products : Except String (List String)) (reader : BinaryReader) :
    List (List Mutant) :=
  match products with
  | .error _ => []
  | .ok products =>
      products.filterMap fun product => (reader (getBundleBinaryPath product)).toOption

theorem extractMutantInfo_eq (products : Except String (List String))
    (reader : BinaryReader) :
    (extractMutantInfo products reader).1 =
      (readBinaries products reader).flatten := by
  cases products with
  | error message => rfl
  | ok products =>
      simp only [extractMutantInfo, readBinaries]
      induction products with
      | nil => rfl
      | cons product rest ih =>
          rw [List.flatMap_cons, ih]
          cases hread : reader (getBundleBinaryPath product) <;>
            simp [hread, Except.toOption]

end Extraction

section Stored

variable {tools : Tools} {config : XCTestRunConfig} {xctestrunFile : String}

/-- The mutants that the actions store. -/
def storedMutants (actions : List Action) : List Mutant :=
  actions.filterMap fun
    | .store mutant => some mutant
    | _ => none

/-- The mutants that a task has stored or will store. -/
def owed (task : RunningTask) : List Mutant :=
  task.locals.storage.map MutationResult.mutant ++ storedMutants task.todo

theorem owed_perform {taskID : Nat} {world world' : World} {task : RunningTask}
    {locals' : Locals} {action : Action} {rest : List Action} (htodo : task.todo = action :: rest)
    (hp : perform tools taskID world task.locals action = .ok (world', locals')) :
    owed ⟨locals', rest⟩ = owed task := by
  unfold owed
  rw [htodo]
  cases action with
  | store mutant =>
      cases hp
      simp [storedMutants]
  | _ =>
      rw [perform_storage hp (by simp)]
      rfl

theorem owed_turn {s t : System} (h : Turn (systemStep tools) s t) :
    t.tasks.map owed = s.tasks.map owed := by
  obtain ⟨-, taskID, task, action, rest, htask, htodo, hcases⟩ := turn_cases h
  rcases hcases with ⟨world, locals, hp, rfl⟩ | ⟨fault, -, rfl⟩
  · obtain ⟨hlt, rfl⟩ := List.getElem?_eq_some_iff.mp htask
    have hmap : taskID < (s.tasks.map owed).length := by simpa using hlt
    calc
      (s.tasks.set taskID ⟨locals, rest⟩).map owed =
          (s.tasks.map owed).set taskID (owed s.tasks[taskID]) := by
        rw [List.map_set, owed_perform htodo hp]
      _ = (s.tasks.map owed).set taskID (s.tasks.map owed)[taskID] := by rw [List.getElem_map]
      _ = s.tasks.map owed := List.set_getElem_self hmap
  · rfl

theorem owed_program (taskID : Nat) (baseline : ExecutionResult) (batch : List Mutant) :
    owed ⟨{}, program taskID config xctestrunFile baseline batch⟩ = batch := by
  have hedits : ∀ (path : String) (edits : List RunFile.Edit),
      storedMutants (edits.map (.edit path)) = [] := by
    intro path edits
    induction edits with
    | nil => rfl
    | cons edit rest ih => exact ih
  have hstores : storedMutants (batch.map .store) = batch := by
    induction batch with
    | nil => rfl
    | cons mutant rest ih => exact congrArg (mutant :: ·) ih
  unfold owed program generateActions
  unfold storedMutants at hedits hstores ⊢
  simp [hedits, hstores]

/-- Before their first actions the tasks owe the mutants of their batches. -/
theorem owed_startTasks {workers : Nat} (baseline : ExecutionResult)
    {batches : List (List Mutant)} (h : batches.length ≤ workers) :
    (startTasks config xctestrunFile baseline workers batches).map owed = batches := by
  apply List.ext_getElem?
  intro taskID
  rw [List.getElem?_map]
  cases hbatch : batches[taskID]? with
  | none =>
      have hle := List.getElem?_eq_none_iff.mp hbatch
      rw [List.getElem?_eq_none (by simp [startTasks, hle])]
      rfl
  | some batch =>
      rw [startTasks_getElem? h hbatch, Option.map_some, owed_program]

/-- Where all tasks have returned, what they owed is what they have stored. -/
theorem collected_mutants {s : System} (h : ∀ task ∈ s.tasks, task.todo = []) :
    (collected s).map MutationResult.mutant = (s.tasks.map owed).flatten := by
  rw [collected, List.map_flatMap, List.flatMap_def]
  congr 1
  apply List.map_congr_left
  intro task htask
  simp [owed, h task htask, storedMutants]

end Stored

section Reported

variable {tools : InvocationTools} {config : XCTestRunConfig} {configuration : Configuration}
  {split : Splitting} {world : World} {mutants : List Mutant}

/-- The results that a run may return, for some interleaving of its tasks. -/
def Returns (tools : InvocationTools) (config : XCTestRunConfig) (configuration : Configuration)
    (split : Splitting) (world : World) (mutants : List Mutant) (results : List MutationResult) :
    Prop :=
  match run tools config configuration split world mutants with
  | .fatal _ => False
  | .returned mutationResults => results = mutationResults
  | .executing s =>
      ∃ t, Relation.ReflTransGen (Turn (systemStep tools.toTools)) s t ∧ t.fault = none ∧
        (∀ task ∈ t.tasks, task.todo = []) ∧ results = collected t

/-- A run that returns has one result for each of its mutants, in order. -/
theorem mutants_of_returns (consecutive : Consecutive split)
    (hworkers : 0 < configuration.mutantExecutionWorkers) {results : List MutationResult}
    (h : Returns tools config configuration split world mutants results) :
    results.map MutationResult.mutant = mutants := by
  unfold Returns at h
  cases hrun : run tools config configuration split world mutants with
  | fatal message => simp [hrun] at h
  | returned mutationResults =>
      simp only [hrun] at h
      subst h
      unfold run at hrun
      split_ifs at hrun with hempty
      · cases hrun
        simpa using hempty.symm
      · split at hrun <;> cases hrun
  | executing s =>
      simp only [hrun] at h
      obtain ⟨t, hreach, -, hended, rfl⟩ := h
      obtain ⟨file, baseline, rfl⟩ := run_eq_executing hrun
      have howed := Transition.conserved hreach trivial (fun _ _ _ _ => trivial)
        fun _ _ _ => owed_turn
      calc
        (collected t).map MutationResult.mutant = (t.tasks.map owed).flatten :=
          collected_mutants hended
        _ = (split mutants configuration.mutantExecutionWorkers).flatten := by
          rw [howed, tasks_startSystem,
            owed_startTasks baseline (consecutive.length_le mutants _ hworkers)]
        _ = mutants := consecutive.flatten_eq mutants _ hworkers

/-- One result for each identifier of the mutants, and no other results. -/
def OncePerIdentifier (mutants : List Mutant) (results : List MutationResult) : Prop :=
  (∀ identifier ∈ mutants.map Mutant.identifier,
      (results.map fun r => r.mutant.identifier).count identifier = 1) ∧
    ∀ r ∈ results, r.mutant.identifier ∈ mutants.map Mutant.identifier

theorem oncePerIdentifier_of_nodup {results : List MutationResult}
    (hmutants : results.map MutationResult.mutant = mutants)
    (hnodup : (mutants.map Mutant.identifier).Nodup) : OncePerIdentifier mutants results := by
  have hidentifiers : results.map (fun r => r.mutant.identifier) =
      mutants.map Mutant.identifier := by
    rw [← hmutants, List.map_map]
    rfl
  constructor
  · intro identifier hmem
    rw [hidentifiers]
    exact List.count_eq_one_of_mem hnodup hmem
  · intro r hr
    rw [← hidentifiers]
    exact List.mem_map_of_mem hr

/-- Identifiers are distinct within one binary. -/
def DistinctWithin (products : Except String (List String)) (reader : BinaryReader) :
    Prop :=
  ∀ binary ∈ readBinaries products reader, (binary.map Mutant.identifier).Nodup

/-- No identifier occurs in two of the binaries that are read. -/
def NotShared (products : Except String (List String)) (reader : BinaryReader) : Prop :=
  (readBinaries products reader).Pairwise fun binary binary' =>
    ∀ identifier ∈ binary.map Mutant.identifier, identifier ∉ binary'.map Mutant.identifier

instance (products : Except String (List String)) (reader : BinaryReader) :
    Decidable (DistinctWithin products reader) :=
  inferInstanceAs (Decidable (∀ binary ∈ readBinaries products reader,
    (binary.map Mutant.identifier).Nodup))

instance (products : Except String (List String)) (reader : BinaryReader) :
    Decidable (NotShared products reader) :=
  inferInstanceAs (Decidable (List.Pairwise _ (readBinaries products reader)))

/-- Every mutant is extracted once, and every run that returns reports each of them once. -/
def ReportedOnce (mutants : List Mutant) : Prop :=
  (mutants.map Mutant.identifier).Nodup ∧
    ∀ (tools : InvocationTools) (config : XCTestRunConfig) (configuration : Configuration)
      (split : Splitting) (world : World) (results : List MutationResult), Consecutive split →
        0 < configuration.mutantExecutionWorkers →
          Returns tools config configuration split world mutants results →
            OncePerIdentifier mutants results

/-- **A mutant is reported once only if it is in one product.** The joined mutants have distinct
identifiers, and every run reports each of them once, if and only if no identifier occurs in
two of the binaries. -/
theorem reportedOnce_iff {products : Except String (List String)}
    {reader : BinaryReader} (distinct : DistinctWithin products reader) :
    ReportedOnce (extractMutantInfo products reader).1 ↔
      NotShared products reader := by
  have hnodup : ((extractMutantInfo products reader).1.map Mutant.identifier).Nodup ↔
      NotShared products reader := by
    rw [extractMutantInfo_eq, List.map_flatten, List.nodup_flatten, List.pairwise_map]
    constructor
    · rintro ⟨-, hdisjoint⟩
      exact hdisjoint.imp fun h identifier hmem hmem' => h hmem hmem'
    · intro notShared
      refine ⟨?_, notShared.imp fun h identifier hmem hmem' => h identifier hmem hmem'⟩
      intro identifiers hmem
      obtain ⟨binary, hbinary, rfl⟩ := List.mem_map.mp hmem
      exact distinct binary hbinary
  constructor
  · exact fun reported => hnodup.mp reported.1
  · intro notShared
    have hdistinct := hnodup.mpr notShared
    refine ⟨hdistinct, ?_⟩
    intro tools config configuration split world results consecutive hworkers h
    exact oncePerIdentifier_of_nodup (mutants_of_returns consecutive hworkers h) hdistinct

/-- Two products with a mutant of their own each, and a third one that cannot be read. -/
def exampleBinaries : BinaryReader := fun path =>
  if path = "App.app/App" then .ok [⟨"a", true⟩]
  else if path = "Kit.framework/Kit" then .ok [⟨"b", true⟩]
  else .error "no such file"

theorem reportedOnce_iff_example :
    ReportedOnce
      (extractMutantInfo (.ok ["App.app", "Kit.framework", "Tests.xctest"]) exampleBinaries).1 :=
  (reportedOnce_iff (by decide)).mpr (by decide)

/-- The same static code in two products. -/
def sharedBinaries : BinaryReader := fun _ => .ok [⟨"a", true⟩]

theorem not_reportedOnce_example :
    ¬ ∀ products reader, DistinctWithin products reader →
      ReportedOnce (extractMutantInfo products reader).1 := by
  intro reported
  obtain ⟨hnodup, -⟩ := reported (.ok ["App.app", "Kit.framework"]) sharedBinaries (by decide)
  exact absurd hnodup (by decide)

end Reported

end MullXCTest.Invocation
