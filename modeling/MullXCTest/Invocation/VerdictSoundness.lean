import MullXCTest.Invocation.GeneratedRunFile

/-!
# When a mutant that passed was run

The edits of the run file, xcodebuild and the result bundle can all fail, and a
mutant is stored as passed on every path that does not read its name from a
bundle. So a pass says that the mutant was run exactly if the edits left its
variable in its target, the run was not cut off, and the run wrote a bundle that can
be read.
-/

namespace MullXCTest.Invocation

open ResultBundle RunFile MutantExecutionTask

section Soundness

/-- Tools whose outcomes are given: the edits that fail, and what becomes of xcodebuild. -/
def scriptedTools (fails : Nat → Bool) (process : Process)
    (parse : String → Except String Json) : Tools where
  editFails _ := fails
  xcodebuild _ _ _ := process
  parse := parse

variable (taskID : Nat) (config : XCTestRunConfig)

/-- The bundle at the path of a task. -/
def bundleAt (world : World) : Option Bundle :=
  world.bundles (resultBundlePath config.resultBundleDir config.testTarget taskID)

/-- What a pass is supposed to say: the target of the mutant with its variable was in the run
file that was executed, the run was not cut off, and the bundle that was read was written by
this run and names no failure for the mutant. -/
structure VerdictSound (parse : String → Except String Json) (world : World) (locals : Locals)
    (mutant : Mutant) : Prop where
  executed : ∃ file, locals.executed = some file ∧
    entryHas file (cloneName config.testTarget mutant.identifier) mutant.identifier = some true
  inTime : ∃ process, locals.process = some process ∧ process.timedOut = false
  read : ∃ process bundle targets, locals.process = some process ∧
    process.written = some bundle ∧ bundleAt taskID config world = some bundle ∧
    ResultBundle.getFailureTestTargets parse (some bundle) = .ok (.ok targets) ∧
    mutant.identifier ∉ targets

variable (xctestrunFile : String) (baseline : ExecutionResult)

/-- Every mutant that the task stores as passed was run and named by no failure. -/
def VerdictsSound (fails : Nat → Bool) (process : Process) (parse : String → Except String Json)
    (mutants : List Mutant) (world : World) : Prop :=
  ∀ world' locals,
    operatorCall (scriptedTools fails process parse) taskID config xctestrunFile baseline mutants
        world = .ok (world', locals) →
      ∀ r ∈ locals.storage, r.result.status = .passed →
        VerdictSound taskID config parse world' locals r.mutant

/-- The edits leave the variable of an identifier in its target. -/
def KeepsVariable (fails : Nat → Bool) (mutants : List Mutant) (world : World)
    (identifier : String) : Prop :=
  ∃ file,
    (world.runFiles xctestrunFile <|> world.runFiles (localRunFile taskID xctestrunFile)) =
        some file ∧
      cloneState fails (entryHas file config.testTarget identifier) identifier 0 mutants
        (entryHas file (cloneName config.testTarget identifier) identifier) = some true

variable {taskID config xctestrunFile baseline} {fails : Nat → Bool} {process : Process}
  {parse : String → Except String Json} {mutants : List Mutant} {world : World}

/-- The executed run file has the variable exactly if the edits keep it. -/
theorem executed_iff (identifier : String) :
    (∃ file, executedRunFile (scriptedTools fails process parse) taskID config xctestrunFile
          mutants world = some file ∧
        entryHas file (cloneName config.testTarget identifier) identifier = some true) ↔
      KeepsVariable taskID config xctestrunFile fails mutants world identifier := by
  have hentry : ∀ file : Plist,
      entryHas (applyEdits fails 0 (generateEdits config.testTarget mutants) file)
          (cloneName config.testTarget identifier) identifier =
        cloneState fails (entryHas file config.testTarget identifier) identifier 0 mutants
          (entryHas file (cloneName config.testTarget identifier) identifier) := by
    intro file
    rw [generateEdits_eq, applyEdits_append]
    simp only [applyEdits]
    rw [← entryHas_applyEdits, entryHas, lookup_run_ne, entryHas]
    exact (ne_cloneName _ _).symm
  unfold executedRunFile KeepsVariable
  constructor
  · rintro ⟨file, hfile, hhas⟩
    obtain ⟨file', hsrc, rfl⟩ := Option.map_eq_some_iff.mp hfile
    exact ⟨file', hsrc, (hentry file').symm.trans hhas⟩
  · rintro ⟨file, hsrc, hhas⟩
    exact ⟨_, Option.map_eq_some_iff.mpr ⟨file, hsrc, rfl⟩, (hentry file).trans hhas⟩

theorem operatorCall_scripted :
    operatorCall (scriptedTools fails process parse) taskID config xctestrunFile baseline mutants
        world =
      (ResultBundle.getFailureTestTargets parse
          (process.written <|> bundleAt taskID config world)).map
        fun failureTargets =>
          (leftWorld (scriptedTools fails process parse) taskID config xctestrunFile baseline
              mutants world,
            finalLocals (scriptedTools fails process parse) taskID config xctestrunFile baseline
              mutants world failureTargets) :=
  operatorCall_eq mutants world

theorem bundleAt_leftWorld :
    bundleAt taskID config (leftWorld (scriptedTools fails process parse) taskID config
        xctestrunFile baseline mutants world) =
      (process.written <|> bundleAt taskID config world) :=
  World.bundles_setBundle_self ..

theorem targetResult_passed_iff (result : ExecutionResult) {targets : Finset String}
    (mutant : Mutant) :
    (targetResult result (.ok targets) mutant).status = .passed ↔
      mutant.identifier ∉ targets := by
  by_cases h : mutant.identifier ∈ targets <;> simp [targetResult, h]

/-- What the soundness of one pass comes down to, in terms of what happened outside. -/
theorem verdictSound_iff {failureTargets : Except String (Finset String)} (mutant : Mutant) :
    VerdictSound taskID config parse
        (leftWorld (scriptedTools fails process parse) taskID config xctestrunFile baseline mutants
          world)
        (finalLocals (scriptedTools fails process parse) taskID config xctestrunFile baseline
          mutants world failureTargets) mutant ↔
      KeepsVariable taskID config xctestrunFile fails mutants world mutant.identifier ∧
        process.timedOut = false ∧
        ∃ bundle targets, process.written = some bundle ∧
          ResultBundle.getFailureTestTargets parse (some bundle) = .ok (.ok targets) ∧
          mutant.identifier ∉ targets := by
  constructor
  · rintro ⟨hexecuted, ⟨p, hp, htime⟩, ⟨p', bundle, targets, hp', hwritten, -, hread, hnot⟩⟩
    obtain rfl := Option.some.inj (show some process = some p from hp)
    obtain rfl := Option.some.inj (show some process = some p' from hp')
    exact ⟨(executed_iff _).mp hexecuted, htime, bundle, targets, hwritten, hread, hnot⟩
  · rintro ⟨hkeeps, htime, bundle, targets, hwritten, hread, hnot⟩
    exact ⟨(executed_iff _).mpr hkeeps, ⟨_, rfl, htime⟩,
      ⟨_, bundle, targets, rfl, hwritten, by rw [bundleAt_leftWorld, hwritten]; rfl, hread, hnot⟩⟩

/-- **Soundness of a pass.** The passes that a task stores are sound exactly if the reader of the
bundle faults before any is stored, or if every mutant is named by the bundle that is read or
was run: the edits keep its variable, the run is in time, and it writes a readable bundle. -/
theorem verdictsSound_iff :
    VerdictsSound taskID config xctestrunFile baseline fails process parse mutants world ↔
      (∃ fault, ResultBundle.getFailureTestTargets parse
          (process.written <|> bundleAt taskID config world) = .error fault) ∨
        ∀ mutant ∈ mutants,
          (∃ targets, ResultBundle.getFailureTestTargets parse
              (process.written <|> bundleAt taskID config world) = .ok (.ok targets) ∧
            mutant.identifier ∈ targets) ∨
          (KeepsVariable taskID config xctestrunFile fails mutants world mutant.identifier ∧
            process.timedOut = false ∧
            ∃ bundle targets, process.written = some bundle ∧
              ResultBundle.getFailureTestTargets parse (some bundle) = .ok (.ok targets)) := by
  unfold VerdictsSound
  rw [operatorCall_scripted]
  cases hread : ResultBundle.getFailureTestTargets parse
      (process.written <|> bundleAt taskID config world) with
  | error fault => simp [Except.map]
  | ok failureTargets =>
      simp only [Except.map, Except.ok.injEq, Prod.mk.injEq, reduceCtorEq, exists_false,
        false_or]
      constructor
      · intro hsound mutant hmutant
        by_cases hnamed : ∃ targets, failureTargets = .ok targets ∧ mutant.identifier ∈ targets
        · exact Or.inl hnamed
        · apply Or.inr
          have hpassed : (targetResult (executionResult process) failureTargets mutant).status =
              .passed := by
            cases failureTargets with
            | error message => rfl
            | ok targets =>
                apply (targetResult_passed_iff _ mutant).mpr
                intro hmem
                exact hnamed ⟨targets, rfl, hmem⟩
          have hsoundHere := hsound _ _ ⟨rfl, rfl⟩ _ (List.mem_map_of_mem hmutant) hpassed
          obtain ⟨hkeeps, htime, bundle, targets, hwritten, hbundle, -⟩ :=
            verdictSound_iff mutant |>.mp hsoundHere
          exact ⟨hkeeps, htime, bundle, targets, hwritten, hbundle⟩
      · rintro hrun _ _ ⟨rfl, rfl⟩ r hr hpassed
        obtain ⟨mutant, hmutant, rfl⟩ := List.mem_map.mp hr
        apply (verdictSound_iff mutant).mpr
        rcases hrun mutant hmutant with ⟨targets, rfl, hmem⟩ |
          ⟨hkeeps, htime, bundle, targets, hwritten, hbundle⟩
        · exact absurd hmem ((targetResult_passed_iff _ mutant).mp hpassed)
        · refine ⟨hkeeps, htime, bundle, targets, hwritten, hbundle, ?_⟩
          rw [hwritten] at hread
          obtain rfl := Except.ok.inj (hread.symm.trans hbundle)
          exact (targetResult_passed_iff _ mutant).mp hpassed

end Soundness

section Example

/-- A result bundle without failures. -/
def exampleRecord : Json :=
  let typed : String → String × Json := fun name => ("_type", .object [("_name", .string name)])
  .object [typed "ActionsInvocationRecord", ("issues", .object [typed "ResultIssueSummaries"])]

/-- A mutant whose run is cut off passes, and so does one whose variable could not be added. -/
theorem not_verdictsSound_example :
    ¬ VerdictsSound 0 exampleConfig "App.xctestrun" {} (fun _ => false) ⟨true, 0, 100, none⟩
        (fun _ => .ok exampleRecord) [⟨"add_1", true⟩] exampleWorld ∧
      ¬ VerdictsSound 0 exampleConfig "App.xctestrun" {} (fun position => position = 1)
        ⟨false, 0, 100, some ⟨some "record"⟩⟩ (fun _ => .ok exampleRecord) [⟨"add_1", true⟩]
        exampleWorld := by
  constructor
  · intro sound
    have hsound := sound _ _ operatorCall_scripted _ (List.mem_singleton.mpr rfl) rfl
    obtain ⟨process, hprocess, htime⟩ := hsound.inTime
    obtain rfl := Option.some.inj hprocess
    cases htime
  · intro sound
    have hsound := sound _ _ operatorCall_scripted _ (List.mem_singleton.mpr rfl) rfl
    obtain ⟨file, hfile, hhas⟩ := hsound.executed
    obtain rfl := Option.some.inj hfile
    revert hhas
    decide

end Example

end MullXCTest.Invocation
