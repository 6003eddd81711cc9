import MullXCTest.Invocation.GeneratedRunFile
import MullXCTest.Invocation.XCTestRunInvocation

/-!
# Exact verdicts

A verdict goes from the variable of a target over its blueprint name and the failure
summaries of a bundle back to the identifier of a mutant. Where the tools are
healthy nothing is lost on the way, so every interleaving of the tasks gives each
mutant the verdict of the tests with its identifier set.
-/

namespace MullXCTest.Invocation

open ResultBundle RunFile MutantExecutionTask XCTestRunInvocation Interleaving

/-- Whether the tests of a target fail, by its environment and its other keys. -/
abbrev TestOracle := (String → Option String) → List (String × String) → Bool

/-- The status of a mutant by the tests of a target with its identifier set. -/
def verdict (testsFail : TestOracle) (entry : TestTarget) (mutant : Mutant) : ExecutionStatus :=
  if testsFail (entry.addVariable mutant.identifier).environment entry.others then .failed
  else .passed

theorem verdict_failed_iff {testsFail : TestOracle} {entry : TestTarget} {mutant : Mutant} :
    verdict testsFail entry mutant = .failed ↔
      testsFail (entry.addVariable mutant.identifier).environment entry.others = true := by
  simp [verdict]

/-- A choice between the two statuses by what decides the verdict is the verdict. -/
theorem ite_eq_verdict {testsFail : TestOracle} {entry : TestTarget} {mutant : Mutant} {p : Prop}
    [Decidable p] (h : p ↔ verdict testsFail entry mutant = .failed) :
    (if p then .failed else .passed) = verdict testsFail entry mutant := by
  rw [verdict_failed_iff] at h
  simp only [h, verdict]

/-- A target of the file with this blueprint name has a test that fails. -/
def FailingName (testsFail : TestOracle) (file : Plist) (name : String) : Prop :=
  ∃ target ∈ targetNames file, ∃ entry, file.lookup target = some entry ∧
    entry.blueprintName = some name ∧ testsFail entry.environment entry.others = true

/-- The failure summaries of the bundle that is written name exactly the targets that fail. -/
def RecordsFailures (testsFail : TestOracle) (parse : String → Except String Json)
    (file : Plist) (process : Process) : Prop :=
  ∃ output json targets, process.written = some ⟨some output⟩ ∧ parse output = .ok json ∧
    RecordShape json targets ∧ ∀ name, some name ∈ targets ↔ FailingName testsFail file name

/-- All edits succeed, `plutil` does, and xcodebuild runs every target of the run file that it is
told to test, whichever that is, if there is no bundle in its way and it is not cut off. -/
structure Healthy (tools : InvocationTools) (config : XCTestRunConfig) (testsFail : TestOracle) :
    Prop where
  baseEdits : ∀ position, tools.baseEditFails position = false
  edits : ∀ taskID position, tools.editFails taskID position = false
  plutil : tools.plutilSucceeds = true
  tests : ∀ command runFile resultBundle file process,
    command.Tests config.xcodebuildArgs runFile resultBundle →
    tools.xcodebuild command (some file) none = process →
    process.timedOut = false → RecordsFailures testsFail tools.parse file process

/-- The baseline has no part in the health of the tools. -/
theorem Healthy.of_baselineRun {tools : InvocationTools} {config : XCTestRunConfig}
    {testsFail : TestOracle} (healthy : Healthy tools config testsFail)
    (baselineRun : Command → Option Plist → Process) :
    Healthy { tools with baselineRun } config testsFail :=
  ⟨healthy.baseEdits, healthy.edits, healthy.plutil, healthy.tests⟩

/-- No run of xcodebuild is cut off, in any interleaving. -/
def InTime (tools : Tools) : RunStart → Prop
  | .fatal _ => True
  | .returned _ => True
  | .executing s => ∀ t, Relation.ReflTransGen (Turn (systemStep tools)) s t →
      ∀ task ∈ t.tasks, ∀ process, task.locals.process = some process → process.timedOut = false

/-- Consecutive batches, at most one for each worker. -/
structure Consecutive (split : Splitting) : Prop where
  flatten_eq : ∀ mutants workers, 0 < workers → (split mutants workers).flatten = mutants
  length_le : ∀ mutants workers, 0 < workers → (split mutants workers).length ≤ workers

/-- The run file has the test target, and the bundle directory is empty. -/
structure Prepared (world : World) (config : XCTestRunConfig) (entry : TestTarget) : Prop where
  target : ∃ file, world.runFiles config.xctestrunFile = some file ∧
    file.lookup config.testTarget = some entry
  empty : ∀ taskID,
    world.bundles (resultBundlePath config.resultBundleDir config.testTarget taskID) = none

/-- A run file with one target. -/
structure SingleTarget (file : Plist) (testTarget : String) (entry : TestTarget) : Prop where
  target : file.lookup testTarget = some entry
  other : ∀ name, name ≠ testTarget → name ≠ "__xctestrun_metadata__" → file.lookup name = none

/-- The target for a mutant. -/
def mutantTarget (entry : TestTarget) (identifier : String) : TestTarget :=
  (entry.addVariable identifier).rename identifier

section RunFiles

variable {file : Plist} {testTarget : String} {entry : TestTarget} {fails : Nat → Bool}

theorem mem_targetNames {name : String} :
    name ∈ targetNames file ↔
      (∃ target, file.lookup name = some target) ∧ name ≠ "__xctestrun_metadata__" := by
  rw [targetNames, List.mem_filter, ← AList.mem_keys, ← AList.lookup_isSome,
    Option.isSome_iff_exists, decide_eq_true_iff]

theorem lookup_deletions (healthy : ∀ position, fails position = false) (position : Nat)
    (names : List String) (name : String) :
    (applyEdits fails position (names.map Edit.deleteTestTarget) file).lookup name =
      if name ∈ names then none else file.lookup name := by
  induction names generalizing position file with
  | nil => simp [applyEdits]
  | cons first rest ih =>
      rw [List.map_cons, applyEdits, healthy, ih]
      by_cases hfirst : name = first
      · subst hfirst
        simp [Edit.run, Edit.apply, AList.lookup_erase]
      · rw [lookup_run_ne false hfirst]
        simp [hfirst]

theorem singleTarget_generate (localRunFile : Option Plist)
    (healthy : ∀ position, fails position = false) (h : file.lookup testTarget = some entry) :
    ∃ base, generateSingleTargetXCRunFile fails true (some file) localRunFile testTarget =
        .ok (some base) ∧ SingleTarget base testTarget entry := by
  refine ⟨_, rfl, ?_, ?_⟩
  · rw [lookup_deletions healthy, if_neg (by simp), h]
  · intro name hne hmeta
    rw [lookup_deletions healthy]
    by_cases hname : name ∈ targetNames file
    · rw [if_pos (by simpa using ⟨hname, hne⟩)]
    · rw [mem_targetNames, not_and_or, not_exists] at hname
      have hnone : file.lookup name = none :=
        Option.eq_none_iff_forall_ne_some.mpr (hname.resolve_right (not_not.mpr hmeta))
      rw [hnone, ite_self]

theorem cloneName_ne_metadata (testTarget identifier : String) :
    cloneName testTarget identifier ≠ "__xctestrun_metadata__" := by
  intro h
  have hdash : '-' ∈ (cloneName testTarget identifier).toList := by
    simp [cloneName, String.toList_append]
  rw [h] at hdash
  revert hdash
  decide

/-- What the edits for a mutant make of its entry. -/
theorem lookup_mutantEdits (healthy : ∀ position, fails position = false) (position : Nat)
    (mutant : Mutant) (h : file.lookup testTarget = some entry) :
    (applyEdits fails position (mutantEdits testTarget mutant) file).lookup
        (cloneName testTarget mutant.identifier) =
      some (mutantTarget entry mutant.identifier) := by
  simp [mutantEdits, applyEdits, healthy, Edit.run, Edit.apply, lookup_modify, h, mutantTarget]

theorem lookup_flatMap_mutantEdits (healthy : ∀ position, fails position = false)
    (position : Nat) (mutants : List Mutant) (h : file.lookup testTarget = some entry)
    (identifier : String) :
    (applyEdits fails position (mutants.flatMap (mutantEdits testTarget)) file).lookup
        (cloneName testTarget identifier) =
      if identifier ∈ mutants.map Mutant.identifier then some (mutantTarget entry identifier)
      else file.lookup (cloneName testTarget identifier) := by
  induction mutants generalizing position file with
  | nil => rfl
  | cons mutant rest ih =>
      have hsource : (applyEdits fails position (mutantEdits testTarget mutant) file).lookup
          testTarget = some entry := by
        rw [lookup_mutantEdits_ne _ _ _ (ne_cloneName _ _), h]
      rw [List.flatMap_cons, applyEdits_append, ih _ hsource]
      by_cases hid : identifier = mutant.identifier
      · subst hid
        rw [lookup_mutantEdits healthy position mutant h]
        simp
      · have hne : cloneName testTarget identifier ≠ cloneName testTarget mutant.identifier :=
          fun heq => hid (cloneName_injective heq)
        rw [lookup_mutantEdits_ne _ _ _ hne]
        simp [hid]

theorem lookup_flatMap_mutantEdits_ne (position : Nat) (mutants : List Mutant) {name : String}
    (h : ∀ mutant ∈ mutants, name ≠ cloneName testTarget mutant.identifier) :
    (applyEdits fails position (mutants.flatMap (mutantEdits testTarget)) file).lookup name =
      file.lookup name := by
  induction mutants generalizing position file with
  | nil => rfl
  | cons mutant rest ih =>
      rw [List.flatMap_cons, applyEdits_append,
        ih _ fun m hm => h m (List.mem_cons_of_mem _ hm),
        lookup_mutantEdits_ne _ _ _ (h mutant List.mem_cons_self)]

/-- The targets of the generated run file are those for the mutants. -/
theorem lookup_generateEdits_iff (healthy : ∀ position, fails position = false)
    (single : SingleTarget file testTarget entry) (mutants : List Mutant) {name : String}
    {target : TestTarget} (hmeta : name ≠ "__xctestrun_metadata__") :
    (applyEdits fails 0 (generateEdits testTarget mutants) file).lookup name = some target ↔
      ∃ mutant ∈ mutants, name = cloneName testTarget mutant.identifier ∧
        target = mutantTarget entry mutant.identifier := by
  rw [generateEdits_eq, applyEdits_append]
  simp only [applyEdits, healthy]
  by_cases hclone : ∃ mutant ∈ mutants, name = cloneName testTarget mutant.identifier
  · obtain ⟨mutant, hmutant, rfl⟩ := hclone
    have hne : cloneName testTarget mutant.identifier ≠
        (Edit.deleteTestTarget testTarget).subject := (ne_cloneName _ _).symm
    rw [lookup_run_ne _ hne, lookup_flatMap_mutantEdits healthy 0 mutants single.target,
      if_pos (List.mem_map_of_mem hmutant), Option.some_inj]
    constructor
    · rintro rfl
      exact ⟨mutant, hmutant, rfl, rfl⟩
    · rintro ⟨mutant', -, hname, rfl⟩
      rw [cloneName_injective hname]
  · push Not at hclone
    have hnone : (Edit.run false
        (applyEdits fails 0 (mutants.flatMap (mutantEdits testTarget)) file)
        (.deleteTestTarget testTarget)).lookup name = none := by
      by_cases htarget : name = testTarget
      · subst htarget
        exact AList.lookup_erase _ _
      · rw [lookup_run_ne _ htarget, lookup_flatMap_mutantEdits_ne 0 mutants hclone,
          single.other name htarget hmeta]
    rw [hnone]
    constructor
    · intro h
      cases h
    · rintro ⟨mutant, hmutant, hname, -⟩
      exact absurd hname (hclone mutant hmutant)

/-- The names that fail in the generated run file are the identifiers of the mutants that fail. -/
theorem failingName_generateEdits_iff {testsFail : TestOracle}
    (healthy : ∀ position, fails position = false) (single : SingleTarget file testTarget entry)
    (mutants : List Mutant) (name : String) :
    FailingName testsFail (applyEdits fails 0 (generateEdits testTarget mutants) file) name ↔
      ∃ mutant ∈ mutants, mutant.identifier = name ∧
        verdict testsFail entry mutant = .failed := by
  constructor
  · rintro ⟨target, htarget, entry', hlookup, hname, hfails⟩
    have hmeta := (mem_targetNames.mp htarget).2
    obtain ⟨mutant, hmutant, -, rfl⟩ :=
      (lookup_generateEdits_iff healthy single mutants hmeta).mp hlookup
    exact ⟨mutant, hmutant, Option.some.inj hname, verdict_failed_iff.mpr hfails⟩
  · rintro ⟨mutant, hmutant, rfl, hfails⟩
    have hmeta := cloneName_ne_metadata testTarget mutant.identifier
    have hlookup := (lookup_generateEdits_iff healthy single mutants hmeta).mpr
      ⟨mutant, hmutant, rfl, rfl⟩
    exact ⟨_, mem_targetNames.mpr ⟨⟨_, hlookup⟩, hmeta⟩, _, hlookup, rfl,
      verdict_failed_iff.mp hfails⟩

end RunFiles

section Tasks

variable {tools : InvocationTools} {config : XCTestRunConfig} {testsFail : TestOracle}
  {entry : TestTarget} {base : Plist}

/-- A task of its own gives each mutant of its batch its verdict. -/
theorem operatorCall_exact (healthy : Healthy tools config testsFail)
    (single : SingleTarget base config.testTarget entry) (taskID : Nat)
    (baseline : ExecutionResult) (batch : List Mutant) (world : World)
    (hsrc : world.runFiles (singleTargetRunFile config) = some base)
    (hbundle : world.bundles
      (resultBundlePath config.resultBundleDir config.testTarget taskID) = none)
    (inTime : (runProcess tools.toTools taskID config (singleTargetRunFile config) baseline batch
      world).timedOut = false) :
    ∃ locals, (∃ world', operatorCall tools.toTools taskID config (singleTargetRunFile config)
        baseline batch world = .ok (world', locals)) ∧
      statuses locals.storage =
        batch.map fun mutant => (mutant, verdict testsFail entry mutant) := by
  have hfile : executedRunFile tools.toTools taskID config (singleTargetRunFile config) batch
      world = some (applyEdits (tools.editFails taskID) 0
        (generateEdits config.testTarget batch) base) := by
    simp [executedRunFile, hsrc]
  have hprocess : tools.xcodebuild
      (command taskID config (singleTargetRunFile config) baseline batch.length)
      (some (applyEdits (tools.editFails taskID) 0 (generateEdits config.testTarget batch) base))
      none =
        runProcess tools.toTools taskID config (singleTargetRunFile config) baseline batch
          world := by
    rw [runProcess, hfile, hbundle]
  obtain ⟨output, json, targets, hwritten, hparse, hshape, hfailing⟩ :=
    healthy.tests _ _ _ _ _ tests_command hprocess inTime
  have hread : ResultBundle.getFailureTestTargets tools.parse
      (readBundle tools.toTools taskID config (singleTargetRunFile config) baseline batch world) =
        .ok (.ok targets.reduceOption.toFinset) := by
    rw [readBundle, hwritten]
    simp [ResultBundle.getFailureTestTargets, hparse, failureTargetsOf_of_shape hshape,
      Functor.map, Except.map]
  refine ⟨_, ⟨_, by rw [operatorCall_eq, hread]; rfl⟩, ?_⟩
  simp only [statuses, finalLocals, List.map_map]
  apply List.map_congr_left
  intro mutant hmutant
  refine Prod.ext rfl ?_
  have hmem : mutant.identifier ∈ targets.reduceOption.toFinset ↔
      verdict testsFail entry mutant = .failed := by
    rw [List.mem_toFinset, List.reduceOption_mem_iff, hfailing,
      failingName_generateEdits_iff (healthy.edits taskID) single]
    constructor
    · rintro ⟨mutant', -, hid, hfails⟩
      rwa [verdict, hid] at hfails
    · intro hfails
      exact ⟨mutant, hmutant, rfl, hfails⟩
  exact ite_eq_verdict hmem

/-- A task may have its run of xcodebuild before the other tasks begin. -/
theorem exists_process {xctestrunFile : String} {baseline : ExecutionResult} {batch : List Mutant}
    {s : System} {taskID : Nat} (separated : Separated config xctestrunFile s)
    (htask : s.tasks[taskID]? = some ⟨{}, program taskID config xctestrunFile baseline batch⟩) :
    ∃ t, Relation.ReflTransGen (Turn (systemStep tools.toTools)) s t ∧
      ∃ task ∈ t.tasks, task.locals.process =
        some (runProcess tools.toTools taskID config xctestrunFile baseline batch s.world) := by
  rw [program_eq] at htask
  obtain ⟨t, hrun, -, hview⟩ := independent.lift
    (agent_of_performAll separated htask (performAll_run batch s.world)) separated rfl
  obtain ⟨task, htask', heq⟩ := Option.map_eq_some_iff.mp hview
  obtain ⟨-, rfl⟩ := Prod.mk.inj heq
  exact ⟨t, hrun, _, List.mem_of_getElem? htask', rfl⟩

/-- The tasks of every interleaving return, and each mutant of their batches has its verdict. -/
theorem tasks_exact {world : World} {baseline : ExecutionResult} {workers : Nat}
    {batches : List (List Mutant)} {t : System} (healthy : Healthy tools config testsFail)
    (single : SingleTarget base config.testTarget entry)
    (hfile : world.runFiles (singleTargetRunFile config) = some base)
    (hempty : ∀ taskID,
      world.bundles (resultBundlePath config.resultBundleDir config.testTarget taskID) = none)
    (inTime : InTime tools.toTools (.executing
      (startSystem config (singleTargetRunFile config) baseline workers batches world)))
    (hworkers : batches.length ≤ workers)
    (hrun : Relation.ReflTransGen (Turn (systemStep tools.toTools))
      (startSystem config (singleTargetRunFile config) baseline workers batches world) t)
    (hfinal : Transition.Final (Turn (systemStep tools.toTools)) t) :
    t.fault = none ∧ (∀ task ∈ t.tasks, task.todo = []) ∧
      statuses (collected t) =
        batches.flatten.map fun mutant => (mutant, verdict testsFail entry mutant) := by
  have hcalls : ∀ taskID batch, ∃ locals, batches[taskID]? = some batch →
      (∃ world', operatorCall tools.toTools taskID config (singleTargetRunFile config) baseline
          batch world = .ok (world', locals)) ∧
        statuses locals.storage =
          batch.map fun mutant => (mutant, verdict testsFail entry mutant) := by
    intro taskID batch
    by_cases hbatch : batches[taskID]? = some batch
    · obtain ⟨t, hreached, task, htask, hprocess⟩ :=
        exists_process separated_start (startTasks_getElem? hworkers hbatch)
      obtain ⟨locals, hcall⟩ := operatorCall_exact healthy single taskID baseline batch world hfile
        (hempty taskID) (inTime t hreached task htask _ hprocess)
      exact ⟨locals, fun _ => hcall⟩
    · exact ⟨{}, fun h => absurd h hbatch⟩
  choose final hfinals using hcalls
  obtain ⟨hfault, htasks⟩ := tasks_of_final hworkers
    (fun taskID batch hbatch => (hfinals taskID batch hbatch).1) hrun hfinal
  rw [statuses, collected, htasks]
  refine ⟨hfault, ?_, ?_⟩
  · intro task htask
    obtain ⟨p, -, rfl⟩ := List.mem_map.mp htask
    rfl
  · rw [List.flatMap_map, List.map_flatMap]
    have hbatches : ∀ p ∈ batches.zipIdx,
        (final p.2 p.1).storage.map (fun r => (r.mutant, r.result.status)) =
          p.1.map fun mutant => (mutant, verdict testsFail entry mutant) := fun p hp =>
      (hfinals p.2 p.1 (List.mem_zipIdx_iff_getElem?.mp hp)).2
    rw [List.flatMap_congr hbatches, ← List.flatMap_map (f := Prod.fst), List.zipIdx_map_fst,
      List.map_flatten, List.flatMap]

/-- With healthy tools, `run` gets to its tasks, and these come to exact verdicts. -/
theorem run_executing {configuration : Configuration} {split : Splitting} {world : World}
    {mutants : List Mutant} (healthy : Healthy tools config testsFail)
    (inTime : InTime tools.toTools (run tools config configuration split world mutants))
    (consecutive : Consecutive split) (prepared : Prepared world config entry)
    (hworkers : 0 < configuration.mutantExecutionWorkers) (hmutants : mutants ≠ []) :
    ∃ s, run tools config configuration split world mutants = .executing s ∧
      ∀ t, Relation.ReflTransGen (Turn (systemStep tools.toTools)) s t →
        Transition.Final (Turn (systemStep tools.toTools)) t →
          t.fault = none ∧ (∀ task ∈ t.tasks, task.todo = []) ∧
            statuses (collected t) =
              mutants.map fun mutant => (mutant, verdict testsFail entry mutant) := by
  obtain ⟨file, hfile, hentry⟩ := prepared.target
  obtain ⟨base, hbase, single⟩ := singleTarget_generate
    (world.runFiles (singleTargetRunFile config)) healthy.baseEdits hentry
  rw [run, if_neg (mt List.isEmpty_iff.mp hmutants), hfile, healthy.plutil, hbase] at inTime ⊢
  have hle := consecutive.length_le mutants _ hworkers
  refine ⟨_, rfl, ?_⟩
  intro t hturns hfinal
  have hexact := tasks_exact healthy single (World.runFiles_setRunFile_self ..) prepared.empty
    inTime hle hturns hfinal
  rwa [consecutive.flatten_eq _ _ hworkers] at hexact

/-- **Exact verdicts.** With healthy tools, every interleaving of the tasks comes to an end and
returns one result for each mutant, in order, with the verdict of the tests. -/
theorem run_exact {configuration : Configuration} {split : Splitting} {world : World}
    {mutants : List Mutant} (healthy : Healthy tools config testsFail)
    (inTime : InTime tools.toTools (run tools config configuration split world mutants))
    (consecutive : Consecutive split) (prepared : Prepared world config entry)
    (hworkers : 0 < configuration.mutantExecutionWorkers) :
    AlwaysReturns tools
      (fun results => statuses results =
        mutants.map fun mutant => (mutant, verdict testsFail entry mutant))
      (run tools config configuration split world mutants) := by
  by_cases hmutants : mutants = []
  · subst hmutants
    rfl
  · obtain ⟨s, hrun, hexact⟩ := run_executing healthy inTime consecutive prepared hworkers
      hmutants
    rw [hrun]
    exact ⟨turn_wellFounded, hexact⟩

end Tasks

section OracleTools

/-- The names of the targets that fail. -/
def failingNames (testsFail : TestOracle) (file : Plist) : List String :=
  (targetNames file).filterMap fun target =>
    (file.lookup target).bind fun entry =>
      if testsFail entry.environment entry.others then entry.blueprintName else none

theorem mem_failingNames {testsFail : TestOracle} {file : Plist} {name : String} :
    name ∈ failingNames testsFail file ↔ FailingName testsFail file name := by
  simp only [failingNames, FailingName, List.mem_filterMap, Option.bind_eq_some_iff,
    Option.ite_none_right_eq_some]
  apply exists_congr
  intro target
  apply and_congr_right
  intro _
  apply exists_congr
  intro entry
  exact and_congr_right fun _ => and_comm

/-- Names in a row, each of their characters marked. -/
def printNames (names : List String) : List Char :=
  names.flatMap fun name => name.toList.flatMap (fun c => ['\\', c]) ++ ['\n']

/-- Reads names, of which the first has begun. -/
def readNames : List Char → List Char → List String
  | begun, '\\' :: c :: rest => readNames (begun ++ [c]) rest
  | begun, _ :: rest => String.ofList begun :: readNames [] rest
  | _, [] => []

theorem readNames_marked (begun name rest : List Char) :
    readNames begun (name.flatMap (fun c => ['\\', c]) ++ rest) =
      readNames (begun ++ name) rest := by
  induction name generalizing begun with
  | nil => simp
  | cons c name ih => simp [readNames, ih]

theorem readNames_printNames (names : List String) : readNames [] (printNames names) = names := by
  induction names with
  | nil => rfl
  | cons name names ih =>
      rw [printNames, List.flatMap_cons, List.append_assoc, readNames_marked]
      simpa [readNames, printNames] using ih

/-- An object of a type. -/
def typedObject (typeIdentifier : String) (members : JsonObject) : JsonObject :=
  ("_type", .object [("_name", .string typeIdentifier)]) :: members

theorem typed_typedObject (typeIdentifier : String) (members : JsonObject) :
    Typed (typedObject typeIdentifier members) typeIdentifier :=
  ⟨_, rfl, rfl⟩

/-- A failure summary for a target. -/
def summaryOf (name : String) : Json :=
  .object (typedObject "TestFailureIssueSummary"
    [("producingTarget", .object (typedObject "String" [("_value", .string name)]))])

/-- An invocation record with failure summaries for targets. -/
def recordOf (names : List String) : Json :=
  .object (typedObject "ActionsInvocationRecord"
    [("issues", .object (typedObject "ResultIssueSummaries"
      [("testFailureSummaries", .object (typedObject "Array"
        [("_values", .array (names.map summaryOf))]))]))])

theorem recordShape_recordOf (names : List String) :
    RecordShape (recordOf names) (names.map some) := by
  refine .withSummaries (typed_typedObject ..) rfl (typed_typedObject ..) rfl
    (typed_typedObject ..) rfl ?_
  rw [List.forall₂_map_left_iff, List.forall₂_map_right_iff]
  exact List.forall₂_same.mpr fun name _ =>
    .targeted (typed_typedObject ..) rfl (typed_typedObject ..) rfl

/-- Tools that do what the oracle says. Where a bundle is in its way, xcodebuild runs nothing. -/
def oracleTools (testsFail : TestOracle) : InvocationTools where
  editFails _ _ := false
  xcodebuild _ file bundle :=
    match file, bundle with
    | some file, none =>
        { timedOut := false
          status := if failingNames testsFail file = [] then 0 else 65
          elapsed := 1
          written := some ⟨some (String.ofList (printNames (failingNames testsFail file)))⟩ }
    | _, _ => ⟨false, 64, 1, none⟩
  parse output := .ok (recordOf (readNames [] output.toList))
  baseEditFails _ := false
  plutilSucceeds := true
  baselineRun _ _ := ⟨false, 0, 1, none⟩

/-- Every oracle is that of healthy tools. -/
theorem healthy_oracleTools (testsFail : TestOracle) (config : XCTestRunConfig) :
    Healthy (oracleTools testsFail) config testsFail where
  baseEdits _ := rfl
  edits _ _ := rfl
  plutil := rfl
  tests := by
    rintro command runFile resultBundle file _ - rfl -
    refine ⟨_, _, _, rfl, rfl, recordShape_recordOf _, ?_⟩
    intro name
    rw [String.toList_ofList, readNames_printNames]
    simpa using mem_failingNames

/-- What a task has run is what its xcodebuild came to. -/
theorem process_perform {tools : Tools} {taskID : Nat} {world world' : World}
    {locals locals' : Locals} {action : Action}
    (h : perform tools taskID world locals action = .ok (world', locals')) :
    locals'.process = locals.process ∨
      ∃ command file bundle, locals'.process = some (tools.xcodebuild command file bundle) := by
  cases action with
  | copyFile source destination => cases h; exact .inl rfl
  | edit path edit => cases h; exact .inl rfl
  | xcodebuild command => cases h; exact .inr ⟨_, _, _, rfl⟩
  | getFailureTestTargets resultFile =>
      obtain ⟨-, failureTargets, rfl⟩ := perform_getFailureTestTargets _ _ h
      exact .inl rfl
  | store mutant => cases h; exact .inl rfl

/-- Where xcodebuild always comes to its own end, no run of it is cut off. -/
theorem inTime_of_never {tools : InvocationTools} {config : XCTestRunConfig}
    {configuration : Configuration} {split : Splitting} {world : World} {mutants : List Mutant}
    (never : ∀ command file bundle, (tools.xcodebuild command file bundle).timedOut = false) :
    InTime tools.toTools (run tools config configuration split world mutants) := by
  cases hrun : run tools config configuration split world mutants with
  | fatal message => trivial
  | returned mutationResults => trivial
  | executing s =>
      intro t reached
      refine Transition.invariant (fun t : System => ∀ task ∈ t.tasks, ∀ process,
        task.locals.process = some process → process.timedOut = false) reached ?_ ?_
      · intro task htask process hprocess
        obtain ⟨taskID, htask⟩ := List.mem_iff_getElem?.mp htask
        obtain ⟨file, baseline, rfl⟩ := run_eq_executing hrun
        obtain ⟨batch, -, rfl⟩ := startTasks_cases htask
        cases hprocess
      · intro s t hs hturn
        obtain ⟨-, taskID, task, action, rest, htask, -, hcases⟩ := turn_cases hturn
        rcases hcases with ⟨world, locals, hp, rfl⟩ | ⟨fault, -, rfl⟩
        · intro task' hmem process hprocess
          rcases List.mem_or_eq_of_mem_set hmem with hmem | rfl
          · exact hs task' hmem process hprocess
          · rcases process_perform hp with heq | ⟨command, file, bundle, heq⟩
            · exact hs task (List.mem_of_getElem? htask) process (heq ▸ hprocess)
            · obtain rfl := Option.some.inj (heq.symm.trans hprocess)
              exact never ..
        · exact hs

theorem timedOut_oracleTools (testsFail : TestOracle) (command : Command) (file : Option Plist)
    (bundle : Option Bundle) :
    ((oracleTools testsFail).xcodebuild command file bundle).timedOut = false := by
  cases file <;> cases bundle <;> rfl

theorem inTime_oracleTools (testsFail : TestOracle) (config : XCTestRunConfig)
    (configuration : Configuration) (split : Splitting) (world : World) (mutants : List Mutant) :
    InTime (oracleTools testsFail).toTools
      (run (oracleTools testsFail) config configuration split world mutants) :=
  inTime_of_never (timedOut_oracleTools testsFail)

end OracleTools

section Example

/-- Two batches wherever there are two workers. -/
def halves : Splitting := fun mutants workers =>
  if workers = 1 then [mutants]
  else [mutants.take (mutants.length / 2), mutants.drop (mutants.length / 2)]

theorem consecutive_halves : Consecutive halves where
  flatten_eq mutants workers _ := by
    unfold halves
    split_ifs <;> simp
  length_le mutants workers hworkers := by
    unfold halves
    split_ifs with h
    · exact hworkers
    · simp only [List.length_cons, List.length_nil]
      omega

/-- The tests fail when `add_1` is set. -/
def exampleOracle : TestOracle := fun environment _ => (environment "add_1").isSome

theorem prepared_exampleWorld : Prepared exampleWorld exampleConfig exampleTarget where
  target := ⟨exampleRunFile, rfl, rfl⟩
  empty _ := rfl

/-- Two workers with a mutant each. -/
theorem run_exact_example :
    AlwaysReturns (oracleTools exampleOracle)
      (fun results => statuses results =
        [(⟨"add_1", true⟩, .failed), (⟨"sub_2", true⟩, .passed)])
      (run (oracleTools exampleOracle) exampleConfig ⟨3000, 2, true⟩ halves exampleWorld
        [⟨"add_1", true⟩, ⟨"sub_2", true⟩]) := by
  have hverdicts : [(⟨"add_1", true⟩, ExecutionStatus.failed), (⟨"sub_2", true⟩, .passed)] =
      ([⟨"add_1", true⟩, ⟨"sub_2", true⟩] : List Mutant).map fun mutant =>
        (mutant, verdict exampleOracle exampleTarget mutant) := by decide
  rw [hverdicts]
  exact run_exact (healthy_oracleTools _ _) (inTime_oracleTools ..) consecutive_halves
    prepared_exampleWorld Nat.two_pos

end Example

end MullXCTest.Invocation
