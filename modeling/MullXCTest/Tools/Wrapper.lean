import MullXCTest.LinkCommand.ArgumentHandling
import MullXCTest.LinkCommand.ObjectLoss
import MullXCTest.Pipeline.MutationPipeline

/-!
# What mull-ld and mull-libtool have in common

Both tools stand in for a real one: they take their own options out of its command
line, run the mutation pipeline on its objects and start it with a filelist. Most of
their helpers have the same bodies; where the tools differ they are parameters here.
-/

namespace MullXCTest.Tools

open LinkCommand Pipeline

/-- What mull's `Runner` reports of a program. -/
structure ProgramResult where
  passed : Bool
  statusAsString : String := ""
  runningTime : Int := 0
  exitStatus : Int := 0
  stdoutOutput : String := ""
  stderrOutput : String := ""

/-- The outside of a tool. A program finds the files as they are when it starts. -/
structure Outside where
  fs : FileSystem
  access : String → Bool
  isDirectory : String → Bool
  runProgram : (program : String) → (arguments : List String) → (timeout : Int) →
    FileSystem → ProgramResult
  /-- Whether mull's `Diagnostics::error` ends the process on a message. -/
  errorEnds : String → Bool
  /-- The path that `createTemporaryFile` returns. -/
  temporaryFile : String
  /-- Whether the stream for the filelist could open the file at this path. -/
  filelistOpens : Bool
  /-- Whether `GitDiffFilter::createFromGitDiff` returns a filter. -/
  createFromGitDiff : (gitProjectRoot gitDiffBranch : String) → Bool
  /-- The workers of `ParallelizationConfig::defaultConfig`. -/
  defaultWorkers : Nat
  mullDefaultLinkerTimeoutMilliseconds : Int

/-- What a tool can do outside the rules of C++ or against an assertion of LLVM. -/
inductive WrapperFault
  | arguments (fault : Fault)
  | backOfEmptyString
  | valueOfNone
  | streamNotOpen
  deriving DecidableEq

/-- What happens inside `MutationPipeline::run` is told apart from what `main` does around it. -/
inductive Stop
  | exited (status : Nat)
  | fault (fault : WrapperFault)
  | inPipeline
  deriving DecidableEq

/-- How the real tool was started, with the text for the filelist. -/
structure Launch where
  program : String
  arguments : List String
  filelist : String

/-- How a tool ended, and the real tool if it was started before. -/
structure Ended where
  stop : Stop
  launch : Option Launch

/-- The options that both tools have. -/
structure WrapperOptions where
  debugEnabled : Bool := false
  dumpLLVM : String := ""
  enableSyntaxFilter : Bool := true
  workers : Nat := 0
  excludePaths : List String := []
  includePaths : List String := []
  coverageInfo : String := ""
  targetExecutables : List String := []
  gitDiffRef : String := ""
  gitProjectRoot : String := ""

inductive Message
  | warning (text : String)
  | info (text : String)
  | debug (text : String)
  deriving DecidableEq

/-- mull's filters as the tools create them. -/
inductive Filter
  | noDebugInfoFilter
  | filePathFilter (excluded included : List String)
  | gitDiffFilter (gitProjectRoot gitDiffBranch : String)
  deriving DecidableEq

structure Filters where
  mutationFilters : List Filter
  functionFilters : List Filter
  instructionFilters : List Filter
  deriving DecidableEq

structure Configuration where
  linker : String := ""
  workers : Nat
  debugEnabled : Bool
  coverageInfo : String

structure MutationPipelineConfig where
  dumpLLVM : Option String
  enableSyntaxFilter : Bool

/-- What a `MutationPipeline` and its `MutationsFinder` are created with. -/
structure Setup where
  configuration : Configuration
  pipelineConfig : MutationPipelineConfig
  filters : Filters
  groups : List String
  targetExecutables : List String

section Bootstrap

variable (outside : Outside) (options : WrapperOptions)

/-- The git filter and what is said about it. -/
def gitDiffFilters : List Filter × List Message :=
  if options.gitDiffRef = "" then ([], [])
  else if options.gitProjectRoot = "" then
    ([], [.warning ("-git-diff-ref option has been provided but the path to the Git project " ++
      "root has not been specified via -git-project-root. The incremental testing will be " ++
      "disabled.")])
  else if !outside.isDirectory options.gitProjectRoot then
    ([], [.warning ("directory provided by -git-project-root does not exist, " ++
      "the incremental testing will be disabled: " ++ options.gitProjectRoot)])
  else
    (if outside.createFromGitDiff options.gitProjectRoot options.gitDiffRef then
        [.gitDiffFilter options.gitProjectRoot options.gitDiffRef]
      else [],
      [.info ("Incremental testing using Git Diff is enabled.\n" ++ "- Git ref: " ++
        options.gitDiffRef ++ "\n" ++ "- Git project root: " ++ options.gitProjectRoot)])

def bootstrapFilters : Filters × List Message :=
  let filePathFilter := Filter.filePathFilter options.excludePaths options.includePaths
  let git := gitDiffFilters outside options
  ({ mutationFilters := [.noDebugInfoFilter, filePathFilter]
     functionFilters := [.noDebugInfoFilter, filePathFilter]
     instructionFilters := .noDebugInfoFilter :: git.1 },
    git.2)

/-- The part of `bootstrapConfiguration` that is the same in both tools. -/
def bootstrapConfiguration (linker : String) : Configuration where
  linker := linker
  workers := if options.workers ≠ 0 then options.workers else outside.defaultWorkers
  debugEnabled := options.debugEnabled
  coverageInfo := options.coverageInfo

def bootstrapPipelineConfiguration : MutationPipelineConfig × List Message :=
  ({ dumpLLVM := if options.dumpLLVM = "" then none else some options.dumpLLVM
     enableSyntaxFilter := options.enableSyntaxFilter },
    if options.enableSyntaxFilter then
      [.debug ("syntax filter is " ++
        if options.enableSyntaxFilter then "enabled" else "disabled")]
    else [])

def setup (linker : String) (groups : List String) : Setup where
  configuration := bootstrapConfiguration outside options linker
  pipelineConfig := (bootstrapPipelineConfiguration options).1
  filters := (bootstrapFilters outside options).1
  groups := groups
  targetExecutables := options.targetExecutables

/-- `diagnostics.error`. -/
def error (message : String) : Except Stop Unit :=
  if outside.errorEnds message then .error (.exited 1) else .ok ()

def errorIf (condition : Bool) (message : String) : Except Stop Unit :=
  if condition then error outside message else .ok ()

/-- The `exit(1)` of `validateInputFiles`. -/
def exitUnless (valid : Bool) : Except Stop Unit :=
  if valid then .ok () else .error (.exited 1)

/-- The body of `getLinkerPath` and `getLibtoolPath`. -/
def realToolPath (option tool : String) (timeout : Int) : Except Stop (Option String) :=
  if option ≠ "" then .ok (some option)
  else
    let result := outside.runProgram "/usr/bin/xcrun" ["-find", tool] timeout outside.fs
    if !result.passed then do
      error outside "failed to run xcrun"
      return none
    else
      match result.stdoutOutput.toList.getLast? with
      -- `resultOutput.back()` of the empty string
      | none => .error (.fault .backOfEmptyString)
      | some c =>
          if c = '\n' then
            .ok (some (String.ofList result.stdoutOutput.toList.dropLast))
          else .ok (some result.stdoutOutput)

/-- A fault of the argument handling. -/
def orFault {α : Type} : Except Fault α → Except Stop α
  | .error fault => .error (.fault (.arguments fault))
  | .ok a => .ok a

/-- `pipeline.run()`, which comes back or ends the process itself. -/
def runPipeline {Module Point : Type} (returns : Bool) (env : Environment Module Point)
    (inputObjects : List String) : Except Stop (List String) :=
  if returns then .ok (MutationPipeline.run env inputObjects) else .error .inPipeline

/-- The files when the real tool starts. -/
def filesAtStart (filelist : String) : FileSystem :=
  if outside.filelistOpens then
    Function.update outside.fs outside.temporaryFile (some filelist)
  else outside.fs

/-- What is said when the real tool fails. -/
def linkFailure (program : String) (arguments : List String) (result : ProgramResult) : String :=
  let command := " ".intercalate (program :: arguments)
  "Cannot link program\n" ++ "status: " ++ result.statusAsString ++ "\n" ++ "time: " ++
    toString result.runningTime ++ "ms\n" ++ "exit: " ++ toString result.exitStatus ++ "\n" ++
    "command: " ++ command ++ "\n" ++ "stdout: " ++ result.stdoutOutput ++ "\n" ++ "stderr: " ++
    result.stderrOutput ++ "\n"

/-- The body of `link` and `runLibtool`, and the return of `main` behind it. -/
def runRealTool (fe : FrontEnd) (program : String) (timeout : Int) (parsedArgs : InputArgList)
    (objectFiles : List String) : Ended :=
  match fe.linkArguments parsedArgs outside.temporaryFile with
  | .error fault => ⟨.fault (.arguments fault), none⟩
  | .ok arguments =>
      -- A write to the stream needs its file; without objects there is none.
      if !outside.filelistOpens && !objectFiles.isEmpty then ⟨.fault .streamNotOpen, none⟩
      else
        let filelist := filelistText objectFiles
        let result := outside.runProgram program arguments timeout (filesAtStart outside filelist)
        -- Failing to link is an error message, and `main` goes on to its return.
        ⟨if !result.passed && outside.errorEnds (linkFailure program arguments result) then
            .exited 1
          else .exited 0,
          some ⟨program, arguments, filelist⟩⟩

end Bootstrap

namespace Launch

variable (outside : Outside) (timeout : Int) (launch : Launch)

/-- How the real tool ended, which finds the filelist beside the other files. -/
def result : ProgramResult :=
  outside.runProgram launch.program launch.arguments timeout
    (filesAtStart outside launch.filelist)

/-- The real tool passed, or the message of its failure came back. -/
def Accepted : Prop :=
  (launch.result outside timeout).passed = true ∨
    outside.errorEnds
      (linkFailure launch.program launch.arguments (launch.result outside timeout)) = false

end Launch

section Stops

variable {outside : Outside}

theorem exitUnless_eq_ok {valid : Bool} : exitUnless valid = .ok () ↔ valid = true := by
  cases valid <;> simp [exitUnless]

theorem exitUnless_eq_error {valid : Bool} {stop : Stop} :
    exitUnless valid = .error stop ↔ valid = false ∧ stop = .exited 1 := by
  cases valid <;> simp [exitUnless, eq_comm]

theorem validateInputFiles_eq_false {access : String → Bool} {inputFiles : List String} :
    validateInputFiles access inputFiles = false ↔
      ∃ inputFile ∈ inputFiles, access inputFile = false := by
  simp only [validateInputFiles, List.all_eq_false, Bool.not_eq_true]

theorem errorIf_eq_ok {condition : Bool} {message : String} :
    errorIf outside condition message = .ok () ↔
      (condition = true → outside.errorEnds message = false) := by
  cases condition <;> cases h : outside.errorEnds message <;> simp [errorIf, error, h]

theorem errorIf_eq_error {condition : Bool} {message : String} {stop : Stop} :
    errorIf outside condition message = .error stop ↔
      condition = true ∧ outside.errorEnds message = true ∧ stop = .exited 1 := by
  cases condition <;> cases h : outside.errorEnds message <;> simp [errorIf, error, h, eq_comm]

variable {option name : String} {timeout : Int}

/-- What `xcrun -find` reports of a tool. -/
def xcrunResult (outside : Outside) (name : String) (timeout : Int) : ProgramResult :=
  outside.runProgram "/usr/bin/xcrun" ["-find", name] timeout outside.fs

theorem realToolPath_option (h : option ≠ "") :
    realToolPath outside option name timeout = .ok (some option) := if_pos h

theorem realToolPath_failed (h : (xcrunResult outside name timeout).passed = false) :
    realToolPath outside "" name timeout =
      if outside.errorEnds "failed to run xcrun" then .error (.exited 1) else .ok none := by
  simp only [xcrunResult] at h
  cases hends : outside.errorEnds "failed to run xcrun" <;>
    simp [realToolPath, error, h, hends, bind, Except.bind, pure, Except.pure]

theorem realToolPath_silent (h : (xcrunResult outside name timeout).passed = true)
    (hempty : (xcrunResult outside name timeout).stdoutOutput = "") :
    realToolPath outside "" name timeout = .error (.fault .backOfEmptyString) := by
  simp only [xcrunResult] at h hempty
  simp [realToolPath, h, hempty]

theorem realToolPath_passed (h : (xcrunResult outside name timeout).passed = true)
    (hne : (xcrunResult outside name timeout).stdoutOutput ≠ "") :
    ∃ path, realToolPath outside "" name timeout = .ok (some path) := by
  simp only [xcrunResult] at h hne
  cases hlast : (outside.runProgram "/usr/bin/xcrun" ["-find", name] timeout
      outside.fs).stdoutOutput.toList.getLast? with
  | none => exact absurd (String.toList_eq_nil_iff.mp (List.getLast?_eq_none_iff.mp hlast)) hne
  | some c =>
      simp only [realToolPath, h, hlast, ne_eq, not_true_eq_false, if_false, Bool.not_true,
        Bool.false_eq_true]
      split_ifs
      · exact ⟨_, rfl⟩
      · exact ⟨_, rfl⟩

/-- No path is found exactly if `xcrun` fails and its failure does not end the process. -/
theorem realToolPath_eq_none :
    realToolPath outside option name timeout = .ok none ↔
      option = "" ∧ (xcrunResult outside name timeout).passed = false ∧
        outside.errorEnds "failed to run xcrun" = false := by
  by_cases hoption : option = ""
  · subst hoption
    cases hpassed : (xcrunResult outside name timeout).passed with
    | false => simp [realToolPath_failed hpassed]
    | true =>
        by_cases hempty : (xcrunResult outside name timeout).stdoutOutput = ""
        · simp [realToolPath_silent hpassed hempty]
        · obtain ⟨path, hpath⟩ := realToolPath_passed hpassed hempty
          simp [hpath]
  · simp [realToolPath_option hoption, hoption]

/-- The search ends the process by the message of the failed `xcrun`, and leaves the rules of
C++ exactly on the empty output of an `xcrun` that passed. -/
theorem realToolPath_eq_error {stop : Stop} :
    realToolPath outside option name timeout = .error stop ↔
      option = "" ∧
        (((xcrunResult outside name timeout).passed = false ∧
            outside.errorEnds "failed to run xcrun" = true ∧ stop = .exited 1) ∨
          ((xcrunResult outside name timeout).passed = true ∧
            (xcrunResult outside name timeout).stdoutOutput = "" ∧
              stop = .fault .backOfEmptyString)) := by
  by_cases hoption : option = ""
  · subst hoption
    cases hpassed : (xcrunResult outside name timeout).passed with
    | false =>
        cases hends : outside.errorEnds "failed to run xcrun" <;>
          simp [realToolPath_failed hpassed, hends, @eq_comm _ stop]
    | true =>
        by_cases hempty : (xcrunResult outside name timeout).stdoutOutput = ""
        · simp [realToolPath_silent hpassed hempty, hempty, @eq_comm _ stop]
        · obtain ⟨path, hpath⟩ := realToolPath_passed hpassed hempty
          simp [hpath, hempty]
  · simp [realToolPath_option hoption, hoption]

end Stops

section Linked

open MutationPipeline

variable {Module Point : Type}

theorem runPipeline_eq_ok {returns : Bool} {env : Environment Module Point}
    {inputObjects objectFiles : List String} :
    runPipeline returns env inputObjects = .ok objectFiles ↔
      returns = true ∧ objectFiles = run env inputObjects := by
  cases returns <;> simp [runPipeline, eq_comm]

theorem runPipeline_eq_error {returns : Bool} {env : Environment Module Point}
    {inputObjects : List String} {stop : Stop} :
    runPipeline returns env inputObjects = .error stop ↔
      returns = false ∧ stop = .inPipeline := by
  cases returns <;> simp [runPipeline, eq_comm]

/-- The objects that are linked in place of the objects of the command line. -/
structure Linked (env : Environment Module Point) (inputObjects linked : List String) :
    Prop where
  unchanged : survivors env inputObjects = [] → linked = inputObjects
  recompiled : survivors env inputObjects ≠ [] →
    linked = (inputObjects.filter fun path => (loadedModule env.readers path).isNone) ++
      (inputObjects.filterMap (loadedModule env.readers)).map
        fun module => env.compile (env.applyMutation (survivors env inputObjects) module)
  length_eq : linked.length = inputObjects.length

theorem linked_run {env : Environment Module Point}
    (appends : ∀ modules output,
      env.mutantCompiler modules output = output ++ modules.map env.compile)
    (inputObjects : List String) : Linked env inputObjects (run env inputObjects) := by
  have hrun := run_eq env inputObjects
  simp only [appends, List.map_map] at hrun
  by_cases hempty : survivors env inputObjects = []
  · have hunchanged : run env inputObjects = inputObjects :=
      hrun.trans (if_pos (List.isEmpty_iff.mpr hempty))
    exact ⟨fun _ => hunchanged, fun hne => absurd hempty hne, by rw [hunchanged]⟩
  · have hrecompiled := hrun.trans (if_neg fun h => hempty (List.isEmpty_iff.mp h))
    refine ⟨fun hnil => absurd hnil hempty, fun _ => hrecompiled, ?_⟩
    rw [hrecompiled, List.length_append, List.length_map]
    exact length_filter_add_filterMap _ inputObjects

end Linked

section RealTool

/-- The objects can be written to the filelist. -/
def Writable (outside : Outside) (objectFiles : List String) : Prop :=
  outside.filelistOpens = true ∨ objectFiles = []

variable {outside : Outside} {fe : FrontEnd} {parsedArgs : InputArgList} {arguments : List String}
  (program : String) (timeout : Int) {objectFiles : List String}

theorem writable_congr {objectFiles' : List String}
    (h : objectFiles'.length = objectFiles.length) :
    Writable outside objectFiles' ↔ Writable outside objectFiles := by
  rw [Writable, Writable, ← List.length_eq_zero_iff, h, List.length_eq_zero_iff]

theorem runRealTool_closed
    (h : fe.linkArguments parsedArgs outside.temporaryFile = .ok arguments)
    (closed : ¬ Writable outside objectFiles) :
    runRealTool outside fe program timeout parsedArgs objectFiles =
      ⟨.fault .streamNotOpen, none⟩ := by
  simp only [Writable, not_or, Bool.not_eq_true] at closed
  simp [runRealTool, h, closed]

theorem not_closed (writable : Writable outside objectFiles) :
    (!outside.filelistOpens && !objectFiles.isEmpty) = false := by
  rcases writable with hopens | hempty
  · simp [hopens]
  · simp [hempty]

theorem runRealTool_launch
    (h : fe.linkArguments parsedArgs outside.temporaryFile = .ok arguments)
    (writable : Writable outside objectFiles) :
    (runRealTool outside fe program timeout parsedArgs objectFiles).launch =
      some ⟨program, arguments, filelistText objectFiles⟩ := by
  simp [runRealTool, h, not_closed writable]

theorem runRealTool_stop
    (h : fe.linkArguments parsedArgs outside.temporaryFile = .ok arguments)
    (writable : Writable outside objectFiles) :
    ((runRealTool outside fe program timeout parsedArgs objectFiles).stop = .exited 0 ∧
        Launch.Accepted outside timeout ⟨program, arguments, filelistText objectFiles⟩) ∨
      ((runRealTool outside fe program timeout parsedArgs objectFiles).stop = .exited 1 ∧
        ¬ Launch.Accepted outside timeout ⟨program, arguments, filelistText objectFiles⟩) := by
  simp only [runRealTool, h, not_closed writable, Bool.false_eq_true, if_false, Launch.Accepted,
    Launch.result]
  cases (outside.runProgram program arguments timeout
    (filesAtStart outside (filelistText objectFiles))).passed with
  | true => simp
  | false =>
      cases outside.errorEnds (linkFailure program arguments (outside.runProgram program arguments
        timeout (filesAtStart outside (filelistText objectFiles)))) <;> simp

end RealTool

end MullXCTest.Tools
