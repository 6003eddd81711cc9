import MullXCTest.Library.Outcome
import MullXCTest.LinkCommand.FilelistRoundTrip
import MullXCTest.LinkCommand.Taken
import MullXCTest.Tools.Wrapper
import Mathlib.Data.List.Flatten

/-!
# mull-libtool

`main` from the argument vector to the start of the real libtool. Whatever the
pipeline comes back with, the real libtool gets the options of the original command
line and as many objects as it names.
-/

namespace MullXCTest.Tools

open LinkCommand Pipeline

namespace MullLibtool

structure Options extends WrapperOptions where
  libtool : String := ""

/-- mull-libtool with LLVM's option parsers and the pipeline that is made of a setup. -/
structure Tool (Module Point : Type) where
  programName : String
  parseCommandLineOptions : List String → Option Options
  parseArgs : List String → InputArgList
  environment : Setup → Environment Module Point
  /-- Whether the pipeline comes back from a run on these objects. -/
  pipelineReturns : Setup → List String → Bool

def groups : List String :=
  ["swift_comparison", "cxx_arithmetic", "cxx_arithmetic_assignment", "cxx_boundary",
    "swift_logical"]

variable {Module Point : Type} (tool : Tool Module Point) (outside : Outside)

def getLibtoolPath (options : Options) : Except Stop (Option String) :=
  realToolPath outside options.libtool "libtool" (-1)

/-- What `main` has when it calls `runLibtool`. -/
structure Prepared where
  libtool : String
  parsedArgs : InputArgList
  inputObjects : List String
  objectFiles : List String

/-- `main` from the parsed options up to the call of `runLibtool`. -/
def prepareWith (options : Options) (libtoolArgs : List String) : Except Stop Prepared := do
  let parsedArgs := tool.parseArgs libtoolArgs
  let libtool ← getLibtoolPath outside options
  errorIf outside libtool.isNone "no real libtool found"
  let inputObjects ← orFault (Libtool.collectObjectFiles outside.fs parsedArgs [])
  exitUnless (validateInputFiles outside.access inputObjects)
  -- `bootstrapConfiguration` of mull-libtool leaves the linker of the configuration empty.
  let setup := setup outside options.toWrapperOptions "" groups
  let objectFiles ← runPipeline (tool.pipelineReturns setup inputObjects)
    (tool.environment setup) inputObjects
  match libtool with
  | none => .error (.fault .valueOfNone)
  | some libtool => return { libtool, parsedArgs, inputObjects, objectFiles }

/-- `main` up to the call of `runLibtool`. -/
def prepare (args : List String) : Except Stop Prepared := do
  let (mullArgs, libtoolArgs) ← orFault (filterMullOptions args [tool.programName] [])
  match tool.parseCommandLineOptions mullArgs with
  | none => .error (.exited 1)
  | some options => prepareWith tool outside options libtoolArgs

def runLibtool (prepared : Prepared) : Ended :=
  runRealTool outside .libtool prepared.libtool (-1) prepared.parsedArgs prepared.objectFiles

def main (args : List String) : Ended :=
  match prepare tool outside args with
  | .error stop => ⟨stop, none⟩
  | .ok prepared => runLibtool outside prepared

section Main

variable {tool outside} {args : List String}

/-- Everything that lies behind a call of `runLibtool`. -/
structure Prepares (tool : Tool Module Point) (outside : Outside) (args : List String)
    (options : Options) (prepared : Prepared) : Prop where
  no_dangling : MarkerScan.dangling isXmull args = false
  parsed : tool.parseCommandLineOptions (tool.programName :: mullPart args) = some options
  found : getLibtoolPath outside options = .ok (some prepared.libtool)
  parsedArgs_eq : prepared.parsedArgs = tool.parseArgs (linkerPart args)
  inputObjects_eq : prepared.inputObjects = collectFiltered outside.fs prepared.parsedArgs []
  accessible : ∀ object ∈ prepared.inputObjects, outside.access object = true
  returns : tool.pipelineReturns (setup outside options.toWrapperOptions "" groups)
    prepared.inputObjects = true
  objectFiles_eq : prepared.objectFiles =
    MutationPipeline.run (tool.environment (setup outside options.toWrapperOptions "" groups))
      prepared.inputObjects

theorem prepare_dangling (h : MarkerScan.dangling isXmull args = true) :
    prepare tool outside args = .error (.fault (.arguments .indexPastEnd)) := by
  rw [prepare, filterMullOptions_dangling _ _ _ h]
  rfl

theorem prepare_eq (h : MarkerScan.dangling isXmull args = false) :
    prepare tool outside args =
      match tool.parseCommandLineOptions (tool.programName :: mullPart args) with
      | none => .error (.exited 1)
      | some options => prepareWith tool outside options (linkerPart args) := by
  rw [prepare, filterMullOptions_eq _ _ _ h]
  rfl

theorem prepareWith_eq_ok {options : Options} {libtoolArgs : List String} {prepared : Prepared}
    (h : prepareWith tool outside options libtoolArgs = .ok prepared) :
    getLibtoolPath outside options = .ok (some prepared.libtool) ∧
      prepared.parsedArgs = tool.parseArgs libtoolArgs ∧
      prepared.inputObjects = collectFiltered outside.fs prepared.parsedArgs [] ∧
      validateInputFiles outside.access prepared.inputObjects = true ∧
      tool.pipelineReturns (setup outside options.toWrapperOptions "" groups)
        prepared.inputObjects = true ∧
      prepared.objectFiles =
        MutationPipeline.run (tool.environment (setup outside options.toWrapperOptions "" groups))
          prepared.inputObjects := by
  obtain ⟨libtool, hfound, h⟩ := Outcome.bind_eq_ok.mp h
  obtain ⟨_, _, h⟩ := Outcome.bind_eq_ok.mp h
  obtain ⟨inputObjects, hcollected, h⟩ := Outcome.bind_eq_ok.mp h
  obtain ⟨_, hvalid, h⟩ := Outcome.bind_eq_ok.mp h
  obtain ⟨objectFiles, hrun, h⟩ := Outcome.bind_eq_ok.mp h
  cases Except.ok.inj hcollected
  obtain ⟨hreturns, hobjects⟩ := runPipeline_eq_ok.mp hrun
  cases libtool with
  | none => cases h
  | some libtool =>
      cases Except.ok.inj h
      exact ⟨hfound, rfl, rfl, exitUnless_eq_ok.mp hvalid, hreturns, hobjects⟩

theorem prepares_of_ok {prepared : Prepared} (h : prepare tool outside args = .ok prepared) :
    ∃ options, Prepares tool outside args options prepared := by
  have hd : MarkerScan.dangling isXmull args = false := by
    by_contra hd
    rw [prepare_dangling (by simpa using hd)] at h
    cases h
  rw [prepare_eq hd] at h
  cases hparse : tool.parseCommandLineOptions (tool.programName :: mullPart args) with
  | none => simp [hparse] at h
  | some options =>
      rw [hparse] at h
      obtain ⟨hfound, hparsed, hobjects, hvalid, hreturns, hrun⟩ := prepareWith_eq_ok h
      exact ⟨options, hd, hparse, hfound, hparsed, hobjects, List.all_eq_true.mp hvalid,
        hreturns, hrun⟩

theorem prepareWith_exited {options : Options} {libtoolArgs : List String} {status : Nat}
    (h : prepareWith tool outside options libtoolArgs = .error (.exited status)) :
    status = 1 := by
  rcases Outcome.bind_eq_error.mp h with h | ⟨libtool, -, h⟩
  · obtain ⟨-, ⟨-, -, h⟩ | ⟨-, -, h⟩⟩ := realToolPath_eq_error.mp h
    · exact Stop.exited.inj h
    · cases h
  rcases Outcome.bind_eq_error.mp h with h | ⟨_, -, h⟩
  · obtain ⟨-, -, h⟩ := errorIf_eq_error.mp h
    exact Stop.exited.inj h
  rcases Outcome.bind_eq_error.mp h with h | ⟨inputObjects, -, h⟩
  · cases h
  rcases Outcome.bind_eq_error.mp h with h | ⟨_, -, h⟩
  · exact Stop.exited.inj (exitUnless_eq_error.mp h).2
  rcases Outcome.bind_eq_error.mp h with h | ⟨objectFiles, -, h⟩
  · cases (runPipeline_eq_error.mp h).2
  · cases libtool <;> cases h

/-- Between the parser of the mull options and `runLibtool` there are two faults, and both need an
`xcrun` that does not give a path. -/
theorem prepareWith_fault_iff {options : Options} {libtoolArgs : List String} :
    (∃ fault, prepareWith tool outside options libtoolArgs = .error (.fault fault)) ↔
      options.libtool = "" ∧
        (((xcrunResult outside "libtool" (-1)).passed = true ∧
            (xcrunResult outside "libtool" (-1)).stdoutOutput = "") ∨
          ((xcrunResult outside "libtool" (-1)).passed = false ∧
            outside.errorEnds "failed to run xcrun" = false ∧
            outside.errorEnds "no real libtool found" = false ∧
            validateInputFiles outside.access
              (collectFiltered outside.fs (tool.parseArgs libtoolArgs) []) = true ∧
            tool.pipelineReturns (setup outside options.toWrapperOptions "" groups)
              (collectFiltered outside.fs (tool.parseArgs libtoolArgs) []) = true)) := by
  constructor
  · rintro ⟨fault, h⟩
    rcases Outcome.bind_eq_error.mp h with h | ⟨libtool, hfound, h⟩
    · obtain ⟨hoption, ⟨-, -, h⟩ | ⟨hpassed, hempty, -⟩⟩ := realToolPath_eq_error.mp h
      · cases h
      · exact ⟨hoption, Or.inl ⟨hpassed, hempty⟩⟩
    rcases Outcome.bind_eq_error.mp h with h | ⟨_, hcontinues, h⟩
    · obtain ⟨-, -, h⟩ := errorIf_eq_error.mp h
      cases h
    rcases Outcome.bind_eq_error.mp h with h | ⟨inputObjects, hcollected, h⟩
    · cases h
    cases Except.ok.inj hcollected
    rcases Outcome.bind_eq_error.mp h with h | ⟨_, hvalid, h⟩
    · cases (exitUnless_eq_error.mp h).2
    rcases Outcome.bind_eq_error.mp h with h | ⟨objectFiles, hrun, h⟩
    · cases (runPipeline_eq_error.mp h).2
    cases libtool with
    | some libtool => cases h
    | none =>
        obtain ⟨hoption, hfailed, hsilent⟩ := realToolPath_eq_none.mp hfound
        exact ⟨hoption, Or.inr ⟨hfailed, hsilent, errorIf_eq_ok.mp hcontinues rfl,
          exitUnless_eq_ok.mp hvalid, (runPipeline_eq_ok.mp hrun).1⟩⟩
  · rintro ⟨hoption, ⟨hpassed, hempty⟩ | ⟨hfailed, hsilent, hcontinues, hvalid, hreturns⟩⟩
    · refine ⟨.backOfEmptyString, ?_⟩
      apply Outcome.bind_eq_error.mpr
      exact Or.inl (realToolPath_eq_error.mpr ⟨hoption, Or.inr ⟨hpassed, hempty, rfl⟩⟩)
    · refine ⟨.valueOfNone, ?_⟩
      apply Outcome.bind_eq_error.mpr
      refine Or.inr ⟨none, realToolPath_eq_none.mpr ⟨hoption, hfailed, hsilent⟩, ?_⟩
      apply Outcome.bind_eq_error.mpr
      refine Or.inr ⟨(), errorIf_eq_ok.mpr fun _ => hcontinues, ?_⟩
      apply Outcome.bind_eq_error.mpr
      refine Or.inr ⟨_, rfl, ?_⟩
      apply Outcome.bind_eq_error.mpr
      refine Or.inr ⟨(), exitUnless_eq_ok.mpr hvalid, ?_⟩
      apply Outcome.bind_eq_error.mpr
      exact Or.inr ⟨_, runPipeline_eq_ok.mpr ⟨hreturns, rfl⟩, rfl⟩

theorem main_prepared {prepared : Prepared} (h : prepare tool outside args = .ok prepared) :
    main tool outside args = runLibtool outside prepared := by
  rw [main, h]

theorem main_stopped {stop : Stop} (h : prepare tool outside args = .error stop) :
    main tool outside args = ⟨stop, none⟩ := by
  rw [main, h]

end Main

/-- The command line gets to `runLibtool`: no `-Xmull` is without its argument, libtool is found,
every object can be accessed and the pipeline comes back. -/
structure Arrives (tool : Tool Module Point) (outside : Outside) (args : List String)
    (options : Options) : Prop where
  no_dangling : MarkerScan.dangling isXmull args = false
  parsed : tool.parseCommandLineOptions (tool.programName :: mullPart args) = some options
  found : ∃ libtool, getLibtoolPath outside options = .ok (some libtool)
  accessible : ∀ object ∈ collectFiltered outside.fs (tool.parseArgs (linkerPart args)) [],
    outside.access object = true
  returns : tool.pipelineReturns (setup outside options.toWrapperOptions "" groups)
    (collectFiltered outside.fs (tool.parseArgs (linkerPart args)) []) = true

/-- What a started libtool has to do with the command line of mull-libtool. -/
structure StandsIn (tool : Tool Module Point) (outside : Outside) (args : List String)
    (options : Options) (launch : Launch) : Prop where
  parsed : tool.parseCommandLineOptions (tool.programName :: mullPart args) = some options
  found : getLibtoolPath outside options = .ok (some launch.program)
  options_kept : launch.arguments =
    ((tool.parseArgs (linkerPart args)).filter fun arg => !arg.isObject).flatMap Arg.render ++
      ["-filelist", outside.temporaryFile]
  objects : ∃ inputObjects linked,
    Libtool.collectObjectFiles outside.fs (tool.parseArgs (linkerPart args)) [] =
        .ok inputObjects ∧
      (∀ object ∈ inputObjects, outside.access object = true) ∧
      Linked (tool.environment (setup outside options.toWrapperOptions "" groups))
        inputObjects linked ∧
      launch.filelist = filelistText linked ∧
      ((readFilelistFile
          (Function.update outside.fs outside.temporaryFile (some launch.filelist))
          outside.temporaryFile []).2 = linked ↔
        ∀ object ∈ linked, Listable object)

section Main

variable {tool outside} {args : List String}

theorem linkArguments_eq (parsedArgs : InputArgList) (path : String) :
    FrontEnd.libtool.linkArguments parsedArgs path =
      .ok (renderOthers parsedArgs [] ++ ["-filelist", path]) := rfl

/-- What `collectObjectLinkOpts` renders. -/
theorem renderOthers_nil (args : InputArgList) :
    renderOthers args [] = (args.filter fun arg => !arg.isObject).flatMap Arg.render := by
  have hothers := renderOthers_eq (args.map fun arg => (arg, 0)) []
  simp only [List.map_map, Function.comp_def, List.map_id', List.nil_append, filteredOptions,
    List.filter_map, List.flatMap_map] at hothers
  rw [hothers]
  simp only [Arg.isObject, Bool.not_or]

/-- A preparation comes to its end exactly if libtool is found, every object is accessible and the
pipeline comes back. -/
theorem prepareWith_ok_iff {options : Options} {libtoolArgs : List String} :
    (∃ prepared, prepareWith tool outside options libtoolArgs = .ok prepared) ↔
      (∃ libtool, getLibtoolPath outside options = .ok (some libtool)) ∧
        (∀ object ∈ collectFiltered outside.fs (tool.parseArgs libtoolArgs) [],
          outside.access object = true) ∧
        tool.pipelineReturns (setup outside options.toWrapperOptions "" groups)
          (collectFiltered outside.fs (tool.parseArgs libtoolArgs) []) = true := by
  constructor
  · rintro ⟨prepared, h⟩
    obtain ⟨hfound, hparsed, hobjects, hvalid, hreturns, -⟩ := prepareWith_eq_ok h
    rw [hobjects, hparsed] at hvalid hreturns
    exact ⟨⟨_, hfound⟩, List.all_eq_true.mp hvalid, hreturns⟩
  · rintro ⟨⟨libtool, hfound⟩, haccess, hreturns⟩
    let inputObjects := collectFiltered outside.fs (tool.parseArgs libtoolArgs) []
    let env := tool.environment (setup outside options.toWrapperOptions "" groups)
    refine ⟨⟨libtool, tool.parseArgs libtoolArgs, inputObjects,
      MutationPipeline.run env inputObjects⟩, ?_⟩
    apply Outcome.bind_eq_ok.mpr
    refine ⟨some libtool, hfound, ?_⟩
    apply Outcome.bind_eq_ok.mpr
    refine ⟨(), rfl, ?_⟩
    apply Outcome.bind_eq_ok.mpr
    refine ⟨inputObjects, rfl, ?_⟩
    apply Outcome.bind_eq_ok.mpr
    refine ⟨(), exitUnless_eq_ok.mpr (List.all_eq_true.mpr haccess), ?_⟩
    apply Outcome.bind_eq_ok.mpr
    exact ⟨_, runPipeline_eq_ok.mpr ⟨hreturns, rfl⟩, rfl⟩

theorem runLibtool_launch {prepared : Prepared}
    (writable : Writable outside prepared.objectFiles) :
    (runLibtool outside prepared).launch =
      some ⟨prepared.libtool, renderOthers prepared.parsedArgs [] ++
        ["-filelist", outside.temporaryFile], filelistText prepared.objectFiles⟩ :=
  runRealTool_launch prepared.libtool (-1) (linkArguments_eq _ _) writable

theorem runLibtool_closed {prepared : Prepared}
    (closed : ¬ Writable outside prepared.objectFiles) :
    runLibtool outside prepared = ⟨.fault .streamNotOpen, none⟩ :=
  runRealTool_closed prepared.libtool (-1) (linkArguments_eq _ _) closed

/-- With a compiler that returns one object for each module, there is something to write exactly
if there are objects. -/
theorem writable_prepared_iff
    (appends : ∀ setup modules output, (tool.environment setup).mutantCompiler modules output =
      output ++ modules.map (tool.environment setup).compile)
    {prepared : Prepared} {options : Options}
    (h : Prepares tool outside args options prepared) :
    Writable outside prepared.objectFiles ↔
      Writable outside (collectFiltered outside.fs (tool.parseArgs (linkerPart args)) []) := by
  have hlinked := linked_run (appends (setup outside options.toWrapperOptions "" groups))
    prepared.inputObjects
  rw [← h.objectFiles_eq] at hlinked
  rw [writable_congr hlinked.length_eq, h.inputObjects_eq, h.parsedArgs_eq]

theorem standsIn_of_launch
    (appends : ∀ setup modules output, (tool.environment setup).mutantCompiler modules output =
      output ++ modules.map (tool.environment setup).compile)
    {prepared : Prepared} (h : prepare tool outside args = .ok prepared) {launch : Launch}
    (hlaunch : (runLibtool outside prepared).launch = some launch) :
    ∃ options, StandsIn tool outside args options launch := by
  obtain ⟨options, hprepares⟩ := prepares_of_ok h
  have writable : Writable outside prepared.objectFiles := by
    by_contra closed
    rw [runLibtool_closed closed] at hlaunch
    cases hlaunch
  obtain rfl := Option.some.inj ((runLibtool_launch writable).symm.trans hlaunch)
  have hparsed := hprepares.parsedArgs_eq
  refine ⟨options, hprepares.parsed, hprepares.found, ?_,
    ⟨prepared.inputObjects, prepared.objectFiles, ?_, hprepares.accessible, ?_, rfl, ?_⟩⟩
  · rw [hparsed, renderOthers_nil]
  · rw [hprepares.inputObjects_eq, hparsed]
    rfl
  · rw [hprepares.objectFiles_eq]
    exact linked_run (appends _) prepared.inputObjects
  · simp only [readFilelistFile, Function.update_self, List.nil_append]
    exact filelistLines_filelistText_iff prepared.objectFiles

theorem prepare_ok_iff :
    (∃ prepared, prepare tool outside args = .ok prepared) ↔
      ∃ options, Arrives tool outside args options := by
  cases hd : MarkerScan.dangling isXmull args with
  | true =>
      rw [prepare_dangling hd]
      constructor
      · rintro ⟨prepared, h⟩
        cases h
      · rintro ⟨options, harrives⟩
        exact absurd harrives.no_dangling (by simp [hd])
  | false =>
      rw [prepare_eq hd]
      cases hparsed : tool.parseCommandLineOptions (tool.programName :: mullPart args) with
      | none =>
          constructor
          · rintro ⟨prepared, h⟩
            cases h
          · rintro ⟨options, harrives⟩
            exact absurd harrives.parsed (by simp [hparsed])
      | some options =>
          refine prepareWith_ok_iff.trans ?_
          constructor
          · rintro ⟨hfound, haccess, hreturns⟩
            exact ⟨options, hd, hparsed, hfound, haccess, hreturns⟩
          · rintro ⟨options', harrives⟩
            obtain rfl := Option.some.inj (hparsed.symm.trans harrives.parsed)
            exact ⟨harrives.found, harrives.accessible, harrives.returns⟩

theorem prepare_exited {status : Nat}
    (h : prepare tool outside args = .error (.exited status)) : status = 1 := by
  cases hd : MarkerScan.dangling isXmull args with
  | true =>
      rw [prepare_dangling hd] at h
      cases h
  | false =>
      rw [prepare_eq hd] at h
      cases hparse : tool.parseCommandLineOptions (tool.programName :: mullPart args) with
      | none =>
          rw [hparse] at h
          exact (Stop.exited.inj (Except.error.inj h)).symm
      | some options =>
          rw [hparse] at h
          exact prepareWith_exited h

/-- libtool is started exactly from a preparation whose objects can be written down. -/
theorem launch_iff :
    (∃ launch, (main tool outside args).launch = some launch) ↔
      ∃ prepared, prepare tool outside args = .ok prepared ∧
        Writable outside prepared.objectFiles := by
  constructor
  · rintro ⟨launch, hlaunch⟩
    cases hprepare : prepare tool outside args with
    | error stop =>
        rw [main_stopped hprepare] at hlaunch
        cases hlaunch
    | ok prepared =>
        refine ⟨prepared, rfl, ?_⟩
        by_contra closed
        rw [main_prepared hprepare, runLibtool_closed closed] at hlaunch
        cases hlaunch
  · rintro ⟨prepared, hprepare, writable⟩
    rw [main_prepared hprepare]
    exact ⟨_, runLibtool_launch writable⟩

theorem exited_zero_iff :
    (main tool outside args).stop = .exited 0 ↔
      ∃ launch, (main tool outside args).launch = some launch ∧
        launch.Accepted outside (-1) := by
  cases hprepare : prepare tool outside args with
  | error stop =>
      rw [main_stopped hprepare]
      constructor
      · rintro rfl
        exact absurd (prepare_exited hprepare) (by decide)
      · rintro ⟨launch, hlaunch, -⟩
        cases hlaunch
  | ok prepared =>
      rw [main_prepared hprepare]
      by_cases writable : Writable outside prepared.objectFiles
      · rw [runLibtool_launch writable]
        rcases runRealTool_stop prepared.libtool (-1)
          (linkArguments_eq prepared.parsedArgs outside.temporaryFile) writable with
          ⟨hstop, haccepted⟩ | ⟨hstop, hrefused⟩
        · exact ⟨fun _ => ⟨_, rfl, haccepted⟩, fun _ => hstop⟩
        · constructor
          · intro hzero
            cases hzero.symm.trans hstop
          · rintro ⟨launch, hlaunch, haccepted⟩
            obtain rfl := Option.some.inj hlaunch
            exact absurd haccepted hrefused
      · simp [runLibtool_closed writable]

/-- The two ways in which the preparation can go wrong: in the splitting of the arguments and
behind the parser of the mull options. -/
theorem prepare_fault_iff :
    (∃ fault, prepare tool outside args = .error (.fault fault)) ↔
      MarkerScan.dangling isXmull args = true ∨
        ∃ options,
          tool.parseCommandLineOptions (tool.programName :: mullPart args) = some options ∧
            ∃ fault,
              prepareWith tool outside options (linkerPart args) = .error (.fault fault) := by
  cases hd : MarkerScan.dangling isXmull args with
  | true => simp [prepare_dangling hd]
  | false =>
      rw [prepare_eq hd]
      cases tool.parseCommandLineOptions (tool.programName :: mullPart args) with
      | none => simp
      | some options => simp

/-- Starting libtool adds the fault of a filelist that cannot be written. -/
theorem main_fault_iff :
    (∃ fault, (main tool outside args).stop = .fault fault) ↔
      (∃ fault, prepare tool outside args = .error (.fault fault)) ∨
        ∃ prepared, prepare tool outside args = .ok prepared ∧
          ¬ Writable outside prepared.objectFiles := by
  cases hprepare : prepare tool outside args with
  | error stop => simp [main_stopped hprepare]
  | ok prepared =>
      rw [main_prepared hprepare]
      by_cases writable : Writable outside prepared.objectFiles
      · rcases runRealTool_stop prepared.libtool (-1)
          (linkArguments_eq prepared.parsedArgs outside.temporaryFile) writable with
          ⟨hstop, -⟩ | ⟨hstop, -⟩
        · simp [runLibtool, hstop, writable]
        · simp [runLibtool, hstop, writable]
      · simp [runLibtool_closed writable, writable]

/-- **Where `main` of mull-libtool is safe.** Around the pipeline it stays within the rules of C++
and the assertions of LLVM exactly if no `-Xmull` is without its argument; where `xcrun` is asked
for libtool, it does not pass without an output, and its failure ends the process, meets an
object that cannot be accessed or a pipeline that does not come back; and the objects can be
written to the filelist, where it gets to them. -/
theorem main_libtool_safe_iff
    (appends : ∀ setup modules output, (tool.environment setup).mutantCompiler modules output =
      output ++ modules.map (tool.environment setup).compile)
    (args : List String) :
    (∀ fault, (main tool outside args).stop ≠ .fault fault) ↔
      MarkerScan.dangling isXmull args = false ∧
        (∀ options,
          tool.parseCommandLineOptions (tool.programName :: mullPart args) = some options →
            options.libtool = "" →
              ((xcrunResult outside "libtool" (-1)).passed = true →
                  (xcrunResult outside "libtool" (-1)).stdoutOutput ≠ "") ∧
                ((xcrunResult outside "libtool" (-1)).passed = false →
                  outside.errorEnds "failed to run xcrun" = true ∨
                    outside.errorEnds "no real libtool found" = true ∨
                    (∃ object ∈ collectFiltered outside.fs
                        (tool.parseArgs (linkerPart args)) [],
                      outside.access object = false) ∨
                    tool.pipelineReturns (setup outside options.toWrapperOptions "" groups)
                      (collectFiltered outside.fs (tool.parseArgs (linkerPart args)) []) =
                        false)) ∧
        ((∃ options, Arrives tool outside args options) →
          Writable outside (collectFiltered outside.fs (tool.parseArgs (linkerPart args)) [])) := by
  have hclosed : (∃ prepared, prepare tool outside args = .ok prepared ∧
      ¬ Writable outside prepared.objectFiles) ↔
        (∃ options, Arrives tool outside args options) ∧
          ¬ Writable outside
            (collectFiltered outside.fs (tool.parseArgs (linkerPart args)) []) := by
    rw [← prepare_ok_iff, ← exists_and_right]
    apply exists_congr
    intro prepared
    apply and_congr_right
    intro hprepare
    obtain ⟨options, hprepares⟩ := prepares_of_ok hprepare
    exact not_congr (writable_prepared_iff appends hprepares)
  rw [← not_exists, main_fault_iff, hclosed, prepare_fault_iff, not_or, not_or,
    Bool.not_eq_true, not_exists, and_assoc]
  apply and_congr_right
  intro _
  refine and_congr (forall_congr' fun options => ?_) not_and_not_right
  rw [not_and, prepareWith_fault_iff, not_and, not_or]
  apply imp_congr_right
  intro _
  apply imp_congr_right
  intro _
  apply and_congr not_and
  rw [← validateInputFiles_eq_false]
  cases (xcrunResult outside "libtool" (-1)).passed <;>
    cases outside.errorEnds "failed to run xcrun" <;>
    cases outside.errorEnds "no real libtool found" <;> simp [imp_iff_not_or]

end Main

section Example

/-- One mull option names the libtool program; any module is that of the example pipeline. -/
def exampleTool : Tool String String where
  programName := "mull-libtool"
  parseCommandLineOptions
    | ["mull-libtool", "-libtool", path] => some { libtool := path }
    | ["mull-libtool"] => some {}
    | _ => none
  parseArgs := parseFlat
  environment := fun _ => MutationPipeline.exampleEnvironment
  pipelineReturns := fun _ _ => true

def exampleOutside : Outside where
  fs := fun _ => none
  access := fun path => path == "a.o" || path == "c.o"
  isDirectory := fun _ => false
  runProgram := fun program _ _ _ => { passed := program == "libtool" }
  errorEnds := fun _ => true
  temporaryFile := "/tmp/filelist"
  filelistOpens := true
  createFromGitDiff := fun _ _ => false
  defaultWorkers := 1
  mullDefaultLinkerTimeoutMilliseconds := 0

def exampleArgs : List String :=
  ["-dylib", "-Xmull", "-libtool", "-Xmull", "libtool", "a.o", "c.o"]

/-- A filelist that cannot be opened is the one thing that makes these arguments unsafe. -/
theorem main_libtool_safe_iff_example :
    (∀ fault, (main exampleTool exampleOutside exampleArgs).stop ≠ .fault fault) ∧
      ¬ ∀ fault, (main exampleTool { exampleOutside with filelistOpens := false }
        exampleArgs).stop ≠ .fault fault := by
  constructor
  · refine (main_libtool_safe_iff (fun _ _ _ => rfl) exampleArgs).mpr ⟨rfl, ?_, ?_⟩
    · rintro options hparsed hempty
      obtain rfl : ({ libtool := "libtool" } : Options) = options := Option.some.inj hparsed
      exact absurd hempty (by decide)
    · exact fun _ => Or.inl rfl
  · intro safe
    have harrives : Arrives exampleTool { exampleOutside with filelistOpens := false } exampleArgs
        { libtool := "libtool" } := by
      refine ⟨rfl, rfl, ⟨"libtool", rfl⟩, ?_, rfl⟩
      decide
    rcases ((main_libtool_safe_iff (fun _ _ _ => rfl) exampleArgs).mp safe).2.2 ⟨_, harrives⟩ with
      hopens | hnone
    · cases hopens
    · cases hnone

end Example

end MullLibtool

end MullXCTest.Tools
