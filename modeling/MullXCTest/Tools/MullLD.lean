import MullXCTest.Library.Outcome
import MullXCTest.LinkCommand.Conservation
import MullXCTest.Tools.Wrapper
import Mathlib.Data.List.Flatten

/-!
# mull-ld

`main` from the argument vector to the end of the real linker. Unlike mull-libtool
it looks at the objects before it looks for the linker, and it tests the path that
it finds, so that no message has to end the process for the linker to have a name.
-/

namespace MullXCTest.Tools

open LinkCommand Pipeline

namespace MullLD

structure Options extends WrapperOptions where
  linker : String := ""
  linkerFlavor : String := "ld64"

/-- mull-ld with LLVM's option parsers and the pipeline that is made of a setup. -/
structure Tool (Module Point : Type) where
  programName : String
  parseCommandLineOptions : List String → Option Options
  parseArgs : FrontEnd → List String → InputArgList
  environment : Setup → Environment Module Point
  /-- Whether the pipeline comes back from a run on these objects. -/
  pipelineReturns : Setup → List String → Bool

def groups : List String :=
  ["swift_comparison", "cxx_arithmetic", "cxx_arithmetic_assignment", "cxx_boundary",
    "swift_logical", "cxx_remove_void_call", "swift_eq_to_ne"]

variable {Module Point : Type} (tool : Tool Module Point) (outside : Outside)

def getLinkerPath (options : Options) : Except Stop (Option String) :=
  realToolPath outside options.linker "ld" 3000

/-- What `main` has when it calls `link`. -/
structure Prepared where
  linker : String
  optTable : FrontEnd
  parsedArgs : InputArgList
  inputObjects : List String
  objectFiles : List String

/-- `main` from the collection of the objects up to the call of `link`. -/
def prepareObjects (options : Options) (optTable : FrontEnd) (parsedArgs : InputArgList) :
    Except Stop Prepared := do
  let inputObjects ← orFault (optTable.collectObjectFiles outside.fs parsedArgs [])
  exitUnless (validateInputFiles outside.access inputObjects)
  -- The beginning of `bootstrapConfiguration`: without a path `configuration.linker` stays empty.
  let linker ← getLinkerPath outside options
  errorIf outside linker.isNone "no real linker found"
  let linker := linker.getD ""
  -- `validateConfiguration`
  errorIf outside (linker == "") "No linker specified. Please set --linker option."
  let setup := setup outside options.toWrapperOptions linker groups
  let objectFiles ← runPipeline (tool.pipelineReturns setup inputObjects)
    (tool.environment setup) inputObjects
  return { linker, optTable, parsedArgs, inputObjects, objectFiles }

/-- `main` from the parsed options on. -/
def prepareWith (options : Options) (linkerArgs : List String) : Except Stop Prepared :=
  match getLinkerOptTable options.linkerFlavor with
  | none => .error (.fault (.arguments .nullOptTable))
  | some optTable =>
      let parsedArgs := tool.parseArgs optTable linkerArgs
      -- `PrintHelpMessage`
      if optTable.hasHelpFlag parsedArgs then .error (.exited 0)
      else prepareObjects tool outside options optTable parsedArgs

/-- `main` up to the call of `link`. -/
def prepare (args : List String) : Except Stop Prepared := do
  let (mullArgs, linkerArgs) ← orFault (filterMullOptions args [tool.programName] [])
  match tool.parseCommandLineOptions mullArgs with
  | none => .error (.exited 1)
  | some options => prepareWith tool outside options linkerArgs

def link (prepared : Prepared) : Ended :=
  runRealTool outside prepared.optTable prepared.linker
    outside.mullDefaultLinkerTimeoutMilliseconds prepared.parsedArgs prepared.objectFiles

def main (args : List String) : Ended :=
  match prepare tool outside args with
  | .error stop => ⟨stop, none⟩
  | .ok prepared => link outside prepared

section Prepare

variable {tool outside} {args : List String} {options : Options} {optTable : FrontEnd}
  {parsedArgs : InputArgList}

theorem prepare_dangling (h : MarkerScan.dangling isXmull args = true) :
    prepare tool outside args = .error (.fault (.arguments .indexPastEnd)) := by
  rw [prepare, filterMullOptions_dangling _ _ _ h]
  rfl

theorem prepare_eq (h : MarkerScan.dangling isXmull args = false) :
    prepare tool outside args =
      match tool.parseCommandLineOptions (tool.programName :: mullPart args) with
      | none => .error (.exited 1)
      | some options => prepareWith tool outside options (linkerPart args) := by
  rw [prepare, filterMullOptions_eq _ _ _ h]
  rfl

theorem orFault_eq_ok {α : Type} {x : Except Fault α} {a : α} :
    orFault x = .ok a ↔ x = .ok a := by
  cases x <;> simp [orFault]

theorem orFault_eq_error {α : Type} {x : Except Fault α} {stop : Stop} :
    orFault x = .error stop ↔ ∃ fault, x = .error fault ∧ stop = .fault (.arguments fault) := by
  cases x <;> simp [orFault, eq_comm]

/-- Every way to the call of `link`. -/
structure Collected (tool : Tool Module Point) (outside : Outside) (options : Options)
    (optTable : FrontEnd) (parsedArgs : InputArgList) (prepared : Prepared) : Prop where
  optTable_eq : prepared.optTable = optTable
  parsedArgs_eq : prepared.parsedArgs = parsedArgs
  collected : optTable.collectObjectFiles outside.fs parsedArgs [] = .ok prepared.inputObjects
  accessible : ∀ object ∈ prepared.inputObjects, outside.access object = true
  found : ∃ linker?, getLinkerPath outside options = .ok linker? ∧
    (linker? = none → outside.errorEnds "no real linker found" = false) ∧
    prepared.linker = linker?.getD ""
  named : prepared.linker = "" →
    outside.errorEnds "No linker specified. Please set --linker option." = false
  returns : tool.pipelineReturns
    (setup outside options.toWrapperOptions prepared.linker groups) prepared.inputObjects = true
  objectFiles_eq : prepared.objectFiles = MutationPipeline.run
    (tool.environment (setup outside options.toWrapperOptions prepared.linker groups))
    prepared.inputObjects

theorem prepareObjects_eq_ok {prepared : Prepared} :
    prepareObjects tool outside options optTable parsedArgs = .ok prepared ↔
      Collected tool outside options optTable parsedArgs prepared := by
  constructor
  · intro h
    obtain ⟨inputObjects, hcollected, h⟩ := Outcome.bind_eq_ok.mp h
    obtain ⟨_, hvalid, h⟩ := Outcome.bind_eq_ok.mp h
    obtain ⟨linker?, hfound, h⟩ := Outcome.bind_eq_ok.mp h
    obtain ⟨_, hcontinues, h⟩ := Outcome.bind_eq_ok.mp h
    obtain ⟨_, hnamed, h⟩ := Outcome.bind_eq_ok.mp h
    obtain ⟨objectFiles, hrun, h⟩ := Outcome.bind_eq_ok.mp h
    obtain ⟨hreturns, rfl⟩ := runPipeline_eq_ok.mp hrun
    cases Except.ok.inj h
    refine ⟨rfl, rfl, orFault_eq_ok.mp hcollected,
      List.all_eq_true.mp (exitUnless_eq_ok.mp hvalid), ⟨linker?, hfound, ?_, rfl⟩, ?_, hreturns,
      rfl⟩
    · rintro rfl
      exact errorIf_eq_ok.mp hcontinues rfl
    · intro hempty
      exact errorIf_eq_ok.mp hnamed (beq_iff_eq.mpr hempty)
  · rintro ⟨rfl, rfl, hcollected, haccess, ⟨linker?, hfound, hcontinues, hlinker⟩, hnamed,
      hreturns, hrun⟩
    apply Outcome.bind_eq_ok.mpr
    refine ⟨_, orFault_eq_ok.mpr hcollected, ?_⟩
    apply Outcome.bind_eq_ok.mpr
    refine ⟨(), exitUnless_eq_ok.mpr (List.all_eq_true.mpr haccess), ?_⟩
    apply Outcome.bind_eq_ok.mpr
    refine ⟨linker?, hfound, ?_⟩
    apply Outcome.bind_eq_ok.mpr
    refine ⟨(), errorIf_eq_ok.mpr fun h => hcontinues (Option.isNone_iff_eq_none.mp h), ?_⟩
    apply Outcome.bind_eq_ok.mpr
    refine ⟨(), errorIf_eq_ok.mpr fun h => hnamed (hlinker.trans (beq_iff_eq.mp h)), ?_⟩
    obtain ⟨linker, optTable, parsedArgs, inputObjects, objectFiles⟩ := prepared
    dsimp only at hlinker hrun hreturns
    subst hlinker
    apply Outcome.bind_eq_ok.mpr
    exact ⟨objectFiles, runPipeline_eq_ok.mpr ⟨hreturns, hrun⟩, rfl⟩

/-- In front of the linker a preparation ends with status 1 or by a fault. -/
theorem prepareObjects_exited {status : Nat}
    (h : prepareObjects tool outside options optTable parsedArgs = .error (.exited status)) :
    status = 1 := by
  rcases Outcome.bind_eq_error.mp h with h | ⟨inputObjects, -, h⟩
  · obtain ⟨fault, -, h⟩ := orFault_eq_error.mp h
    cases h
  rcases Outcome.bind_eq_error.mp h with h | ⟨_, -, h⟩
  · exact Stop.exited.inj (exitUnless_eq_error.mp h).2
  rcases Outcome.bind_eq_error.mp h with h | ⟨linker?, -, h⟩
  · obtain ⟨-, ⟨-, -, h⟩ | ⟨-, -, h⟩⟩ := realToolPath_eq_error.mp h
    · exact Stop.exited.inj h
    · cases h
  rcases Outcome.bind_eq_error.mp h with h | ⟨_, -, h⟩
  · exact Stop.exited.inj (errorIf_eq_error.mp h).2.2
  rcases Outcome.bind_eq_error.mp h with h | ⟨_, -, h⟩
  · exact Stop.exited.inj (errorIf_eq_error.mp h).2.2
  rcases Outcome.bind_eq_error.mp h with h | ⟨objectFiles, -, h⟩
  · cases (runPipeline_eq_error.mp h).2
  · cases h

/-- The objects are collected exactly from the arguments that can be scanned to their end. -/
theorem scannable_iff {fs : FileSystem} :
    optTable.Scannable parsedArgs ↔
      ∃ inputObjects, optTable.collectObjectFiles fs parsedArgs [] = .ok inputObjects := by
  constructor
  · exact optTable.collectObjectFiles_ok fs
  · rintro ⟨inputObjects, hcollected⟩ rfl
    by_contra hdangling
    have hfault := (LD64OptTable.collect_dangling fs parsedArgs [] [] (by simpa using hdangling)).1
    cases hcollected.symm.trans hfault

/-- The two faults behind the option table: an `-add_ast_path` without its value, and an `xcrun`
that passes without an output where all objects can be accessed. -/
theorem prepareObjects_fault_iff :
    (∃ fault, prepareObjects tool outside options optTable parsedArgs = .error (.fault fault)) ↔
      ∀ inputObjects, optTable.collectObjectFiles outside.fs parsedArgs [] = .ok inputObjects →
        (∀ object ∈ inputObjects, outside.access object = true) ∧
          options.linker = "" ∧ (xcrunResult outside "ld" 3000).passed = true ∧
            (xcrunResult outside "ld" 3000).stdoutOutput = "" := by
  constructor
  · rintro ⟨fault, h⟩ inputObjects hinput
    rcases Outcome.bind_eq_error.mp h with h | ⟨objects, hcollected, h⟩
    · obtain ⟨fault, hfault, -⟩ := orFault_eq_error.mp h
      cases hinput.symm.trans hfault
    obtain rfl := Except.ok.inj (hinput.symm.trans (orFault_eq_ok.mp hcollected))
    rcases Outcome.bind_eq_error.mp h with h | ⟨_, hvalid, h⟩
    · cases (exitUnless_eq_error.mp h).2
    refine ⟨List.all_eq_true.mp (exitUnless_eq_ok.mp hvalid), ?_⟩
    rcases Outcome.bind_eq_error.mp h with h | ⟨linker?, -, h⟩
    · obtain ⟨hoption, ⟨-, -, h⟩ | ⟨hpassed, hempty, -⟩⟩ := realToolPath_eq_error.mp h
      · cases h
      · exact ⟨hoption, hpassed, hempty⟩
    rcases Outcome.bind_eq_error.mp h with h | ⟨_, -, h⟩
    · cases (errorIf_eq_error.mp h).2.2
    rcases Outcome.bind_eq_error.mp h with h | ⟨_, -, h⟩
    · cases (errorIf_eq_error.mp h).2.2
    rcases Outcome.bind_eq_error.mp h with h | ⟨objectFiles, -, h⟩
    · cases (runPipeline_eq_error.mp h).2
    · cases h
  · intro h
    cases hcollected : optTable.collectObjectFiles outside.fs parsedArgs [] with
    | error fault =>
        refine ⟨.arguments fault, ?_⟩
        apply Outcome.bind_eq_error.mpr
        exact Or.inl (orFault_eq_error.mpr ⟨fault, hcollected, rfl⟩)
    | ok inputObjects =>
        obtain ⟨haccess, hoption, hpassed, hempty⟩ := h inputObjects hcollected
        refine ⟨.backOfEmptyString, ?_⟩
        apply Outcome.bind_eq_error.mpr
        refine Or.inr ⟨inputObjects, orFault_eq_ok.mpr hcollected, ?_⟩
        apply Outcome.bind_eq_error.mpr
        refine Or.inr ⟨(), exitUnless_eq_ok.mpr (List.all_eq_true.mpr haccess), ?_⟩
        apply Outcome.bind_eq_error.mpr
        exact Or.inl (realToolPath_eq_error.mpr ⟨hoption, Or.inr ⟨hpassed, hempty, rfl⟩⟩)

end Prepare

/-- The command line is one on which `main` gets to the options of the real linker. -/
structure Parses (tool : Tool Module Point) (args : List String) (options : Options)
    (optTable : FrontEnd) : Prop where
  no_dangling : MarkerScan.dangling isXmull args = false
  parsed : tool.parseCommandLineOptions (tool.programName :: mullPart args) = some options
  flavor : getLinkerOptTable options.linkerFlavor = some optTable

/-- What a started linker has to do with the command line of mull-ld. -/
structure StandsIn (tool : Tool Module Point) (outside : Outside) (args : List String)
    (options : Options) (optTable : FrontEnd) (launch : Launch) : Prop where
  parses : Parses tool args options optTable
  no_help : optTable.hasHelpFlag (tool.parseArgs optTable (linkerPart args)) = false
  found : ∃ linker?, getLinkerPath outside options = .ok linker? ∧
    (linker? = none → outside.errorEnds "no real linker found" = false) ∧
    launch.program = linker?.getD ""
  named : launch.program = "" →
    outside.errorEnds "No linker specified. Please set --linker option." = false
  options_kept : ∃ rawArgs,
    optTable.collectObjectLinkOpts (tool.parseArgs optTable (linkerPart args)) [] = .ok rawArgs ∧
      rawArgs.Sublist ((tool.parseArgs optTable (linkerPart args)).flatMap Arg.render) ∧
      launch.arguments = rawArgs ++ ["-filelist", outside.temporaryFile]
  objects : ∃ inputObjects linked,
    optTable.collectObjectFiles outside.fs (tool.parseArgs optTable (linkerPart args)) [] =
        .ok inputObjects ∧
      (∀ object ∈ inputObjects, outside.access object = true) ∧
      Linked (tool.environment (setup outside options.toWrapperOptions launch.program groups))
        inputObjects linked ∧
      launch.filelist = filelistText linked

section Main

variable {tool outside} {args : List String} {options : Options} {optTable : FrontEnd}

theorem prepare_of_parses (h : Parses tool args options optTable) :
    prepare tool outside args =
      if optTable.hasHelpFlag (tool.parseArgs optTable (linkerPart args)) then .error (.exited 0)
      else prepareObjects tool outside options optTable
        (tool.parseArgs optTable (linkerPart args)) := by
  rw [prepare_eq h.no_dangling, h.parsed]
  simp only [prepareWith, h.flavor]

/-- Every other command line ends `main` early. -/
theorem prepare_of_not_parses (h : ∀ options optTable, ¬ Parses tool args options optTable) :
    (prepare tool outside args = .error (.fault (.arguments .indexPastEnd)) ∧
        MarkerScan.dangling isXmull args = true) ∨
      (prepare tool outside args = .error (.exited 1) ∧
        MarkerScan.dangling isXmull args = false ∧
        tool.parseCommandLineOptions (tool.programName :: mullPart args) = none) ∨
      (prepare tool outside args = .error (.fault (.arguments .nullOptTable)) ∧
        MarkerScan.dangling isXmull args = false ∧
        ∃ options,
          tool.parseCommandLineOptions (tool.programName :: mullPart args) = some options ∧
            getLinkerOptTable options.linkerFlavor = none) := by
  cases hd : MarkerScan.dangling isXmull args with
  | true => exact Or.inl ⟨prepare_dangling hd, rfl⟩
  | false =>
      rw [prepare_eq hd]
      refine Or.inr ?_
      cases hparsed : tool.parseCommandLineOptions (tool.programName :: mullPart args) with
      | none => exact Or.inl ⟨rfl, rfl, rfl⟩
      | some options =>
          cases hflavor : getLinkerOptTable options.linkerFlavor with
          | none =>
              refine Or.inr ⟨?_, rfl, options, rfl, hflavor⟩
              simp only [prepareWith, hflavor]
          | some optTable => exact absurd ⟨hd, hparsed, hflavor⟩ (h options optTable)

theorem link_of_collected {parsedArgs : InputArgList} {prepared : Prepared}
    (h : Collected tool outside options optTable parsedArgs prepared) :
    ∃ rawArgs, optTable.collectObjectLinkOpts parsedArgs [] = .ok rawArgs ∧
      prepared.optTable.linkArguments prepared.parsedArgs outside.temporaryFile =
        .ok (rawArgs ++ ["-filelist", outside.temporaryFile]) := by
  have hscan : optTable.Scannable parsedArgs := scannable_iff.mpr ⟨_, h.collected⟩
  obtain ⟨rawArgs, hraw⟩ := optTable.collectObjectLinkOpts_ok hscan
  refine ⟨rawArgs, hraw, ?_⟩
  rw [h.optTable_eq, h.parsedArgs_eq, FrontEnd.linkArguments, hraw]
  rfl

/-- The forwarded options are rendered arguments in their order. -/
theorem rawArgs_sublist {parsedArgs : InputArgList} {rawArgs : List String}
    (hscan : optTable.Scannable parsedArgs)
    (hraw : optTable.collectObjectLinkOpts parsedArgs [] = .ok rawArgs) :
    rawArgs.Sublist (parsedArgs.flatMap Arg.render) := by
  have hmap : parsedArgs.zipIdx.map Prod.fst = parsedArgs := List.zipIdx_map_fst 0 parsedArgs
  have htaken := optTable.collectObjectLinkOpts_eq parsedArgs.zipIdx (hmap.symm ▸ hscan)
  rw [hmap, hraw] at htaken
  rw [Except.ok.inj htaken, ← hmap, List.flatMap_map, hmap]
  exact (optTable.takenOptions_sublist parsedArgs.zipIdx).flatMap fun p => p.1.render

/-- A preparation that came to its end, on a command line without a help flag. -/
theorem prepare_eq_ok {prepared : Prepared} :
    prepare tool outside args = .ok prepared ↔
      ∃ options optTable, Parses tool args options optTable ∧
        optTable.hasHelpFlag (tool.parseArgs optTable (linkerPart args)) = false ∧
        Collected tool outside options optTable (tool.parseArgs optTable (linkerPart args))
          prepared := by
  constructor
  · intro h
    by_cases hparses : ∃ options optTable, Parses tool args options optTable
    · obtain ⟨options, optTable, hparses⟩ := hparses
      rw [prepare_of_parses hparses] at h
      split_ifs at h with hhelp
      exact ⟨options, optTable, hparses, by simpa using hhelp, prepareObjects_eq_ok.mp h⟩
    · simp only [not_exists] at hparses
      rcases @prepare_of_not_parses _ _ tool outside args hparses with
        ⟨hstop, -⟩ | ⟨hstop, -⟩ | ⟨hstop, -⟩
      all_goals
        rw [hstop] at h
        cases h
  · rintro ⟨options, optTable, hparses, hhelp, hcollected⟩
    rw [prepare_of_parses hparses, if_neg (by simp [hhelp])]
    exact prepareObjects_eq_ok.mpr hcollected

theorem prepare_exited_zero :
    prepare tool outside args = .error (.exited 0) ↔
      ∃ options optTable, Parses tool args options optTable ∧
        optTable.hasHelpFlag (tool.parseArgs optTable (linkerPart args)) = true := by
  constructor
  · intro h
    by_cases hparses : ∃ options optTable, Parses tool args options optTable
    · obtain ⟨options, optTable, hparses⟩ := hparses
      refine ⟨options, optTable, hparses, ?_⟩
      rw [prepare_of_parses hparses] at h
      split_ifs at h with hhelp
      · exact hhelp
      · exact absurd (prepareObjects_exited h) (by decide)
    · simp only [not_exists] at hparses
      rcases @prepare_of_not_parses _ _ tool outside args hparses with
        ⟨hstop, -⟩ | ⟨hstop, -⟩ | ⟨hstop, -⟩
      all_goals
        rw [hstop] at h
        cases h
  · rintro ⟨options, optTable, hparses, hhelp⟩
    rw [prepare_of_parses hparses, if_pos hhelp]

theorem main_prepared {prepared : Prepared} (h : prepare tool outside args = .ok prepared) :
    main tool outside args = link outside prepared := by
  rw [main, h]

theorem main_stopped {stop : Stop} (h : prepare tool outside args = .error stop) :
    main tool outside args = ⟨stop, none⟩ := by
  rw [main, h]

/-- A prepared tool starts the linker, and its status says whether that was accepted; only objects
that cannot be written down are in the way. -/
theorem link_cases {prepared : Prepared} (h : prepare tool outside args = .ok prepared) :
    (¬ Writable outside prepared.objectFiles ∧
        main tool outside args = ⟨.fault .streamNotOpen, none⟩) ∨
      (Writable outside prepared.objectFiles ∧
        ∃ launch, (main tool outside args).launch = some launch ∧
          (((main tool outside args).stop = .exited 0 ∧
              launch.Accepted outside outside.mullDefaultLinkerTimeoutMilliseconds) ∨
            ((main tool outside args).stop = .exited 1 ∧
              ¬ launch.Accepted outside outside.mullDefaultLinkerTimeoutMilliseconds))) := by
  obtain ⟨options, optTable, -, -, hcollected⟩ := prepare_eq_ok.mp h
  obtain ⟨rawArgs, -, harguments⟩ := link_of_collected hcollected
  rw [main_prepared h]
  by_cases writable : Writable outside prepared.objectFiles
  · exact Or.inr ⟨writable, _, runRealTool_launch _ _ harguments writable,
      runRealTool_stop _ _ harguments writable⟩
  · exact Or.inl ⟨writable, runRealTool_closed _ _ harguments writable⟩

theorem prepared_of_launch {launch : Launch}
    (hlaunch : (main tool outside args).launch = some launch) :
    ∃ prepared, prepare tool outside args = .ok prepared ∧
      Writable outside prepared.objectFiles := by
  cases hprepare : prepare tool outside args with
  | error stop =>
      rw [main_stopped hprepare] at hlaunch
      cases hlaunch
  | ok prepared =>
      rcases link_cases hprepare with ⟨-, hmain⟩ | ⟨writable, -⟩
      · rw [hmain] at hlaunch
        cases hlaunch
      · exact ⟨prepared, rfl, writable⟩

theorem standsIn_of_launch
    (appends : ∀ setup modules output, (tool.environment setup).mutantCompiler modules output =
      output ++ modules.map (tool.environment setup).compile)
    {launch : Launch} (hlaunch : (main tool outside args).launch = some launch) :
    ∃ options optTable, StandsIn tool outside args options optTable launch := by
  obtain ⟨prepared, hprepare, writable⟩ := prepared_of_launch hlaunch
  obtain ⟨options, optTable, hparses, hhelp, hcollected⟩ := prepare_eq_ok.mp hprepare
  obtain ⟨rawArgs, hraw, harguments⟩ := link_of_collected hcollected
  have hstarted := runRealTool_launch prepared.linker
    outside.mullDefaultLinkerTimeoutMilliseconds harguments writable
  rw [main_prepared hprepare] at hlaunch
  obtain rfl := Option.some.inj (hstarted.symm.trans hlaunch)
  refine ⟨options, optTable, hparses, hhelp, hcollected.found, hcollected.named,
    ⟨rawArgs, hraw, ?_, rfl⟩,
    ⟨prepared.inputObjects, prepared.objectFiles, hcollected.collected, hcollected.accessible,
      ?_, rfl⟩⟩
  · exact rawArgs_sublist (scannable_iff.mpr ⟨_, hcollected.collected⟩) hraw
  · rw [hcollected.objectFiles_eq]
    exact linked_run (appends _) prepared.inputObjects

/-- Starting the linker adds the fault of a filelist that cannot be written. -/
theorem main_fault_iff :
    (∃ fault, (main tool outside args).stop = .fault fault) ↔
      (∃ fault, prepare tool outside args = .error (.fault fault)) ∨
        ∃ prepared, prepare tool outside args = .ok prepared ∧
          ¬ Writable outside prepared.objectFiles := by
  cases hprepare : prepare tool outside args with
  | error stop => simp [main_stopped hprepare]
  | ok prepared =>
      rcases link_cases hprepare with
        ⟨closed, hmain⟩ | ⟨writable, launch, -, ⟨hstop, -⟩ | ⟨hstop, -⟩⟩
      · simp [hmain, closed]
      · simp [hstop, writable]
      · simp [hstop, writable]

/-- With a compiler that returns one object for each module, there is something to write exactly
if there are objects. -/
theorem Collected.writable_iff
    (appends : ∀ setup modules output, (tool.environment setup).mutantCompiler modules output =
      output ++ modules.map (tool.environment setup).compile)
    {parsedArgs : InputArgList} {prepared : Prepared}
    (h : Collected tool outside options optTable parsedArgs prepared) :
    Writable outside prepared.objectFiles ↔ Writable outside prepared.inputObjects := by
  have hlinked := linked_run
    (appends (setup outside options.toWrapperOptions prepared.linker groups))
    prepared.inputObjects
  rw [← h.objectFiles_eq] at hlinked
  exact writable_congr hlinked.length_eq

theorem prepareObjects_safe_iff {parsedArgs : InputArgList} :
    (∀ fault, prepareObjects tool outside options optTable parsedArgs ≠ .error (.fault fault)) ↔
      ∃ inputObjects, optTable.collectObjectFiles outside.fs parsedArgs [] = .ok inputObjects ∧
        ((∀ object ∈ inputObjects, outside.access object = true) →
          options.linker = "" → (xcrunResult outside "ld" 3000).passed = true →
            (xcrunResult outside "ld" 3000).stdoutOutput ≠ "") := by
  rw [← not_exists, prepareObjects_fault_iff]
  simp only [not_forall, not_and, exists_prop]

end Main

section Example

/-- Without mull options the linker is looked for; any module is that of the example pipeline. -/
def exampleTool : Tool String String where
  programName := "mull-ld"
  parseCommandLineOptions
    | ["mull-ld"] => some {}
    | _ => none
  parseArgs := fun _ args => parseFlat args
  environment := fun _ => MutationPipeline.exampleEnvironment
  pipelineReturns := fun _ _ => true

def exampleOutside : Outside where
  fs := fun _ => none
  access := fun path => path == "a.o" || path == "c.o"
  isDirectory := fun _ => false
  runProgram := fun program _ _ _ =>
    { passed := true, stdoutOutput := if program == "/usr/bin/xcrun" then "/usr/bin/ld\n" else "" }
  errorEnds := fun _ => true
  temporaryFile := "/tmp/filelist"
  filelistOpens := true
  createFromGitDiff := fun _ _ => false
  defaultWorkers := 1
  mullDefaultLinkerTimeoutMilliseconds := 0

def exampleArgs : List String := ["-dylib", "a.o", "-bitcode_bundle", "c.o"]

end Example

end MullLD

end MullXCTest.Tools
