import MullXCTest.Library.Decimal
import MullXCTest.ResultBundle.XCResultFile
import MullXCTest.RunFile.TestTargets
import Mathlib.Data.List.TakeWhile

/-!
# Running xcodebuild

`RunProgram` and `RunXcodeBuildTest` on what becomes of the process, and the
results and paths that the two drivers work with.
-/

namespace MullXCTest.Invocation

open ResultBundle RunFile

/-- `Invalid` is the status of a result that was never set. -/
inductive ExecutionStatus
  | invalid
  | failed
  | passed
  | timedout
  | notCovered
  deriving DecidableEq

/-- The status of a process, or a status of mull stored in its place. -/
inductive ExitStatus
  | process (status : Int)
  | converted (status : ExecutionStatus)

/-- `runningTime` is in milliseconds. -/
structure ExecutionResult where
  status : ExecutionStatus := .invalid
  exitStatus : ExitStatus := .process 0
  runningTime : Int := 0

structure Mutant where
  identifier : String
  isCovered : Bool
  deriving DecidableEq

structure MutationResult where
  result : ExecutionResult
  mutant : Mutant

/-- The mutants of results with their statuses. -/
def statuses (results : List MutationResult) : List (Mutant × ExecutionStatus) :=
  results.map fun r => (r.mutant, r.result.status)

/-- What a process is started with, and the time in milliseconds that is waited for it. -/
structure Command where
  arguments : List String
  environment : List (String × String)
  deadline : Int
  logPath : String

/-- What `wait` returned for a process, the time it took, and the result bundle that it wrote. -/
structure Process where
  timedOut : Bool
  status : Int
  elapsed : Int
  written : Option Bundle

/-- The argument behind the last occurrence of an option. -/
def lastValue (option : String) : List String → Option String
  | argument :: value :: rest =>
      match lastValue option (value :: rest) with
      | some found => some found
      | none => if argument = option then some value else none
  | _ => none

namespace Command

/-- The run file that xcodebuild is told to work on. -/
def runFile (command : Command) : Option String :=
  lastValue "-xctestrun" command.arguments

/-- The path that xcodebuild is told to write its result bundle to. -/
def resultBundle (command : Command) : Option String :=
  lastValue "-resultBundlePath" command.arguments

end Command

/-- `reproc::milliseconds`, which counts in 32 bits. -/
def milliseconds (timeout : Int) : Int :=
  (BitVec.ofInt 32 timeout).toInt

/-- What `RunProgram` starts. -/
def programCommand (program : String) (arguments environment : List String) (timeout : Int)
    (logPath : String) : Command where
  arguments := program :: arguments
  environment := environment.map fun e => (e, "1")
  deadline := milliseconds timeout
  logPath := logPath

/-- What `RunProgram` makes of the process. -/
def executionResult (process : Process) : ExecutionResult where
  status :=
    if process.timedOut then .timedout else if process.status = 0 then .passed else .failed
  exitStatus := .process process.status
  runningTime := process.elapsed

/-- What `RunXcodeBuildTest` starts. -/
def xcodeBuildTestCommand (xctestrunFile : String) (resultBundlePath : Option String)
    (extraArgs environment : List String) (timeout : Int) (logPath : String) : Command :=
  let arguments := "test-without-building" :: extraArgs ++ ["-xctestrun", xctestrunFile]
  let arguments :=
    match resultBundlePath with
    | none => arguments
    | some path => arguments ++ ["-resultBundlePath", path]
  let arguments :=
    if timeout > 0 then
      arguments ++ ["-test-timeouts-enabled", "YES", "-maximum-test-execution-time-allowance",
        toString (timeout.tdiv 1000)]
    else arguments
  programCommand "/usr/bin/xcodebuild" arguments environment timeout logPath

/-- `llvm::sys::path::append` with one component. -/
def pathAppend (path component : String) : String :=
  if path.toList.getLast? = some '/' then
    path ++ String.ofList (component.toList.dropWhile (· = '/'))
  else if path = "" ∨ component.toList.head? = some '/' then path ++ component
  else path ++ "/" ++ component

structure XCTestRunConfig where
  xctestrunFile : String
  testTarget : String
  resultBundleDir : String
  xcodebuildArgs : List String
  logPath : String

def resultBundlePath (resultBundleDir targetName : String) (taskID : Nat) : String :=
  pathAppend resultBundleDir (targetName ++ "-" ++ taskID.repr ++ ".xcresult")

/-- The log file with the name, if logs are wanted. -/
def logFile (logPath name : String) : String :=
  if logPath = "" then "" else pathAppend logPath name

section Paths

theorem ne_of_length_lt {s t : String} (h : s.toList.length < t.toList.length) : s ≠ t := by
  rintro rfl
  exact Nat.lt_irrefl _ h

/-- Behind a character that is no separator a component may be cut. -/
theorem pathAppend_append (path : String) {base : String} (suffix : String)
    (h : ∃ c ∈ base.toList, c ≠ '/') :
    pathAppend path (base ++ suffix) = pathAppend path base ++ suffix := by
  obtain ⟨c, hc, hne⟩ := h
  have hdrop : (base.toList ++ suffix.toList).dropWhile (· = '/') =
      base.toList.dropWhile (· = '/') ++ suffix.toList := by
    have hsome : base.toList.dropWhile (· = '/') ≠ [] := by
      intro hnil
      rw [List.dropWhile_eq_nil_iff] at hnil
      exact hne (by simpa using hnil c hc)
    rw [List.dropWhile_append, if_neg (by simpa using hsome)]
  have hhead : (base.toList ++ suffix.toList).head? = base.toList.head? := by
    obtain ⟨d, rest, hbase⟩ := List.exists_cons_of_ne_nil (List.ne_nil_of_mem hc)
    rw [hbase]
    rfl
  unfold pathAppend
  rw [String.toList_append, hdrop, hhead]
  split_ifs
  · rw [String.append_assoc]
    congr 1
    exact String.toList_inj.mp (by simp)
  · exact (String.append_assoc).symm
  · simp only [String.append_assoc]

/-- Different tasks have different bundles. -/
theorem resultBundlePath_injective {resultBundleDir targetName : String} {m n : Nat}
    (h : resultBundlePath resultBundleDir targetName m =
      resultBundlePath resultBundleDir targetName n) : m = n := by
  have hdash : ∃ c ∈ (targetName ++ "-").toList, c ≠ '/' :=
    ⟨'-', by rw [String.toList_append]; exact List.mem_append_right _ (by decide), by decide⟩
  have hpath : ∀ k, resultBundlePath resultBundleDir targetName k =
      pathAppend resultBundleDir (targetName ++ "-") ++ (k.repr ++ ".xcresult") := fun k => by
    rw [resultBundlePath, String.append_assoc, pathAppend_append _ _ hdash]
  rw [hpath, hpath] at h
  apply Decimal.repr_injective
  exact (String.append_left_inj _).mp ((String.append_right_inj _).mp h)

end Paths

section Arguments

variable {option value : String} {rest : List String}

theorem lastValue_eq_none {arguments : List String} (h : option ∉ arguments) :
    lastValue option arguments = none := by
  induction arguments with
  | nil => rfl
  | cons argument rest ih =>
      obtain ⟨hne, hrest⟩ := List.ne_and_not_mem_of_not_mem_cons h
      cases rest with
      | nil => rfl
      | cons value rest => rw [lastValue, ih hrest, if_neg (Ne.symm hne)]

/-- What is in front of the last occurrence does not matter. -/
theorem lastValue_append (before : List String) (h : option ∉ value :: rest) :
    lastValue option (before ++ option :: value :: rest) = some value := by
  induction before with
  | nil => rw [List.nil_append, lastValue, lastValue_eq_none h, if_pos rfl]
  | cons argument before ih =>
      obtain ⟨next, tail, htail⟩ := List.exists_cons_of_ne_nil
        (List.append_ne_nil_of_right_ne_nil before (List.cons_ne_nil option (value :: rest)))
      rw [List.cons_append, htail, lastValue, ← htail, ih]

/-- The time limits of a run, as xcodebuild is given them. -/
def TimeLimits (arguments : List String) : Prop :=
  arguments = [] ∨ ∃ n : Nat, arguments =
    ["-test-timeouts-enabled", "YES", "-maximum-test-execution-time-allowance", n.repr]

theorem TimeLimits.notMem {arguments : List String} (h : TimeLimits arguments)
    {c : Char} (hc : c.isDigit = false) (hoption : c ∈ option.toList)
    (hfixed : option ∉ ["-test-timeouts-enabled", "YES",
      "-maximum-test-execution-time-allowance"]) : option ∉ arguments := by
  rcases h with rfl | ⟨n, rfl⟩
  · exact List.not_mem_nil
  · simp only [List.mem_cons, List.not_mem_nil, or_false, not_or] at hfixed ⊢
    refine ⟨hfixed.1, hfixed.2.1, hfixed.2.2, ?_⟩
    rintro rfl
    exact Decimal.notMem_repr hc n hoption

/-- xcodebuild is told to run the tests of a run file and to write a result bundle. -/
def Command.Tests (command : Command) (extraArgs : List String) (runFile resultBundle : String) :
    Prop :=
  command.environment = [] ∧ ∃ limits, TimeLimits limits ∧
    command.arguments = "/usr/bin/xcodebuild" :: "test-without-building" :: extraArgs ++
      ["-xctestrun", runFile, "-resultBundlePath", resultBundle] ++ limits

/-- The arguments of `RunXcodeBuildTest`, in order. -/
theorem arguments_xcodeBuildTestCommand (xctestrunFile : String) (resultBundlePath : Option String)
    (extraArgs environment : List String) (timeout : Int) (logPath : String) :
    ∃ limits, TimeLimits limits ∧
      (xcodeBuildTestCommand xctestrunFile resultBundlePath extraArgs environment timeout
          logPath).arguments =
        "/usr/bin/xcodebuild" :: "test-without-building" :: extraArgs ++
          ["-xctestrun", xctestrunFile] ++
          resultBundlePath.elim [] (fun path => ["-resultBundlePath", path]) ++ limits := by
  by_cases htimeout : timeout > 0
  · have hseconds : 0 ≤ timeout.tdiv 1000 := Int.tdiv_nonneg htimeout.le (by decide)
    obtain ⟨n, hn⟩ := Int.eq_ofNat_of_zero_le hseconds
    refine ⟨_, .inr ⟨n, rfl⟩, ?_⟩
    cases resultBundlePath <;>
      simp [xcodeBuildTestCommand, programCommand, htimeout, hn] <;> rfl
  · refine ⟨[], .inl rfl, ?_⟩
    cases resultBundlePath <;> simp [xcodeBuildTestCommand, programCommand, htimeout]

theorem tests_xcodeBuildTestCommand (xctestrunFile resultBundlePath : String)
    (extraArgs : List String) (timeout : Int) (logPath : String) :
    (xcodeBuildTestCommand xctestrunFile (some resultBundlePath) extraArgs [] timeout
      logPath).Tests extraArgs xctestrunFile resultBundlePath := by
  obtain ⟨limits, hlimits, harguments⟩ := arguments_xcodeBuildTestCommand xctestrunFile
    (some resultBundlePath) extraArgs [] timeout logPath
  exact ⟨rfl, limits, hlimits, by simpa using harguments⟩

/-- Without a result bundle, xcodebuild finds the run file behind its option as well. -/
theorem runFile_xcodeBuildTestCommand {xctestrunFile : String} (extraArgs environment : List String)
    (timeout : Int) (logPath : String) (h : "-xctestrun" ≠ xctestrunFile) :
    (xcodeBuildTestCommand xctestrunFile none extraArgs environment timeout logPath).runFile =
      some xctestrunFile := by
  obtain ⟨limits, hlimits, harguments⟩ := arguments_xcodeBuildTestCommand xctestrunFile none
    extraArgs environment timeout logPath
  have hnot : "-xctestrun" ∉ limits := hlimits.notMem (c := 'x') rfl (by decide) (by decide)
  rw [Command.runFile, harguments, Option.elim_none, List.append_nil, List.append_assoc]
  apply lastValue_append
  simp [h, hnot]

/-- A text that ends otherwise is another one. -/
theorem ne_append_of_not_suffix {text suffix : String} (path : String)
    (h : ¬ suffix.toList <:+ text.toList) : text ≠ path ++ suffix := by
  rintro rfl
  rw [String.toList_append] at h
  exact h (List.suffix_append _ _)

theorem ne_resultBundlePath {text resultBundleDir targetName : String} {taskID : Nat}
    (h : ¬ ".xcresult".toList <:+ text.toList) :
    text ≠ resultBundlePath resultBundleDir targetName taskID := by
  have hdash : ∃ c ∈ (targetName ++ "-" ++ taskID.repr).toList, c ≠ '/' := by
    refine ⟨'-', ?_, by decide⟩
    simp [String.toList_append]
  rw [resultBundlePath, pathAppend_append _ _ hdash]
  exact ne_append_of_not_suffix _ h

variable {command : Command} {extraArgs : List String} {runFile resultBundle : String}

/-- xcodebuild finds the run file behind its option. -/
theorem Command.Tests.runFile_eq (h : command.Tests extraArgs runFile resultBundle)
    (hfile : "-xctestrun" ≠ runFile) (hbundle : "-xctestrun" ≠ resultBundle) :
    command.runFile = some runFile := by
  obtain ⟨-, limits, hlimits, harguments⟩ := h
  have hnot : "-xctestrun" ∉ limits := hlimits.notMem (c := 'x') rfl (by decide) (by decide)
  rw [Command.runFile, harguments, List.append_assoc]
  apply lastValue_append
  simp [hfile, hbundle, hnot]

theorem Command.Tests.resultBundle_eq (h : command.Tests extraArgs runFile resultBundle)
    (hbundle : "-resultBundlePath" ≠ resultBundle) :
    command.resultBundle = some resultBundle := by
  obtain ⟨-, limits, hlimits, harguments⟩ := h
  have hnot : "-resultBundlePath" ∉ limits :=
    hlimits.notMem (c := 'B') rfl (by decide) (by decide)
  have hargs : command.arguments =
      ("/usr/bin/xcodebuild" :: "test-without-building" :: extraArgs ++
          ["-xctestrun", runFile]) ++
        "-resultBundlePath" :: resultBundle :: limits := by
    simp [harguments]
  rw [Command.resultBundle, hargs]
  apply lastValue_append
  simp [hbundle, hnot]

end Arguments

end MullXCTest.Invocation
