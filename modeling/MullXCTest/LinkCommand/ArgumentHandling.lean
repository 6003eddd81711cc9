import MullXCTest.LinkCommand.Taken

/-!
# The argument handling of mull-ld

From the argument vector of `main` to the collected objects and options. Both
parsers are LLVM's and are parameters. The three places that look one element
ahead, and the option table that may be null, can leave the rules of C++; the
main result says on which vectors this happens.
-/

namespace MullXCTest.LinkCommand

open MarkerScan

/-- The same function in mull-ld and mull-libtool. -/
def filterMullOptions : List String → List String → List String →
    Except Fault (List String × List String)
  | [], mullArgs, linkerArgs => .ok (mullArgs, linkerArgs)
  | arg :: args, mullArgs, linkerArgs =>
      if arg = "-Xmull" then
        match args with
        | [] => .error .indexPastEnd
        | value :: args => filterMullOptions args (mullArgs ++ [value]) linkerArgs
      else filterMullOptions args mullArgs (linkerArgs ++ [arg])

/-- `none` is the null pointer. -/
def getLinkerOptTable (flavor : String) : Option FrontEnd :=
  if flavor = "ld64" then some .ld64
  else if flavor = "clang" then some .clang
  else none

/-- The option of mull-ld that its argument handling reads. -/
structure MullOptions where
  linkerFlavor : String := "ld64"

/-- LLVM's parsers of the mull options and of the linker options. -/
structure Parsers where
  parseCommandLineOptions : List String → Option MullOptions
  parseArgs : FrontEnd → List String → InputArgList

inductive ArgumentOutcome
  | rejected
  | help
  | collected (inputObjects : List String) (rawArgs : List String)
  deriving DecidableEq, Repr

section Main

variable (parsers : Parsers) (fs : FileSystem) (programName : String)

/-- The linker arguments, from the choice of the option table on. The rendered options are
those that `link` collects later from the same parsed arguments. -/
def handleLinkerArgs (options : MullOptions) (linkerArgs : List String) :
    Except Fault ArgumentOutcome :=
  match getLinkerOptTable options.linkerFlavor with
  | none => .error .nullOptTable
  | some optTable =>
      let parsedArgs := parsers.parseArgs optTable linkerArgs
      if optTable.hasHelpFlag parsedArgs then .ok .help
      else do
        let inputObjects ← optTable.collectObjectFiles fs parsedArgs []
        let rawArgs ← optTable.collectObjectLinkOpts parsedArgs []
        return .collected inputObjects rawArgs

/-- The argument handling in `main` of mull-ld. -/
def mainArguments (args : List String) : Except Fault ArgumentOutcome :=
  match filterMullOptions args [programName] [] with
  | .error fault => .error fault
  | .ok (mullArgs, linkerArgs) =>
      match parsers.parseCommandLineOptions mullArgs with
      | none => .ok .rejected
      | some options => handleLinkerArgs parsers fs options linkerArgs

end Main

def isXmull (arg : String) : Bool := arg == "-Xmull"

/-- The arguments that stand behind a `-Xmull`. -/
def mullPart (args : List String) : List String :=
  ((withValue isXmull false args).filter fun q => q.2).map Prod.fst

/-- The arguments that are neither a `-Xmull` nor stand behind one. -/
def linkerPart (args : List String) : List String :=
  ((withValue isXmull false args).filter fun q => !q.2 && !isXmull q.1).map Prod.fst

/-- The loop separates the two kinds of arguments, unless it ends on a `-Xmull`. -/
theorem filterMullOptions_eq (args mullArgs linkerArgs : List String)
    (h : dangling isXmull args = false) :
    filterMullOptions args mullArgs linkerArgs =
      .ok (mullArgs ++ mullPart args, linkerArgs ++ linkerPart args) := by
  induction args using scan_induction isXmull generalizing mullArgs linkerArgs with
  | nil => simp [filterMullOptions, mullPart, linkerPart]
  | single a ha => simp [dangling_single ha] at h
  | pair a value rest ha ih =>
      rw [dangling_marker ha] at h
      have hx : a = "-Xmull" := by simpa [isXmull] using ha
      rw [filterMullOptions, if_pos hx, ih _ _ h]
      simp [mullPart, linkerPart, withValue_marker ha, ha]
  | cons a rest ha ih =>
      rw [dangling_cons ha] at h
      have hx : a ≠ "-Xmull" := by simpa [isXmull] using ha
      have hstep : filterMullOptions (a :: rest) mullArgs linkerArgs =
          filterMullOptions rest mullArgs (linkerArgs ++ [a]) := by
        cases rest <;> simp [filterMullOptions, hx]
      rw [hstep, ih _ _ h]
      simp [mullPart, linkerPart, withValue_cons ha, ha]

/-- A `-Xmull` without a value makes the loop read behind the last argument. -/
theorem filterMullOptions_dangling (args mullArgs linkerArgs : List String)
    (h : dangling isXmull args = true) :
    filterMullOptions args mullArgs linkerArgs = .error .indexPastEnd := by
  induction args using scan_induction isXmull generalizing mullArgs linkerArgs with
  | nil => simp at h
  | single a ha => simp [filterMullOptions, show a = "-Xmull" by simpa [isXmull] using ha]
  | pair a value rest ha ih =>
      rw [dangling_marker ha] at h
      rw [filterMullOptions, if_pos (by simpa [isXmull] using ha), ih _ _ h]
  | cons a rest ha ih =>
      rw [dangling_cons ha] at h
      have hx : a ≠ "-Xmull" := by simpa [isXmull] using ha
      cases rest with
      | nil => simp at h
      | cons b rest => rw [filterMullOptions, if_neg hx, ih _ _ h]

/-- Nothing outside the arguments is touched, and the malformed vectors are rejected. -/
structure ArgumentsSafe (parsers : Parsers) (fs : FileSystem) (programName : String)
    (args : List String) : Prop where
  no_fault : ∀ fault, mainArguments parsers fs programName args ≠ .error fault
  trailing_xmull : args.getLast? = some "-Xmull" →
    mainArguments parsers fs programName args = .ok .rejected
  unknown_flavor : ∀ options,
    parsers.parseCommandLineOptions (programName :: mullPart args) = some options →
      getLinkerOptTable options.linkerFlavor = none →
        mainArguments parsers fs programName args = .ok .rejected
  trailing_astPath : ∀ options,
    parsers.parseCommandLineOptions (programName :: mullPart args) = some options →
      getLinkerOptTable options.linkerFlavor = some .ld64 →
        (∃ arg ∈ (parsers.parseArgs .ld64 (linkerPart args)).getLast?, isAstPath arg = true) →
          mainArguments parsers fs programName args = .ok .rejected

section Safety

variable {parsers : Parsers} {fs : FileSystem} {programName : String} {args : List String}

theorem mainArguments_dangling (h : dangling isXmull args = true) :
    mainArguments parsers fs programName args = .error .indexPastEnd := by
  rw [mainArguments, filterMullOptions_dangling _ _ _ h]

theorem mainArguments_eq (h : dangling isXmull args = false) :
    mainArguments parsers fs programName args =
      match parsers.parseCommandLineOptions (programName :: mullPart args) with
      | none => .ok .rejected
      | some options => handleLinkerArgs parsers fs options (linkerPart args) := by
  rw [mainArguments, filterMullOptions_eq _ _ _ h]
  rfl

/-- Behind the parser of the mull options no vector is rejected any more. -/
theorem handleLinkerArgs_ne_rejected (options : MullOptions) (linkerArgs : List String) :
    handleLinkerArgs parsers fs options linkerArgs ≠ .ok .rejected := by
  unfold handleLinkerArgs
  cases getLinkerOptTable options.linkerFlavor with
  | none => simp
  | some optTable =>
      dsimp only
      split_ifs
      · simp
      · cases optTable.collectObjectFiles fs (parsers.parseArgs optTable linkerArgs) [] with
        | error fault => simp [bind, Except.bind]
        | ok inputObjects =>
            cases optTable.collectObjectLinkOpts (parsers.parseArgs optTable linkerArgs) [] <;>
              simp [bind, Except.bind, pure, Except.pure]

/-- With a known table and no dangling `-add_ast_path` the handling comes to an end. -/
theorem handleLinkerArgs_ok (fs : FileSystem) {options : MullOptions} {linkerArgs : List String}
    {optTable : FrontEnd} (hflavor : getLinkerOptTable options.linkerFlavor = some optTable)
    (hscan : optTable.Scannable (parsers.parseArgs optTable linkerArgs)) :
    ∃ outcome, handleLinkerArgs parsers fs options linkerArgs = .ok outcome := by
  obtain ⟨inputObjects, hfiles⟩ := optTable.collectObjectFiles_ok fs hscan
  obtain ⟨rawArgs, hopts⟩ := optTable.collectObjectLinkOpts_ok hscan
  simp only [handleLinkerArgs, hflavor, hfiles, hopts]
  split_ifs
  · exact ⟨.help, rfl⟩
  · exact ⟨.collected inputObjects rawArgs, rfl⟩

/-- **Safety of the argument handling.** Everything is safe, and the malformed vectors are
rejected, exactly on the vectors without a dangling `-Xmull` that LLVM's option parser either
rejects itself or accepts with a known linker flavor, a last argument other than `-Xmull`
and, for ld64, a last parsed argument other than `-add_ast_path`. -/
theorem argumentsSafe_iff (parsers : Parsers) (fs : FileSystem) (programName : String)
    (args : List String) :
    ArgumentsSafe parsers fs programName args ↔
      dangling isXmull args = false ∧
        ∀ options,
          parsers.parseCommandLineOptions (programName :: mullPart args) = some options →
            args.getLast? ≠ some "-Xmull" ∧
              ∃ optTable, getLinkerOptTable options.linkerFlavor = some optTable ∧
                (optTable = .ld64 →
                  ∀ arg ∈ (parsers.parseArgs .ld64 (linkerPart args)).getLast?,
                    isAstPath arg = false) := by
  constructor
  · intro safe
    have hd : dangling isXmull args = false := by
      by_contra hd
      exact safe.no_fault _ (mainArguments_dangling (by simpa using hd))
    refine ⟨hd, ?_⟩
    intro options hparse
    have hne : mainArguments parsers fs programName args ≠ .ok .rejected := by
      rw [mainArguments_eq hd, hparse]
      exact handleLinkerArgs_ne_rejected options _
    refine ⟨fun hlast => hne (safe.trailing_xmull hlast), ?_⟩
    cases hflavor : getLinkerOptTable options.linkerFlavor with
    | none => exact absurd (safe.unknown_flavor options hparse hflavor) hne
    | some optTable =>
        refine ⟨optTable, rfl, ?_⟩
        rintro rfl arg harg
        by_contra hast
        exact hne (safe.trailing_astPath options hparse hflavor
          ⟨arg, harg, by simpa using hast⟩)
  · rintro ⟨hd, hoptions⟩
    cases hparse : parsers.parseCommandLineOptions (programName :: mullPart args) with
    | none =>
        have hrej : mainArguments parsers fs programName args = .ok .rejected := by
          rw [mainArguments_eq hd, hparse]
        exact ⟨by simp [hrej], fun _ => hrej, fun _ _ _ => hrej, fun _ _ _ _ => hrej⟩
    | some options =>
        obtain ⟨hlast, optTable, hflavor, hast⟩ := hoptions options hparse
        have hscan : optTable.Scannable (parsers.parseArgs optTable (linkerPart args)) := by
          rintro rfl
          by_contra hdang
          obtain ⟨arg, harg, hm⟩ := getLast?_of_dangling (Bool.not_eq_false _ ▸ hdang)
          rw [hast rfl arg harg] at hm
          cases hm
        obtain ⟨outcome, hok⟩ := handleLinkerArgs_ok fs hflavor hscan
        have hmain : mainArguments parsers fs programName args = .ok outcome := by
          rw [mainArguments_eq hd, hparse]
          exact hok
        refine ⟨by simp [hmain], fun h => absurd h hlast, ?_, ?_⟩
        · intro options' hparse' hflavor'
          obtain rfl := Option.some.inj (hparse.symm.trans hparse')
          rw [hflavor] at hflavor'
          cases hflavor'
        · rintro options' hparse' hflavor' ⟨arg, harg, hm⟩
          obtain rfl := Option.some.inj (hparse.symm.trans hparse')
          obtain rfl := Option.some.inj (hflavor.symm.trans hflavor')
          rw [hast rfl arg harg] at hm
          cases hm

end Safety

section Example

/-- Parsers that know the linker flavors and the flags of the examples. -/
def exampleParsers : Parsers where
  parseCommandLineOptions args :=
    if "--linker-flavor=gold" ∈ args then some ⟨"gold"⟩ else some ⟨"ld64"⟩
  parseArgs _ args := parseFlat args

/-- A trailing `-Xmull`, a trailing `-add_ast_path` and an unknown flavor are not rejected. -/
theorem not_argumentsSafe_example :
    ¬ ArgumentsSafe exampleParsers (fun _ => none) "mull-ld" ["a.o", "-Xmull"] ∧
      ¬ ArgumentsSafe exampleParsers (fun _ => none) "mull-ld" ["a.o", "-add_ast_path"] ∧
      ¬ ArgumentsSafe exampleParsers (fun _ => none) "mull-ld"
        ["-Xmull", "--linker-flavor=gold", "a.o"] :=
  ⟨fun safe => safe.no_fault .indexPastEnd (by decide),
    fun safe => safe.no_fault .iteratorPastEnd (by decide),
    fun safe => safe.no_fault .nullOptTable (by decide)⟩

end Example

end MullXCTest.LinkCommand
