import MullXCTest.Invocation.XCTestInvocation

/-!
# The command of the baseline

The timeout of a mutant is ten times the time of the baseline. The command for it is put
together in `XCTestInvocation::run` without the pass-through arguments, which every task
is given for its own command, so that the baseline is taken on the mutants' tests only
where there are none.
-/

namespace MullXCTest.Invocation

namespace XCTestInvocation

open XCTestInvocation.MutantExecutionTask

/-- The call of `runProgram` for the warm-up run. -/
def warmUpLaunch (testBundle : String) (configuration : Configuration) : Launch where
  program := "/usr/bin/xcrun"
  arguments := ["xctest", testBundle]
  environment := []
  timeout := configuration.timeout
  captureOutput := configuration.captureMutantOutput

/-- Two calls that differ in the environment and in the timeout alone. -/
structure SameCommand (first second : Launch) : Prop where
  program : first.program = second.program
  arguments : first.arguments = second.arguments
  captureOutput : first.captureOutput = second.captureOutput

/-- The two runs before the mutants have the command of every mutant, whatever the baseline
returns. -/
def MeasuresMutants (testBundle : String) (xctestArgs : List String)
    (configuration : Configuration) : Prop :=
  ∀ (baseline : ExecutionResult) (mutant : Mutant),
    let mutantLaunch := launch (task testBundle xctestArgs configuration baseline) mutant
    SameCommand (warmUpLaunch testBundle configuration) mutantLaunch ∧
      SameCommand (baselineLaunch testBundle configuration) mutantLaunch

section Measured

variable {testBundle : String} {xctestArgs : List String} {configuration : Configuration}

/-- The pass-through arguments are all that the baseline leaves out. -/
theorem baselineLaunch_arguments_eq_iff (baseline : ExecutionResult) (mutant : Mutant) :
    (baselineLaunch testBundle configuration).arguments =
        (launch (task testBundle xctestArgs configuration baseline) mutant).arguments ↔
      xctestArgs = [] := by
  change ["xctest"] ++ [testBundle] = ["xctest"] ++ (xctestArgs ++ [testBundle]) ↔ _
  rw [List.append_cancel_left_eq, List.self_eq_append_left]

theorem sameCommand_of_nil (baseline : ExecutionResult) (mutant : Mutant) :
    SameCommand (baselineLaunch testBundle configuration)
      (launch (task testBundle [] configuration baseline) mutant) where
  program := rfl
  arguments := (baselineLaunch_arguments_eq_iff baseline mutant).mpr rfl
  captureOutput := rfl

end Measured

/-- **The baseline measures the mutants' command only without pass-through arguments.** -/
theorem measuresMutants_iff (testBundle : String) (xctestArgs : List String)
    (configuration : Configuration) :
    MeasuresMutants testBundle xctestArgs configuration ↔ xctestArgs = [] := by
  constructor
  · intro measures
    obtain ⟨-, same⟩ := measures {} ⟨"", true⟩
    exact (baselineLaunch_arguments_eq_iff _ _).mp same.arguments
  · rintro rfl baseline mutant
    have same := @sameCommand_of_nil testBundle configuration baseline mutant
    exact ⟨⟨same.program, same.arguments, same.captureOutput⟩, same⟩

/-- One test is selected for the mutants, and all tests run in the baseline. -/
theorem not_measuresMutants_example :
    ¬ ∀ testBundle xctestArgs configuration,
      MeasuresMutants testBundle xctestArgs configuration := by
  intro measures
  obtain ⟨-, same⟩ := measures "App.xctest" ["-XCTest", "AppTests/testOne"]
    ⟨1, 3000, false⟩ {} ⟨"a", true⟩
  exact absurd same.arguments (by decide)

end XCTestInvocation

end MullXCTest.Invocation
