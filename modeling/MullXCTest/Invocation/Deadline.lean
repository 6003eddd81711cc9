import MullXCTest.Invocation.XCTestRunTask
import Mathlib.Tactic.Linarith
import Mathlib.Tactic.Ring

/-!
# The deadline of a batch

A task gives its batch ten times the running time of the baseline for each mutant.
The product is a 64-bit number of milliseconds; the time that is waited for the
process is one of 32 bits, and xcodebuild is given whole seconds, so that long
batches lose their deadline and short ones get an allowance of nothing.
-/

namespace MullXCTest.Invocation

open MutantExecutionTask

section Numbers

theorem milliseconds_eq {timeout : Int} (h : 0 ≤ timeout) (h' : timeout < 2147483648) :
    milliseconds timeout = timeout := by
  apply BitVec.toInt_ofInt_eq_self (by decide)
  · simp only [Nat.add_one_sub_one, Int.reducePow, Int.reduceNeg]
    omega
  · simpa using h'

theorem milliseconds_lt (timeout : Int) : milliseconds timeout < 2147483648 := by
  simpa [milliseconds] using @BitVec.toInt_lt 32 (BitVec.ofInt 32 timeout)

/-- A length that fits is taken as it is. -/
theorem toInt_ofNat_eq {length : Nat} (h : length < 2147483648) :
    (BitVec.ofNat 32 length).toInt = length := by
  rw [← BitVec.ofInt_natCast]
  exact milliseconds_eq (Int.natCast_nonneg _) (by omega)

theorem toString_natCast_injective {m n : Nat} (h : toString (m : Int) = toString (n : Int)) :
    m = n :=
  Decimal.repr_injective h

end Numbers

/-- xcodebuild is started with this allowance for a test, as its last argument. -/
def Allowance (command : Command) (seconds : Int) : Prop :=
  ["-test-timeouts-enabled", "YES", "-maximum-test-execution-time-allowance", toString seconds] <:+
    command.arguments

/-- The allowance is the timeout in whole seconds. -/
theorem allowance_iff {xctestrunFile : String} {resultBundlePath : Option String}
    {extraArgs environment : List String} {timeout : Int} {logPath : String} (h : 0 < timeout)
    {seconds : Int} :
    Allowance (xcodeBuildTestCommand xctestrunFile resultBundlePath extraArgs environment timeout
        logPath) seconds ↔
      toString seconds = toString (timeout.tdiv 1000) := by
  constructor
  · rintro ⟨before, hsuffix⟩
    have hlast := congrArg List.getLast? hsuffix
    simpa [xcodeBuildTestCommand, programCommand, h, List.getLast?_append,
      List.getLast?_cons] using hlast
  · intro heq
    unfold Allowance
    rw [heq]
    simp only [xcodeBuildTestCommand, programCommand, gt_iff_lt, h, if_true]
    apply List.IsSuffix.trans _ (List.suffix_cons _ _)
    exact List.suffix_append _ _

section Command

variable {taskID : Nat} {config : XCTestRunConfig} {xctestrunFile : String}
  {baseline : ExecutionResult} {n : Nat}

/-- A batch of a length that fits has the deadline of its whole timeout, reduced to 32 bits. -/
theorem command_deadline (hn : n < 2147483648) :
    (command taskID config xctestrunFile baseline n).deadline =
      milliseconds (10 * baseline.runningTime * n) := by
  have hproduct : baseline.runningTime * n * 10 = 10 * baseline.runningTime * n := by ring
  simp only [command, toInt_ofNat_eq hn, xcodeBuildTestCommand, programCommand, hproduct]

theorem command_allowance_iff (hn : n < 2147483648) (h : 0 < 10 * baseline.runningTime * n)
    {seconds : Int} :
    Allowance (command taskID config xctestrunFile baseline n) seconds ↔
      toString seconds = toString ((10 * baseline.runningTime * n).tdiv 1000) := by
  have hproduct : baseline.runningTime * n * 10 = 10 * baseline.runningTime * n := by ring
  simp only [command, toInt_ofNat_eq hn, hproduct]
  exact allowance_iff h

theorem deadline_lt : (command taskID config xctestrunFile baseline n).deadline < 2147483648 :=
  milliseconds_lt _

end Command

/-- The process is waited for as long as the batch may take, and xcodebuild is given a positive
number of seconds that is not above it rounded up. -/
def DeadlineKept (command : Command) (r : Int) (n : Nat) : Prop :=
  command.deadline = 10 * r * n ∧
    ∃ seconds : Int, Allowance command seconds ∧ 0 < seconds ∧ seconds ≤ (10 * r * n + 999) / 1000

/-- **A deadline neither wraps nor vanishes exactly between one second and 32 bits.** For every
running time of the baseline and every batch whose product fits into 64 bits, both limits are
right if and only if the product is at least a second and less than 2147483648 milliseconds. -/
theorem deadlineKept_iff (taskID : Nat) (config : XCTestRunConfig) (xctestrunFile : String)
    (baseline : ExecutionResult) (n : Nat) (hr : 1 ≤ baseline.runningTime) (hn : 1 ≤ n)
    (hfits : 10 * baseline.runningTime * n < 9223372036854775808) :
    DeadlineKept (command taskID config xctestrunFile baseline n) baseline.runningTime n ↔
      100 ≤ baseline.runningTime * n ∧ 10 * baseline.runningTime * n < 2147483648 := by
  have hle : (n : Int) ≤ 10 * baseline.runningTime * n := by nlinarith
  have hassoc : 10 * baseline.runningTime * n = 10 * (baseline.runningTime * n) := by ring
  constructor
  · rintro ⟨hdeadline, seconds, hallowance, hpositive, -⟩
    have hlt : 10 * baseline.runningTime * n < 2147483648 := hdeadline ▸ deadline_lt
    refine ⟨?_, hlt⟩
    rw [command_allowance_iff (by omega) (by omega)] at hallowance
    obtain ⟨k, rfl⟩ := Int.eq_ofNat_of_zero_le hpositive.le
    have hnonneg : 0 ≤ 10 * baseline.runningTime * n := by omega
    obtain ⟨m, hm⟩ := Int.eq_ofNat_of_zero_le hnonneg
    rw [hm] at hallowance
    have hk : k = m / 1000 := toString_natCast_injective hallowance
    omega
  · rintro ⟨hsecond, hlt⟩
    refine ⟨?_, (10 * baseline.runningTime * n).tdiv 1000, ?_, ?_, ?_⟩
    · rw [command_deadline (by omega), milliseconds_eq (by omega) hlt]
    · exact (command_allowance_iff (by omega) (by omega)).mpr rfl
    · rw [Int.tdiv_eq_ediv_of_nonneg (by omega)]
      omega
    · rw [Int.tdiv_eq_ediv_of_nonneg (by omega)]
      omega

theorem deadlineKept_iff_example :
    DeadlineKept (command 0 exampleConfig "" { runningTime := 250 } 4) 250 4 :=
  (deadlineKept_iff 0 exampleConfig "" { runningTime := 250 } 4 (by decide) (by decide)
    (by decide)).mpr ⟨by decide, by decide⟩

/-- 358 mutants after a baseline of ten minutes have no deadline, and one mutant after a baseline
of fifty milliseconds is allowed no second. -/
theorem not_deadlineKept_example :
    ¬ DeadlineKept (command 0 exampleConfig "" { runningTime := 600000 } 358) 600000 358 ∧
      ¬ DeadlineKept (command 0 exampleConfig "" { runningTime := 50 } 1) 50 1 := by
  constructor
  · rintro ⟨hdeadline, -⟩
    exact absurd hdeadline (by decide)
  · rintro ⟨-, seconds, hallowance, hpositive, -⟩
    rw [command_allowance_iff (by decide) (by decide)] at hallowance
    obtain ⟨k, rfl⟩ := Int.eq_ofNat_of_zero_le hpositive.le
    have hk : k = 0 := toString_natCast_injective hallowance
    omega

end MullXCTest.Invocation
