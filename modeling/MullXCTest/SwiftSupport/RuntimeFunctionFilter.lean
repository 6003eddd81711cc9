import Mathlib.Data.List.Basic

/-!
# The filter for the functions of the Swift runtime

`RuntimeFunctionFilter::shouldSkip` on what LLVM tells of the value that a mutation
replaces. Only the removal of a direct call is judged, and by the name of the called
function alone.
-/

namespace MullXCTest.SwiftSupport

/-- mull's kinds of mutators, of which the filter knows one. -/
inductive MutatorKind
  | cxxRemoveVoidCall
  | other (name : String)
  deriving DecidableEq

/-- The original value of a mutation point, as `dyn_cast` and the accessors tell it. -/
inductive OriginalValue
  | call (calledFunction : Option String)
  | instruction
  | other
  deriving DecidableEq

namespace RuntimeFunctionFilter

/-- The functions of the standard library that do not return. -/
def functions : List String :=
  ["$ss12precondition__4file4lineySbyXK_SSyXKs12StaticStringVSutFfA0_SSycfu_",
    "$ss17_assertionFailure__4file4line5flagss5NeverOs12StaticStringV_SSAHSus6UInt32VtF",
    "$ss16assertionFailure_4file4lineySSyXK_s12StaticStringVSutF"]

def isUnrecoverableFunction (name : String) : Bool := functions.any fun funcName => name == funcName

/-- `getName().startswith("$s")` -/
def isUserSwiftFunc (name : String) : Bool := "$s".toList.isPrefixOf name.toList

/-- `none` is the failed assertion on a value that is not an instruction. -/
def shouldSkip (mutatorKind : MutatorKind) (originalValue : OriginalValue) : Option Bool :=
  if mutatorKind ≠ .cxxRemoveVoidCall then some false
  else
    match originalValue with
    | .other => none
    | .instruction => some false
    | .call none => some false
    | .call (some name) =>
        if !isUserSwiftFunc name then some true
        else if isUnrecoverableFunction name then some true
        else some false

/-- The removed call is a direct one, of a function that is not a Swift function of the program or
that does not return. -/
def OfRuntime (mutatorKind : MutatorKind) (originalValue : OriginalValue) : Prop :=
  mutatorKind = .cxxRemoveVoidCall ∧
    ∃ name, originalValue = .call (some name) ∧
      (isUserSwiftFunc name = false ∨ name ∈ functions)

theorem shouldSkip_eq_true {mutatorKind : MutatorKind} {originalValue : OriginalValue} :
    shouldSkip mutatorKind originalValue = some true ↔ OfRuntime mutatorKind originalValue := by
  unfold shouldSkip OfRuntime
  split_ifs with hkind
  · simp [hkind]
  · rw [not_not] at hkind
    cases originalValue with
    | other => simp
    | instruction => simp
    | call calledFunction =>
        cases calledFunction with
        | none => simp
        | some name =>
            cases huser : isUserSwiftFunc name with
            | false => simp [hkind, huser]
            | true => simp [hkind, huser, isUnrecoverableFunction]

/-- The assertion fails exactly on the removal of something that is not an instruction. -/
theorem shouldSkip_eq_none {mutatorKind : MutatorKind} {originalValue : OriginalValue} :
    shouldSkip mutatorKind originalValue = none ↔
      mutatorKind = .cxxRemoveVoidCall ∧ originalValue = .other := by
  unfold shouldSkip
  split_ifs with hkind
  · simp [hkind]
  · rw [not_not] at hkind
    cases originalValue with
    | other => simp [hkind]
    | instruction => simp
    | call calledFunction =>
        cases calledFunction with
        | none => simp
        | some name =>
            dsimp only
            split_ifs <;> simp

end RuntimeFunctionFilter

end MullXCTest.SwiftSupport
