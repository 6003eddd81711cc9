import Mathlib.Data.Finset.Image
import Mathlib.Data.List.ReduceOption

/-!
# Reading the failures of a result bundle

`XCResultFile::getFailureTestTargets` on what `xcresulttool` prints. The typed
views on the JSON objects assert the type of each object, dereference what
`getObject` and `getArray` return and take the value of what `getString` returns,
so a document of another shape is a fault and no error.
-/

namespace MullXCTest.ResultBundle

/-- A JSON value. -/
inductive Json
  | null
  | bool (value : Bool)
  | number (value : Int)
  | string (value : String)
  | array (values : List Json)
  | object (members : List (String × Json))

abbrev JsonObject := List (String × Json)

namespace Json

def getAsObject : Json → Option JsonObject
  | .object members => some members
  | _ => none

def getObject (object : JsonObject) (key : String) : Option JsonObject :=
  match object.lookup key with
  | some (.object members) => some members
  | _ => none

def getArray (object : JsonObject) (key : String) : Option (List Json) :=
  match object.lookup key with
  | some (.array values) => some values
  | _ => none

def getString (object : JsonObject) (key : String) : Option String :=
  match object.lookup key with
  | some (.string value) => some value
  | _ => none

end Json

open Json

/-- What ends the reader without an error value. -/
inductive Fault
  | nullObject
  | nullArray
  | missingValue
  | assertType
  deriving DecidableEq

/-- A pointer that is dereferenced, or an optional whose value is taken. -/
def orFault (fault : Fault) {α : Type} : Option α → Except Fault α
  | none => .error fault
  | some a => .ok a

/-- `Value::assertType`, run by the constructor of every view. -/
def assertType (object : JsonObject) (typeIdentifier : String) : Except Fault Unit := do
  let typeObj ← orFault .nullObject (getObject object "_type")
  let typeName ← orFault .missingValue (getString typeObj "_name")
  if typeName = typeIdentifier then .ok () else .error .assertType

/-- `String(*found)` and its conversion. -/
def stringValue (object : JsonObject) : Except Fault String := do
  assertType object "String"
  orFault .missingValue (getString object "_value")

/-- `TestFailureIssueSummary::producingTarget`. -/
def producingTarget (object : JsonObject) : Except Fault (Option String) :=
  match getObject object "producingTarget" with
  | none => .ok none
  | some found => some <$> stringValue found

/-- An element of `Array<TestFailureIssueSummary>`, and its target. -/
def summaryTarget (element : Json) : Except Fault (Option String) := do
  let object ← orFault .nullObject element.getAsObject
  assertType object "TestFailureIssueSummary"
  producingTarget object

/-- The loop over the summaries. -/
def insertTargets (results : Finset String) : List Json → Except Fault (Finset String)
  | [] => .ok results
  | element :: rest => do
      match ← summaryTarget element with
      | none => insertTargets results rest
      | some target => insertTargets (insert target results) rest

/-- The part of `getFailureTestTargets` behind the parser. -/
def failureTargetsOf (json : Json) : Except Fault (Finset String) := do
  let record ← orFault .nullObject json.getAsObject
  assertType record "ActionsInvocationRecord"
  let issues ← orFault .nullObject (getObject record "issues")
  assertType issues "ResultIssueSummaries"
  match getObject issues "testFailureSummaries" with
  | none => .ok ∅
  | some summaries =>
      assertType summaries "Array"
      let values ← orFault .nullArray (getArray summaries "_values")
      insertTargets ∅ values

/-- A result bundle, as far as it matters here: the trimmed output of `xcresulttool`, and
nothing if the tool fails or prints nothing. -/
structure Bundle where
  output : Option String

/-- `parse` is LLVM's JSON parser. A missing bundle is one on which `xcresulttool` fails. -/
def getFailureTestTargets (parse : String → Except String Json) (bundle : Option Bundle) :
    Except Fault (Except String (Finset String)) :=
  match bundle.bind Bundle.output with
  | none => .ok (.error "failed to execute xcresulttool")
  | some jsonOutput =>
      match parse jsonOutput with
      | .error message => .ok (.error message)
      | .ok json => .ok <$> failureTargetsOf json

section Shape

/-- An object whose `_type` has the name. -/
def Typed (object : JsonObject) (typeIdentifier : String) : Prop :=
  ∃ typeObj, getObject object "_type" = some typeObj ∧
    getString typeObj "_name" = some typeIdentifier

/-- A test failure summary with or without a target. -/
inductive SummaryShape : Json → Option String → Prop
  | untargeted {object : JsonObject} (typed : Typed object "TestFailureIssueSummary")
      (absent : getObject object "producingTarget" = none) : SummaryShape (.object object) none
  | targeted {object found : JsonObject} {target : String}
      (typed : Typed object "TestFailureIssueSummary")
      (found_eq : getObject object "producingTarget" = some found)
      (string : Typed found "String") (value : getString found "_value" = some target) :
      SummaryShape (.object object) (some target)

/-- An invocation record with these targets in its test failure summaries, in order. -/
inductive RecordShape : Json → List (Option String) → Prop
  | withoutSummaries {record issues : JsonObject} (typed : Typed record "ActionsInvocationRecord")
      (issues_eq : getObject record "issues" = some issues)
      (issuesTyped : Typed issues "ResultIssueSummaries")
      (absent : getObject issues "testFailureSummaries" = none) : RecordShape (.object record) []
  | withSummaries {record issues summaries : JsonObject} {values : List Json}
      {targets : List (Option String)} (typed : Typed record "ActionsInvocationRecord")
      (issues_eq : getObject record "issues" = some issues)
      (issuesTyped : Typed issues "ResultIssueSummaries")
      (summaries_eq : getObject issues "testFailureSummaries" = some summaries)
      (summariesTyped : Typed summaries "Array")
      (values_eq : getArray summaries "_values" = some values)
      (shapes : List.Forall₂ SummaryShape values targets) : RecordShape (.object record) targets

theorem assertType_of_typed {object : JsonObject} {typeIdentifier : String}
    (h : Typed object typeIdentifier) : assertType object typeIdentifier = .ok () := by
  obtain ⟨typeObj, htype, hname⟩ := h
  simp [assertType, htype, hname, orFault, bind, Except.bind]

theorem summaryTarget_of_shape {element : Json} {target : Option String}
    (h : SummaryShape element target) : summaryTarget element = .ok target := by
  cases h with
  | untargeted typed absent =>
      simp [summaryTarget, getAsObject, orFault, assertType_of_typed typed, producingTarget, absent,
        bind, Except.bind]
  | targeted typed found_eq string value =>
      simp [summaryTarget, getAsObject, orFault, assertType_of_typed typed, producingTarget,
        found_eq, stringValue, assertType_of_typed string, value, bind, Except.bind, Functor.map,
        Except.map]

theorem insertTargets_of_shape {values : List Json} {targets : List (Option String)}
    (h : List.Forall₂ SummaryShape values targets) (results : Finset String) :
    insertTargets results values = .ok (results ∪ targets.reduceOption.toFinset) := by
  induction h generalizing results with
  | nil => simp [insertTargets]
  | cons hshape _ ih =>
      rw [insertTargets, summaryTarget_of_shape hshape]
      cases hshape with
      | untargeted => simpa [bind, Except.bind] using ih results
      | targeted =>
          simp only [bind, Except.bind, ih, List.reduceOption_cons_of_some, List.toFinset_cons]
          rw [Finset.insert_union, Finset.union_insert]

/-- A record of the expected shape gives exactly the targets that it names. -/
theorem failureTargetsOf_of_shape {json : Json} {targets : List (Option String)}
    (h : RecordShape json targets) :
    failureTargetsOf json = .ok targets.reduceOption.toFinset := by
  cases h with
  | withoutSummaries typed issues_eq issuesTyped absent =>
      simp [failureTargetsOf, getAsObject, orFault, assertType_of_typed typed, issues_eq,
        assertType_of_typed issuesTyped, absent, bind, Except.bind]
  | withSummaries typed issues_eq issuesTyped summaries_eq summariesTyped values_eq shapes =>
      simp [failureTargetsOf, getAsObject, orFault, assertType_of_typed typed, issues_eq,
        assertType_of_typed issuesTyped, summaries_eq, assertType_of_typed summariesTyped,
        values_eq, insertTargets_of_shape shapes, bind, Except.bind]

end Shape

end MullXCTest.ResultBundle
