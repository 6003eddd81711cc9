import MullXCTest.Library.Outcome
import MullXCTest.ResultBundle.XCResultFile

/-!
# Which documents can be read

A document that is read without a fault has the expected shape: every view that was
made had an object of its type, and every field that was used was there. So reading
is total on the expected shape alone, and any other document ends the reader.
-/

namespace MullXCTest.ResultBundle

open Json Outcome

section Inversion

theorem orFault_eq_ok {fault : Fault} {α : Type} {o : Option α} {a : α}
    (h : orFault fault o = .ok a) : o = some a := by
  cases o with
  | none => cases h
  | some b => exact congrArg some (Except.ok.inj h)

theorem getAsObject_eq_some {json : Json} {members : JsonObject}
    (h : json.getAsObject = some members) : json = .object members := by
  cases json with
  | object members' => exact congrArg _ (Option.some.inj h)
  | _ => cases h

theorem typed_of_assertType {object : JsonObject} {typeIdentifier : String}
    (h : assertType object typeIdentifier = .ok ()) : Typed object typeIdentifier := by
  obtain ⟨typeObj, htype, h⟩ := bind_eq_ok.mp h
  obtain ⟨typeName, hname, h⟩ := bind_eq_ok.mp h
  split_ifs at h with heq
  exact ⟨typeObj, orFault_eq_ok htype, heq ▸ orFault_eq_ok hname⟩

/-- An element that is read is a summary. -/
theorem shape_of_summaryTarget {element : Json} {target : Option String}
    (h : summaryTarget element = .ok target) : SummaryShape element target := by
  obtain ⟨object, hobject, h⟩ := bind_eq_ok.mp h
  obtain ⟨⟨⟩, htype, h⟩ := bind_eq_ok.mp h
  rw [getAsObject_eq_some (orFault_eq_ok hobject)]
  have typed := typed_of_assertType htype
  unfold producingTarget at h
  cases hfound : getObject object "producingTarget" with
  | none =>
      rw [hfound] at h
      obtain rfl := Except.ok.inj h
      exact .untargeted typed hfound
  | some found =>
      simp only [hfound] at h
      cases hstring : stringValue found with
      | error fault =>
          rw [hstring] at h
          cases h
      | ok value =>
          rw [hstring] at h
          obtain rfl := Except.ok.inj h
          obtain ⟨⟨⟩, hstringType, hvalue⟩ := bind_eq_ok.mp hstring
          exact .targeted typed hfound (typed_of_assertType hstringType) (orFault_eq_ok hvalue)

theorem shapes_of_insertTargets {values : List Json} {results targets : Finset String}
    (h : insertTargets results values = .ok targets) :
    ∃ shapes, List.Forall₂ SummaryShape values shapes := by
  induction values generalizing results with
  | nil => exact ⟨[], .nil⟩
  | cons element rest ih =>
      obtain ⟨target, helement, h⟩ := bind_eq_ok.mp h
      have hshape := shape_of_summaryTarget helement
      cases target with
      | none =>
          obtain ⟨shapes, hshapes⟩ := ih h
          exact ⟨none :: shapes, .cons hshape hshapes⟩
      | some target =>
          obtain ⟨shapes, hshapes⟩ := ih h
          exact ⟨some target :: shapes, .cons hshape hshapes⟩

/-- A document that is read has the expected shape. -/
theorem shape_of_failureTargetsOf {json : Json} {results : Finset String}
    (h : failureTargetsOf json = .ok results) : ∃ targets, RecordShape json targets := by
  obtain ⟨record, hrecord, h⟩ := bind_eq_ok.mp h
  obtain ⟨⟨⟩, hrecordType, h⟩ := bind_eq_ok.mp h
  obtain ⟨issues, hissues, h⟩ := bind_eq_ok.mp h
  obtain ⟨⟨⟩, hissuesType, h⟩ := bind_eq_ok.mp h
  rw [getAsObject_eq_some (orFault_eq_ok hrecord)]
  have typed := typed_of_assertType hrecordType
  have issuesTyped := typed_of_assertType hissuesType
  cases hsummaries : getObject issues "testFailureSummaries" with
  | none => exact ⟨[], .withoutSummaries typed (orFault_eq_ok hissues) issuesTyped hsummaries⟩
  | some summaries =>
      simp only [hsummaries] at h
      obtain ⟨⟨⟩, hsummariesType, h⟩ := bind_eq_ok.mp h
      obtain ⟨values, hvalues, h⟩ := bind_eq_ok.mp h
      obtain ⟨shapes, hshapes⟩ := shapes_of_insertTargets h
      exact ⟨shapes, .withSummaries typed (orFault_eq_ok hissues) issuesTyped hsummaries
        (typed_of_assertType hsummariesType) (orFault_eq_ok hvalues) hshapes⟩

end Inversion

/-- The reader comes back with an error or a set, which for a document of the expected shape is
the set of the targets that it names. -/
def ReadsTotally (parse : String → Except String Json) (bundle : Option Bundle) : Prop :=
  (∃ result, getFailureTestTargets parse bundle = .ok result) ∧
    ∀ output json targets, bundle.bind Bundle.output = some output → parse output = .ok json →
      RecordShape json targets →
        getFailureTestTargets parse bundle = .ok (.ok targets.reduceOption.toFinset)

/-- The tool prints nothing, or something that is no JSON, or a document of the expected shape. -/
def Readable (parse : String → Except String Json) (bundle : Option Bundle) : Prop :=
  bundle.bind Bundle.output = none ∨
    ∃ output, bundle.bind Bundle.output = some output ∧
      ((∃ message, parse output = .error message) ∨
        ∃ json targets, parse output = .ok json ∧ RecordShape json targets)

section Read

variable {parse : String → Except String Json} {bundle : Option Bundle} {output : String}

theorem read_of_parsed {json : Json} (houtput : bundle.bind Bundle.output = some output)
    (hparse : parse output = .ok json) :
    getFailureTestTargets parse bundle = .ok <$> failureTargetsOf json := by
  simp only [getFailureTestTargets, houtput, hparse]

theorem read_of_shape {json : Json} {targets : List (Option String)}
    (houtput : bundle.bind Bundle.output = some output) (hparse : parse output = .ok json)
    (hshape : RecordShape json targets) :
    getFailureTestTargets parse bundle = .ok (.ok targets.reduceOption.toFinset) := by
  rw [read_of_parsed houtput hparse, failureTargetsOf_of_shape hshape]
  rfl

theorem shape_of_read {json : Json} {result : Except String (Finset String)}
    (houtput : bundle.bind Bundle.output = some output) (hparse : parse output = .ok json)
    (hread : getFailureTestTargets parse bundle = .ok result) :
    ∃ targets, RecordShape json targets := by
  rw [read_of_parsed houtput hparse] at hread
  cases hresults : failureTargetsOf json with
  | error fault =>
      rw [hresults] at hread
      cases hread
  | ok results => exact shape_of_failureTargetsOf hresults

/-- Where there is no document, there is an error. -/
theorem read_of_readable (h : Readable parse bundle) :
    ∃ result, getFailureTestTargets parse bundle = .ok result := by
  rcases h with houtput | ⟨output, houtput, ⟨message, hparse⟩ | ⟨json, targets, hparse, hshape⟩⟩
  · exact ⟨.error "failed to execute xcresulttool", by simp only [getFailureTestTargets, houtput]⟩
  · exact ⟨.error message, by simp only [getFailureTestTargets, houtput, hparse]⟩
  · exact ⟨_, read_of_shape houtput hparse hshape⟩

end Read

/-- **Reading is total on the expected shape only.** A bundle is read without a fault, and exactly,
if and only if what `xcresulttool` prints for it is absent, no JSON, or of the expected shape. -/
theorem readsTotally_iff (parse : String → Except String Json) (bundle : Option Bundle) :
    ReadsTotally parse bundle ↔ Readable parse bundle := by
  constructor
  · rintro ⟨⟨result, hread⟩, -⟩
    cases houtput : bundle.bind Bundle.output with
    | none => exact Or.inl houtput
    | some output =>
        refine Or.inr ⟨output, houtput, ?_⟩
        cases hparse : parse output with
        | error message => exact Or.inl ⟨message, rfl⟩
        | ok json =>
            obtain ⟨targets, hshape⟩ := shape_of_read houtput hparse hread
            exact Or.inr ⟨json, targets, rfl, hshape⟩
  · intro readable
    exact ⟨read_of_readable readable, fun _ _ _ => read_of_shape⟩

/-- The text `[]` is JSON, but no object. -/
theorem not_readsTotally_example :
    ¬ ∀ parse bundle, ReadsTotally parse bundle := by
  intro total
  obtain ⟨⟨result, hread⟩, -⟩ := total (fun _ => .ok (.array [])) (some ⟨some "[]"⟩)
  cases hread

end MullXCTest.ResultBundle
