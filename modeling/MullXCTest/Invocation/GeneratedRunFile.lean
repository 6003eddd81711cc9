import MullXCTest.Invocation.XCTestRunTask

/-!
# The generated run file

What the edits of `GenerateXCRunFile` make of the entry for a mutant, whichever of
them fail. The edits for one mutant are about no other entry than its own, and the
source of the copies stays as it is until the last edit deletes it.
-/

namespace MullXCTest.Invocation

open RunFile

/-- The name of the target for a mutant. -/
def cloneName (testTarget identifier : String) : String :=
  testTarget ++ "-" ++ identifier

/-- Whether there is an entry with the name, and whether it has the variable. -/
def entryHas (file : Plist) (name identifier : String) : Option Bool :=
  (file.lookup name).map fun target => (target.environment identifier).isSome

/-- What the edits for mutants make of the entry for an identifier, by which of them fail. A copy
puts the state of the source in its place, and an added variable is there in any case. -/
def cloneState (fails : Nat → Bool) (source : Option Bool) (identifier : String) :
    Nat → List Mutant → Option Bool → Option Bool
  | _, [], state => state
  | position, mutant :: rest, state =>
      cloneState fails source identifier (position + 3) rest
        (if mutant.identifier = identifier then
          let state := if fails position then state else source <|> state
          if fails (position + 1) then state else some true
        else state)

section Edits

variable {fails : Nat → Bool} {testTarget : String}

theorem applyEdits_append (position : Nat) (first second : List Edit) (file : Plist) :
    applyEdits fails position (first ++ second) file =
      applyEdits fails (position + first.length) second
        (applyEdits fails position first file) := by
  induction first generalizing position file with
  | nil => rfl
  | cons edit rest ih =>
      simp only [List.cons_append, applyEdits, ih, List.length_cons]
      congr 1
      omega

theorem ne_cloneName (testTarget identifier : String) :
    testTarget ≠ cloneName testTarget identifier := by
  apply ne_of_length_lt
  simp only [cloneName, String.toList_append, List.length_append]
  have hdash : "-".toList.length = 1 := by decide
  omega

theorem cloneName_injective {identifier identifier' : String}
    (h : cloneName testTarget identifier = cloneName testTarget identifier') :
    identifier = identifier' :=
  (String.append_right_inj _).mp h

/-- The edits for one mutant. -/
def mutantEdits (testTarget : String) (mutant : Mutant) : List Edit :=
  [.duplicateTestTarget testTarget (cloneName testTarget mutant.identifier),
    .addEnvironmentVariable (cloneName testTarget mutant.identifier) mutant.identifier,
    .setBlueprintName (cloneName testTarget mutant.identifier) mutant.identifier]

theorem generateEdits_eq (testTarget : String) (mutants : List Mutant) :
    generateEdits testTarget mutants =
      mutants.flatMap (mutantEdits testTarget) ++ [.deleteTestTarget testTarget] := rfl

/-- The edits for a mutant are about no other entry than its own. -/
theorem lookup_mutantEdits_ne {name : String} (position : Nat) (mutant : Mutant) (file : Plist)
    (h : name ≠ cloneName testTarget mutant.identifier) :
    (applyEdits fails position (mutantEdits testTarget mutant) file).lookup name =
      file.lookup name := by
  simp only [mutantEdits, applyEdits]
  rw [lookup_run_ne _ h, lookup_run_ne _ h, lookup_run_ne _ h]

theorem entryHas_rename (failed : Bool) (file : Plist) (name blueprintName identifier : String) :
    entryHas ((Edit.setBlueprintName name blueprintName).run failed file) name identifier =
      entryHas file name identifier := by
  cases failed with
  | true => rfl
  | false =>
      simp only [entryHas, Edit.run, Edit.apply, Bool.false_eq_true, if_false, lookup_modify,
        Option.map_map]
      rfl

theorem entryHas_addVariable (failed : Bool) (file : Plist) (name identifier : String) :
    entryHas ((Edit.addEnvironmentVariable name identifier).run failed file) name identifier =
      if failed then entryHas file name identifier else some true := by
  cases failed with
  | true => rfl
  | false => simp [entryHas, Edit.run, Edit.apply]

theorem entryHas_duplicate (failed : Bool) (file : Plist) (src name identifier : String) :
    entryHas ((Edit.duplicateTestTarget src name).run failed file) name identifier =
      if failed then entryHas file name identifier
      else entryHas file src identifier <|> entryHas file name identifier := by
  cases failed with
  | true => rfl
  | false =>
      simp only [entryHas, Edit.run, Edit.apply, Bool.false_eq_true, if_false]
      cases file.lookup src with
      | none => rfl
      | some target => simp

/-- What the edits make of the entry for an identifier. -/
theorem entryHas_applyEdits (position : Nat) (mutants : List Mutant) (file : Plist)
    (identifier : String) :
    entryHas (applyEdits fails position (mutants.flatMap (mutantEdits testTarget)) file)
        (cloneName testTarget identifier) identifier =
      cloneState fails (entryHas file testTarget identifier) identifier position mutants
        (entryHas file (cloneName testTarget identifier) identifier) := by
  induction mutants generalizing position file with
  | nil => rfl
  | cons mutant rest ih =>
      have hsource : entryHas (applyEdits fails position (mutantEdits testTarget mutant) file)
          testTarget identifier = entryHas file testTarget identifier := by
        rw [entryHas, lookup_mutantEdits_ne _ _ _ (ne_cloneName _ _), entryHas]
      rw [List.flatMap_cons, applyEdits_append, ih, hsource]
      refine congrArg _ ?_
      by_cases hid : mutant.identifier = identifier
      · rw [if_pos hid]
        simp only [mutantEdits, applyEdits, hid, entryHas_rename, entryHas_addVariable,
          entryHas_duplicate]
      · rw [if_neg hid, entryHas, lookup_mutantEdits_ne, entryHas]
        intro h
        exact hid (cloneName_injective h).symm

end Edits

end MullXCTest.Invocation
