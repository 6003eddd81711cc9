import MullXCTest.Pipeline.FunctionsUnderTest

/-!
# The selection by coverage is exact

What a name stands for in the two tables does not depend on the order of the
records, and the entries that the lookups insert are empty, so that every function
is judged by the records alone.
-/

namespace MullXCTest.Pipeline

/-- The parts of a name before and after its first colon; without one, the empty string and
the whole name. -/
def SplitsAt (name scope remainder : String) : Prop :=
  (':' ∉ name.toList ∧ scope = "" ∧ remainder = name) ∨
    (':' ∉ scope.toList ∧ name = scope ++ ":" ++ remainder)

instance (name scope remainder : String) : Decidable (SplitsAt name scope remainder) :=
  inferInstanceAs (Decidable (_ ∨ _))

theorem findIdx?_colon_eq_none {chars : List Char} (h : ':' ∉ chars) :
    chars.findIdx? (· = ':') = none := by
  rw [List.findIdx?_eq_none_iff]
  intro c hc
  simpa using fun heq : c = ':' => h (heq ▸ hc)

theorem splitName_eq {name scope remainder : String} (h : SplitsAt name scope remainder) :
    splitName name = (scope, remainder) := by
  obtain ⟨hnone, rfl, rfl⟩ | ⟨hscope, rfl⟩ := h
  · simp only [splitName, findIdx?_colon_eq_none hnone]
  · have hlist : (scope ++ ":" ++ remainder).toList = scope.toList ++ ':' :: remainder.toList := by
      simp
    have hidx : (scope.toList ++ ':' :: remainder.toList).findIdx? (· = ':') =
        some scope.toList.length := by
      simp [List.findIdx?_append, findIdx?_colon_eq_none hscope, List.findIdx?_cons]
    simp [splitName, hlist, hidx]

theorem splitsAt_splitName (name : String) :
    SplitsAt name (splitName name).1 (splitName name).2 := by
  have hexists : ∃ scope remainder, SplitsAt name scope remainder := by
    by_cases hcolon : ':' ∈ name.toList
    · obtain ⟨before, after, heq, hbefore⟩ := List.eq_append_cons_of_mem hcolon
      refine ⟨String.ofList before, String.ofList after, Or.inr ⟨by simpa using hbefore, ?_⟩⟩
      apply String.toList_injective
      simpa using heq
    · exact ⟨"", name, Or.inl ⟨hcolon, rfl, rfl⟩⟩
  obtain ⟨scope, remainder, hsplits⟩ := hexists
  rw [splitName_eq hsplits]
  exact hsplits

theorem splitName_eq_iff {name scope remainder : String} :
    splitName name = (scope, remainder) ↔ SplitsAt name scope remainder := by
  constructor
  · intro h
    have hsplits := splitsAt_splitName name
    rw [h] at hsplits
    exact hsplits
  · exact splitName_eq

section Tables

variable (names : CoveredNames) (it : FunctionRecord) (scope name : String)

/-- A record that was executed and whose name has these parts. -/
def FunctionRecord.Counts (it : FunctionRecord) (scope name : String) : Prop :=
  it.executionCount ≠ 0 ∧ SplitsAt it.name scope name

instance : Decidable (it.Counts scope name) := inferInstanceAs (Decidable (_ ∧ _))

/-- A record is ignored, inserted without a scope or inserted in its scope. -/
theorem addRecord_cases :
    (it.executionCount = 0 ∧ addRecord names it = names) ∨
      (∃ name', (∀ scope name, it.Counts scope name ↔ scope = "" ∧ name = name') ∧
        addRecord names it =
          { names with unscopedFunctions := insert name' names.unscopedFunctions }) ∨
      ∃ scope' name', scope' ≠ "" ∧
        (∀ scope name, it.Counts scope name ↔ scope = scope' ∧ name = name') ∧
        addRecord names it =
          { names with
            scopedFunctions := SetTable.add names.scopedFunctions scope' name' } := by
  by_cases hcount : it.executionCount = 0
  · exact Or.inl ⟨hcount, if_pos hcount⟩
  · right
    have hcounts : ∀ scope name, it.Counts scope name ↔
        scope = (splitName it.name).1 ∧ name = (splitName it.name).2 := by
      intro scope name
      unfold FunctionRecord.Counts
      rw [← splitName_eq_iff, Prod.ext_iff]
      simp only [hcount, not_false_eq_true, true_and, ne_eq, eq_comm]
    by_cases hscope : (splitName it.name).1 = ""
    · left
      refine ⟨(splitName it.name).2, fun scope name => ?_, ?_⟩
      · rw [hcounts, hscope]
      · simp [addRecord, hcount, hscope]
    · right
      refine ⟨(splitName it.name).1, (splitName it.name).2, hscope, hcounts, ?_⟩
      simp [addRecord, hcount, hscope]

theorem mem_unscopedFunctions_addRecord :
    name ∈ (addRecord names it).unscopedFunctions ↔
      name ∈ names.unscopedFunctions ∨ it.Counts "" name := by
  obtain ⟨hcount, hadd⟩ | ⟨name', hcounts, hadd⟩ | ⟨scope', name', hscope, hcounts, hadd⟩ :=
    addRecord_cases names it
  · simp [hadd, FunctionRecord.Counts, hcount]
  · simp [hadd, hcounts, or_comm]
  · simp [hadd, hcounts, hscope.symm]

theorem mem_scopedFunctions_addRecord :
    name ∈ SetTable.get (addRecord names it).scopedFunctions scope ↔
      name ∈ SetTable.get names.scopedFunctions scope ∨ scope ≠ "" ∧ it.Counts scope name := by
  obtain ⟨hcount, hadd⟩ | ⟨name', hcounts, hadd⟩ | ⟨scope', name', hscope, hcounts, hadd⟩ :=
    addRecord_cases names it
  · simp [hadd, FunctionRecord.Counts, hcount]
  · simp only [hadd, hcounts]
    tauto
  · rw [hadd, SetTable.mem_get_add, hcounts]
    have hne : scope = scope' → scope ≠ "" := fun heq => heq ▸ hscope
    tauto

variable (records : List FunctionRecord)

theorem mem_unscopedFunctions :
    name ∈ (records.foldl addRecord names).unscopedFunctions ↔
      name ∈ names.unscopedFunctions ∨ ∃ it ∈ records, it.Counts "" name := by
  induction records generalizing names with
  | nil => simp
  | cons it rest ih =>
      rw [List.foldl_cons, ih, mem_unscopedFunctions_addRecord]
      simp [or_assoc]

theorem mem_scopedFunctions :
    name ∈ SetTable.get (records.foldl addRecord names).scopedFunctions scope ↔
      name ∈ SetTable.get names.scopedFunctions scope ∨
        scope ≠ "" ∧ ∃ it ∈ records, it.Counts scope name := by
  induction records generalizing names with
  | nil => simp
  | cons it rest ih =>
      rw [List.foldl_cons, ih, mem_scopedFunctions_addRecord]
      simp [or_assoc, and_or_left]

end Tables

variable {Bitcode Function : Type} (symbols : Symbols Bitcode Function)

/-- Some executed record has the name of the function, without a scope or in that of its unit. -/
def Covered (records : List FunctionRecord) (function : Function) : Prop :=
  ∃ it ∈ records, ∃ scope ∈ ["", LLVM.filename (symbols.unitFilePath function)],
    it.Counts scope (symbols.getName function)

instance (records : List FunctionRecord) (function : Function) :
    Decidable (Covered symbols records function) :=
  inferInstanceAs (Decidable (∃ it ∈ records, ∃ scope ∈ _, _))

/-- All functions of a program with their modules, in program order. -/
def programFunctions (program : List Bitcode) : List (Function × Bitcode) :=
  program.flatMap fun bitcode =>
    (symbols.getModule bitcode).map fun function => (function, bitcode)

/-- What the records make of a function: under test as covered, as not covered, or not at all. -/
def judged (includeNotCovered : Bool) (records : List FunctionRecord) (p : Function × Bitcode) :
    Option (FunctionUnderTest Bitcode Function) :=
  if Covered symbols records p.1 then some { function := p.1, bitcode := p.2 }
  else if includeNotCovered then some { function := p.1, bitcode := p.2, covered := false }
  else none

section Lookups

variable {symbols} {unscopedFunctions : Finset String} {scopedFunctions : SetTable String String}
  {records : List FunctionRecord}

theorem lookupFunction_fst (function : Function) :
    (lookupFunction symbols unscopedFunctions scopedFunctions function).1 = true ↔
      symbols.getName function ∈ unscopedFunctions ∨
        symbols.getName function ∈ SetTable.get scopedFunctions
          (LLVM.filename (symbols.unitFilePath function)) := by
  unfold lookupFunction
  by_cases hname : symbols.getName function ∈ unscopedFunctions
  · simp [hname]
  · simp [hname]

/-- A lookup inserts nothing but an empty entry. -/
theorem get_lookupFunction (function : Function) (key : String) :
    SetTable.get (lookupFunction symbols unscopedFunctions scopedFunctions function).2 key =
      SetTable.get scopedFunctions key := by
  unfold lookupFunction
  by_cases hname : symbols.getName function ∈ unscopedFunctions
  · simp [hname]
  · simp [hname]

/-- The scoped table behind the lookups of some functions. -/
def afterLookups (symbols : Symbols Bitcode Function) (unscopedFunctions : Finset String)
    (scopedFunctions : SetTable String String) (visited : List Function) :
    SetTable String String :=
  visited.foldl
    (fun scopedFunctions function =>
      (lookupFunction symbols unscopedFunctions scopedFunctions function).2) scopedFunctions

theorem get_afterLookups (visited : List Function) (key : String) :
    SetTable.get (afterLookups symbols unscopedFunctions scopedFunctions visited) key =
      SetTable.get scopedFunctions key := by
  unfold afterLookups
  induction visited generalizing scopedFunctions with
  | nil => rfl
  | cons function rest ih => rw [List.foldl_cons, ih, get_lookupFunction]

theorem lookupFunction_afterLookups (visited : List Function) (function : Function) :
    (lookupFunction symbols unscopedFunctions
        (afterLookups symbols unscopedFunctions scopedFunctions visited) function).1 =
      (lookupFunction symbols unscopedFunctions scopedFunctions function).1 := by
  rw [Bool.eq_iff_iff, lookupFunction_fst, lookupFunction_fst, get_afterLookups]

/-- The tables of the records answer as the records do. -/
theorem lookupFunction_iff_covered (function : Function) :
    (lookupFunction symbols (records.foldl addRecord {}).unscopedFunctions
        (records.foldl addRecord {}).scopedFunctions function).1 = true ↔
      Covered symbols records function := by
  rw [lookupFunction_fst, mem_unscopedFunctions, mem_scopedFunctions]
  simp only [Finset.notMem_empty, SetTable.get_empty, false_or]
  constructor
  · rintro (⟨it, hit, hcounts⟩ | ⟨-, it, hit, hcounts⟩)
    · exact ⟨it, hit, "", List.mem_cons_self, hcounts⟩
    · exact ⟨it, hit, _, List.mem_cons_of_mem _ List.mem_cons_self, hcounts⟩
  · rintro ⟨it, hit, scope, hscope, hcounts⟩
    by_cases hempty : scope = ""
    · exact Or.inl ⟨it, hit, hempty ▸ hcounts⟩
    · have hunit : scope = LLVM.filename (symbols.unitFilePath function) := by
        simpa [hempty] using hscope
      exact Or.inr ⟨hunit ▸ hempty, it, hit, hunit ▸ hcounts⟩

/-- The lookups in these tables answer as the records do. -/
def Answers (symbols : Symbols Bitcode Function) (unscopedFunctions : Finset String)
    (scopedFunctions : SetTable String String) (records : List FunctionRecord) : Prop :=
  ∀ function, (lookupFunction symbols unscopedFunctions scopedFunctions function).1 = true ↔
    Covered symbols records function

theorem Answers.lookup (answers : Answers symbols unscopedFunctions scopedFunctions records)
    (visited : Function) :
    Answers symbols unscopedFunctions
      (lookupFunction symbols unscopedFunctions scopedFunctions visited).2 records := by
  intro function
  rw [← answers function, lookupFunction_fst, lookupFunction_fst, get_lookupFunction]

end Lookups

section Selection

variable {symbols} {unscopedFunctions : Finset String} {records : List FunctionRecord}
  {state : Selection Bitcode Function}

/-- One round appends what the records make of the function. -/
theorem selectFunction_eq (answers : Answers symbols unscopedFunctions state.1 records)
    (includeNotCovered : Bool) (bitcode : Bitcode) (function : Function) :
    selectFunction symbols unscopedFunctions includeNotCovered bitcode state function =
      ((lookupFunction symbols unscopedFunctions state.1 function).2,
        state.2 ++ (judged symbols includeNotCovered records (function, bitcode)).toList) := by
  have hanswer := answers function
  by_cases hcovered : Covered symbols records function
  · have htrue := hanswer.mpr hcovered
    simp [selectFunction, judged, htrue, hcovered]
  · have hfalse := Bool.eq_false_iff.mpr (mt hanswer.mp hcovered)
    cases includeNotCovered <;> simp [selectFunction, judged, hfalse, hcovered]

theorem foldl_selectFunction (answers : Answers symbols unscopedFunctions state.1 records)
    (includeNotCovered : Bool) (bitcode : Bitcode) (functions : List Function) :
    (functions.foldl (selectFunction symbols unscopedFunctions includeNotCovered bitcode)
        state).2 =
        state.2 ++ (functions.map fun function => (function, bitcode)).filterMap
          (judged symbols includeNotCovered records) ∧
      Answers symbols unscopedFunctions
        (functions.foldl (selectFunction symbols unscopedFunctions includeNotCovered bitcode)
          state).1 records := by
  induction functions generalizing state with
  | nil => exact ⟨by simp, answers⟩
  | cons function rest ih =>
      have hstep := selectFunction_eq answers includeNotCovered bitcode function
      have hnext : Answers symbols unscopedFunctions
          (selectFunction symbols unscopedFunctions includeNotCovered bitcode state function).1
          records := by
        rw [hstep]
        exact answers.lookup function
      obtain ⟨hselected, hanswers⟩ := ih hnext
      refine ⟨?_, hanswers⟩
      rw [List.foldl_cons, hselected, hstep, List.map_cons, List.filterMap_cons]
      cases judged symbols includeNotCovered records (function, bitcode) <;> simp

theorem foldl_selectModule (answers : Answers symbols unscopedFunctions state.1 records)
    (includeNotCovered : Bool) (program : List Bitcode) :
    (program.foldl
        (fun state bitcode => (symbols.getModule bitcode).foldl
          (selectFunction symbols unscopedFunctions includeNotCovered bitcode) state) state).2 =
      state.2 ++ (programFunctions symbols program).filterMap
        (judged symbols includeNotCovered records) := by
  induction program generalizing state with
  | nil => simp [programFunctions]
  | cons bitcode rest ih =>
      obtain ⟨hselected, hanswers⟩ := foldl_selectFunction answers includeNotCovered
        bitcode (symbols.getModule bitcode)
      rw [List.foldl_cons, ih hanswers, hselected]
      simp [programFunctions]

end Selection

/-- The same executed records, in any order and any number of times, among any records that
were not executed. -/
def SameExecuted (records records' : List FunctionRecord) : Prop :=
  ∀ it, it.executionCount ≠ 0 → (it ∈ records ↔ it ∈ records')

section Records

variable {symbols} {records records' : List FunctionRecord} {function : Function}

theorem Covered.mono (h : ∀ it ∈ records, it.executionCount ≠ 0 → it ∈ records')
    (covered : Covered symbols records function) : Covered symbols records' function := by
  obtain ⟨it, hit, scope, hscope, hcounts⟩ := covered
  exact ⟨it, h it hit hcounts.1, scope, hscope, hcounts⟩

theorem SameExecuted.covered_iff (same : SameExecuted records records') :
    Covered symbols records function ↔ Covered symbols records' function :=
  ⟨Covered.mono fun it hit hne => (same it hne).mp hit,
    Covered.mono fun it hit hne => (same it hne).mpr hit⟩

theorem judged_congr {includeNotCovered : Bool} (same : SameExecuted records records') :
    judged symbols includeNotCovered records = judged symbols includeNotCovered records' := by
  funext p
  simp only [judged, same.covered_iff]

/-- A function is judged once, for its own place and by its own records. -/
theorem judged_eq_some_iff {includeNotCovered flag : Bool} {p q : Function × Bitcode} :
    judged symbols includeNotCovered records q =
        some { function := p.1, bitcode := p.2, covered := flag } ↔
      q = p ∧ (Covered symbols records p.1 ∧ flag = true ∨
        ¬ Covered symbols records p.1 ∧ includeNotCovered = true ∧ flag = false) := by
  have hpair : (q.1 = p.1 ∧ q.2 = p.2) ↔ q = p := Prod.ext_iff.symm
  constructor
  · intro h
    unfold judged at h
    split_ifs at h with hcovered hinclude
    · obtain ⟨hfunction, hbitcode, hflag⟩ := by simpa using h
      obtain rfl := hpair.mp ⟨hfunction, hbitcode⟩
      exact ⟨rfl, Or.inl ⟨hcovered, hflag⟩⟩
    · obtain ⟨hfunction, hbitcode, hflag⟩ := by simpa using h
      obtain rfl := hpair.mp ⟨hfunction, hbitcode⟩
      exact ⟨rfl, Or.inr ⟨hcovered, hinclude, hflag⟩⟩
  · rintro ⟨rfl, ⟨hcovered, rfl⟩ | ⟨hcovered, hinclude, rfl⟩⟩
    · exact if_pos hcovered
    · rw [judged, if_neg hcovered, if_pos hinclude]

end Records

/-- What a selection of functions by coverage records is for. -/
structure ExactSelection (includeNotCovered : Bool) (program : List Bitcode)
    (select : List FunctionRecord → List (FunctionUnderTest Bitcode Function)) : Prop where
  exact : ∀ records, select records =
    (programFunctions symbols program).filterMap (judged symbols includeNotCovered records)
  order : ∀ records, ((select records).map fun f => (f.function, f.bitcode)).Sublist
    (programFunctions symbols program)
  covered : ∀ records, ∀ p ∈ programFunctions symbols program,
    { function := p.1, bitcode := p.2 } ∈ select records ↔ Covered symbols records p.1
  notCovered : ∀ records, ∀ p ∈ programFunctions symbols program,
    { function := p.1, bitcode := p.2, covered := false } ∈ select records ↔
      ¬ Covered symbols records p.1 ∧ includeNotCovered = true
  orderFree : ∀ records records', SameExecuted records records' →
    select records = select records'
  monotone : ∀ records records', records ⊆ records' → ∀ f ∈ select records, f.covered = true →
    f ∈ select records'

variable (includeNotCovered : Bool) (program : List Bitcode)

theorem getFunctionsUnderTest_eq (records : List FunctionRecord) :
    getFunctionsUnderTest symbols includeNotCovered (some records) program =
      (programFunctions symbols program).filterMap
        (judged symbols includeNotCovered records) := by
  have answers : Answers symbols (records.foldl addRecord {}).unscopedFunctions
      (records.foldl addRecord {}).scopedFunctions records := lookupFunction_iff_covered
  exact @foldl_selectModule _ _ symbols _ records (_, []) answers includeNotCovered program

theorem judged_pair (records : List FunctionRecord) (p : Function × Bitcode) :
    (judged symbols includeNotCovered records p).map (fun f => (f.function, f.bitcode)) =
      Option.guard (fun p => Covered symbols records p.1 ∨ includeNotCovered = true) p := by
  unfold judged Option.guard
  by_cases hcovered : Covered symbols records p.1
  · simp [hcovered]
  · cases includeNotCovered <;> simp [hcovered]

theorem sublist_selected (records : List FunctionRecord) :
    (((programFunctions symbols program).filterMap
      (judged symbols includeNotCovered records)).map fun f => (f.function, f.bitcode)).Sublist
        (programFunctions symbols program) := by
  rw [List.map_filterMap]
  simp only [judged_pair, List.filterMap_eq_filter]
  exact List.filter_sublist

theorem mem_judged_iff {records : List FunctionRecord} {p : Function × Bitcode} {flag : Bool}
    (hp : p ∈ programFunctions symbols program) :
    { function := p.1, bitcode := p.2, covered := flag } ∈
        (programFunctions symbols program).filterMap
          (judged symbols includeNotCovered records) ↔
      Covered symbols records p.1 ∧ flag = true ∨
        ¬ Covered symbols records p.1 ∧ includeNotCovered = true ∧ flag = false := by
  rw [List.mem_filterMap]
  simp only [judged_eq_some_iff]
  exact ⟨fun ⟨_, _, _, h⟩ => h, fun h => ⟨p, hp, rfl, h⟩⟩

/-- **The selection by coverage is exact and free of order.** The functions under test are those
that an executed record names, in program order, with the others behind their flag; only the
executed records matter, and no lookup changes the answer of another one. -/
theorem coverage_selection_exact :
    ExactSelection symbols includeNotCovered program (fun records =>
        getFunctionsUnderTest symbols includeNotCovered (some records) program) ∧
      ∀ (records : List FunctionRecord) (visited : List Function) (function : Function),
        let names := records.foldl addRecord {}
        (lookupFunction symbols names.unscopedFunctions
            (afterLookups symbols names.unscopedFunctions names.scopedFunctions visited)
            function).1 =
          (lookupFunction symbols names.unscopedFunctions names.scopedFunctions function).1 := by
  have exact := getFunctionsUnderTest_eq symbols includeNotCovered program
  refine ⟨⟨exact, fun records => ?_, fun records p hp => ?_, fun records p hp => ?_,
    fun records records' same => ?_, fun records records' hsubset f hf hcovered => ?_⟩,
    fun records visited function => lookupFunction_afterLookups visited function⟩
  · rw [exact]
    exact sublist_selected symbols includeNotCovered program records
  · rw [exact, mem_judged_iff _ _ _ hp]
    simp
  · rw [exact, mem_judged_iff _ _ _ hp]
    simp
  · rw [exact, exact, judged_congr same]
  · obtain ⟨function, bitcode, covered⟩ := f
    obtain rfl : covered = true := hcovered
    rw [exact] at hf ⊢
    have hp : (function, bitcode) ∈ programFunctions symbols program :=
      (sublist_selected symbols includeNotCovered program records).subset (List.mem_map_of_mem hf)
    have hrecords : Covered symbols records function := by
      simpa using (mem_judged_iff _ _ _ hp).mp hf
    apply (mem_judged_iff _ _ _ hp).mpr
    exact Or.inl ⟨hrecords.mono fun it hit _ => hsubset hit, rfl⟩

end MullXCTest.Pipeline
