import MullXCTest.SwiftSupport.SyntaxMutationFinder
import Mathlib.Data.List.TakeWhile

/-!
# The syntax index is the union over the files

Every private storage has at most one key, that of its own path, and the executor
hands the storages over in the order of the paths, so that after the merge each path
has what was saved for its file and no other entry has changed.
-/

namespace MullXCTest.SwiftSupport

open SourceUnitLocationIndexer TaskExecutor Transition

/-- What the indexer saves for the file of a path; nothing if it cannot be parsed. -/
def fileMutations (parse : SyntaxParser) (sourcePath : String) : List Mutation :=
  match parse sourcePath with
  | none => []
  | some (sourceFile, converter) => indexed converter sourceFile

/-- The entry that the mutations of a file make. -/
def fileEntry (parse : SyntaxParser) (sourcePath : String) : Option (Finset Mutation) :=
  if fileMutations parse sourcePath = [] then none
  else some (fileMutations parse sourcePath).toFinset

namespace ASTMutationStorage

theorem lookup_saveMutation_ne {sourceFile key : String} (h : key ≠ sourceFile)
    (storage : ASTMutationStorage) (mutations : List Mutation) :
    (mutations.foldl (saveMutation sourceFile) storage).lookup key = storage.lookup key := by
  induction mutations generalizing storage with
  | nil => rfl
  | cons m rest ih =>
      rw [List.foldl_cons, ih]
      exact AList.lookup_insert_ne h

theorem lookup_saveMutation (sourceFile : String) (storage : ASTMutationStorage)
    {mutations : List Mutation} (h : mutations ≠ []) :
    (mutations.foldl (saveMutation sourceFile) storage).lookup sourceFile =
      some ((storage.lookup sourceFile).getD ∅ ∪ mutations.toFinset) := by
  induction mutations generalizing storage with
  | nil => exact absurd rfl h
  | cons m rest ih =>
      rw [List.foldl_cons]
      have hlookup : (saveMutation sourceFile storage m).lookup sourceFile =
          some (insert m ((storage.lookup sourceFile).getD ∅)) := AList.lookup_insert _
      cases rest with
      | nil =>
          rw [List.foldl_nil, hlookup]
          congr 1
          ext m'
          simp
      | cons m' rest =>
          rw [ih _ (List.cons_ne_nil _ _), hlookup]
          congr 1
          ext m''
          simp only [Option.getD_some, Finset.mem_union, Finset.mem_insert, List.mem_toFinset,
            List.mem_cons]
          tauto

/-- The entries that are there win, and among the new ones those that come first. -/
theorem lookup_foldl_emplace (entries : List (Sigma fun _ : String => Finset Mutation))
    (storage : ASTMutationStorage) (key : String) :
    (entries.foldl emplace storage).lookup key = (storage.lookup key <|> entries.dlookup key) := by
  induction entries generalizing storage with
  | nil => simp
  | cons entry rest ih =>
      obtain ⟨name, mutations⟩ := entry
      rw [List.foldl_cons, ih]
      by_cases hkey : key = name
      · subst hkey
        rw [List.dlookup_cons_eq]
        cases hlookup : storage.lookup key with
        | none =>
            have hnot : key ∉ storage := AList.lookup_eq_none.mp hlookup
            simp [emplace, hnot]
        | some present =>
            have hmem : key ∈ storage := AList.lookup_isSome.mp (by simp [hlookup])
            simp [emplace, hmem, hlookup]
      · rw [List.dlookup_cons_ne _ _ hkey]
        congr 1
        unfold emplace
        split
        · rfl
        · exact AList.lookup_insert_ne hkey

end ASTMutationStorage

open ASTMutationStorage

/-- A file that cannot be parsed adds nothing. -/
theorem indexSwiftSource_fst (parse : SyntaxParser) (sourcePath : String)
    (storage : ASTMutationStorage) :
    (indexSwiftSource parse sourcePath storage).1 =
      (fileMutations parse (decodeCString sourcePath)).foldl
        (saveMutation (decodeCString sourcePath)) storage := by
  simp only [indexSwiftSource, fileMutations]
  cases parse (decodeCString sourcePath) <;> rfl

/-- A private storage has the mutations of its file under the path, and no other key. -/
theorem lookup_IndexSwiftSource (parse : SyntaxParser) (sourcePath key : String) :
    (indexSwiftSource parse sourcePath ∅).1.lookup key =
      if key = decodeCString sourcePath then fileEntry parse key else none := by
  rw [indexSwiftSource_fst]
  split_ifs with hkey
  · subst hkey
    unfold fileEntry
    split_ifs with hnil
    · simp [hnil]
    · simpa using lookup_saveMutation (decodeCString sourcePath) ∅ hnil
  · exact lookup_saveMutation_ne hkey ∅ _

namespace SyntaxMutationFinder

/-- After the merge an entry is the one that was there or that of the first private storage. -/
theorem lookup_merge (astMutationStorage : ASTMutationStorage)
    (mutationsAsVector : List (String × ASTMutationStorage)) (key : String) :
    (merge astMutationStorage mutationsAsVector).lookup key =
      (astMutationStorage.lookup key <|>
        mutationsAsVector.findSome? fun pair => pair.2.lookup key) := by
  unfold merge
  induction mutationsAsVector generalizing astMutationStorage with
  | nil => simp
  | cons pair rest ih =>
      rw [List.foldl_cons, ih, lookup_foldl_emplace, List.findSome?_cons]
      cases astMutationStorage.lookup key with
      | none => cases hpair : pair.2.lookup key <;> simp [AList.lookup] at hpair ⊢ <;> simp [hpair]
      | some present => rfl

variable {parse : SyntaxParser} {taskBatches : Nat → Nat → List Nat} {workers : Nat}
  {sources : Finset String}

/-- mull's `taskBatches`: as many batches as tasks, which cover the items. -/
structure Covers (taskBatches : Nat → Nat → List Nat) : Prop where
  length : ∀ items tasks, 0 < tasks → (taskBatches items tasks).length = tasks
  sum : ∀ items tasks, 0 < tasks → (taskBatches items tasks).sum = items

theorem assumed_indexer (covers : Covers taskBatches) (hworkers : 0 < workers) :
    Assumed (indexer parse taskBatches workers sources)
      fun sourcePath => [(sourcePath, (indexSwiftSource parse sourcePath ∅).1)] where
  tasks_ne_nil := List.length_pos_iff.mp (by simpa [indexer] using hworkers)
  batches_length := covers.length
  batches_sum := covers.sum
  appends task htask range := by
    obtain rfl := List.eq_of_mem_replicate htask
    exact outputs_forEach_const _ range

theorem counts_indexer : Counts (indexer parse taskBatches workers sources) where
  increments task htask range := by
    obtain rfl := List.eq_of_mem_replicate htask
    exact increments_forEach _ range
  reporterEnds _ _ h := h

/-- The first private storage that has a key is that of a path in the set. -/
theorem findSome?_private (paths : List String) (key : String) :
    ((paths.flatMap fun sourcePath =>
        [(sourcePath, (indexSwiftSource parse sourcePath ∅).1)]).findSome? fun pair =>
          pair.2.lookup key) =
      if key ∈ paths.map decodeCString then fileEntry parse key else none := by
  induction paths with
  | nil => rfl
  | cons path rest ih =>
      rw [List.flatMap_cons, List.singleton_append, List.findSome?_cons, ih,
        lookup_IndexSwiftSource]
      by_cases hkey : key = decodeCString path
      · subst hkey
        cases fileEntry parse (decodeCString path) <;> simp
      · simp [hkey]

/-- What `findMutations` leaves, by keys. -/
theorem lookup_findMutations (covers : Covers taskBatches) (hworkers : 0 < workers)
    {astMutationStorage result : ASTMutationStorage}
    (h : findMutations parse taskBatches workers sources astMutationStorage result)
    (key : String) :
    result.lookup key =
      (astMutationStorage.lookup key <|>
        if key ∈ sources.image decodeCString then fileEntry parse key else none) := by
  obtain ⟨s, hreachable, hreturned, rfl⟩ := h
  have hout := PthreadTaskExecutor.out_of_returned (assumed_indexer covers hworkers) hreachable
    hreturned
  rw [lookup_merge, hout]
  simp only [indexer, List.nil_append, findSome?_private]
  simp

/-- Up to a NUL character the C string of a path is the path. -/
theorem decodeCString_eq {sourcePath : String} (h : '\x00' ∉ sourcePath.toList) :
    decodeCString sourcePath = sourcePath := by
  have htake : sourcePath.toList.takeWhile (· ≠ '\x00') = sourcePath.toList := by
    rw [List.takeWhile_eq_self_iff]
    intro c hc
    simpa using fun heq : c = '\x00' => h (heq ▸ hc)
  rw [decodeCString, htake, String.ofList_toList]

/-- **The syntax index is exact.** Every interleaving of the workers ends with `findMutations`
returned; then each path of the set has the mutations that are saved for its file, and the
other entries are what they were. A path is indexed as the C string that it makes. -/
theorem findMutations_exact (covers : Covers taskBatches) (hworkers : 0 < workers)
    {astMutationStorage : ASTMutationStorage}
    (fresh : ∀ sourcePath ∈ sources, astMutationStorage.lookup (decodeCString sourcePath) = none) :
    ((WellFounded fun t s => (indexer parse taskBatches workers sources).Step s t) ∧
        ∀ s, (indexer parse taskBatches workers sources).Reachable s →
          Final (indexer parse taskBatches workers sources).Step s → s.caller = .returned) ∧
      (∀ result,
        findMutations parse taskBatches workers sources astMutationStorage result →
          (∀ sourcePath ∈ sources, ∀ m,
              m ∈ (result.lookup (decodeCString sourcePath)).getD ∅ ↔
                m ∈ fileMutations parse (decodeCString sourcePath)) ∧
            ∀ key ∉ sources.image decodeCString,
              result.lookup key = astMutationStorage.lookup key) ∧
      ∀ sourcePath : String, '\x00' ∉ sourcePath.toList →
        decodeCString sourcePath = sourcePath := by
  have assumed : Assumed (indexer parse taskBatches workers sources) _ :=
    assumed_indexer covers hworkers
  refine ⟨⟨PthreadTaskExecutor.step_wellFounded,
    fun s => PthreadTaskExecutor.returned_of_final assumed.splits counts_indexer⟩, ?_,
    fun _ => decodeCString_eq⟩
  intro result h
  constructor
  · intro sourcePath hpath m
    rw [lookup_findMutations covers hworkers h, fresh sourcePath hpath,
      if_pos (Finset.mem_image_of_mem _ hpath)]
    simp only [fileEntry]
    split_ifs with hnil <;> simp [hnil]
  · intro key hkey
    rw [lookup_findMutations covers hworkers h, if_neg hkey]
    simp

section Example

/-- Two files of one assignment each, and one that cannot be parsed. -/
def exampleParser : SyntaxParser := fun sourcePath =>
  if sourcePath = "a.swift" ∨ sourcePath = "b.swift" then
    some (.node .assignmentExpr [], ⟨fun _ => (some 1, some 1)⟩)
  else none

theorem covers_evenBatches : Covers PthreadTaskExecutor.evenBatches where
  length _ _ _ := by simp [PthreadTaskExecutor.evenBatches]
  sum _ _ h := PthreadTaskExecutor.evenBatches_sum h

theorem findMutations_exact_example :
    ∃ result : ASTMutationStorage,
      (∀ m, m ∈ (result.lookup "a.swift").getD ∅ ↔ m = ⟨.cxxAssignConst, 1, 1⟩) ∧
        result.lookup "c.swift" = some {⟨.cxxAddToSub, 7, 7⟩} := by
  obtain ⟨⟨hwf, hreturned⟩, hexact, -⟩ :=
    @findMutations_exact exampleParser _ 2 {"a.swift", "b.swift", "x.swift"} covers_evenBatches
      (by decide) (AList.singleton "c.swift" {⟨.cxxAddToSub, 7, 7⟩}) (by decide)
  obtain ⟨s, hrun, hfinal⟩ := exists_final hwf (PthreadTaskExecutor.start _)
  obtain ⟨hfiles, hothers⟩ := hexact _ ⟨s, hrun, hreturned s hrun hfinal, rfl⟩
  have hname : decodeCString "a.swift" = "a.swift" := by decide
  refine ⟨merge _ s.out, ?_, (hothers "c.swift" (by decide)).trans (by decide)⟩
  intro m
  have hfile := hfiles "a.swift" (by decide) m
  rw [hname] at hfile
  rw [hfile, show fileMutations exampleParser "a.swift" = [⟨.cxxAssignConst, 1, 1⟩] from rfl]
  exact List.mem_singleton

end Example

end SyntaxMutationFinder

end MullXCTest.SwiftSupport
