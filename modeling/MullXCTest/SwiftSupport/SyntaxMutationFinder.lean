import MullXCTest.SwiftSupport.SourceUnitLocationIndexer
import MullXCTest.TaskExecutor.SequentialRefinement
import Mathlib.Data.Finset.Sort
import Mathlib.Data.List.AList
import Mathlib.Data.String.Basic

/-!
# The syntax index of all source files

`SyntaxMutationFinder::findMutations`: a private storage for every source file,
filled by the indexing workers, and the merge of the private storages into the
common one. The merge keeps the entry that is already there, so that it loses
nothing only because a private storage has no other key than the path it is for.
-/

namespace MullXCTest.SwiftSupport

open SourceUnitLocationIndexer TaskExecutor

/-- The member `storage` of an `ASTMutationStorage`: the mutations by their files. -/
abbrev ASTMutationStorage := AList fun _ : String => Finset Mutation

namespace ASTMutationStorage

/-- `mull_ASTMutationStorage_saveMutation`. -/
def saveMutation (sourceFile : String) (storage : ASTMutationStorage) (mutation : Mutation) :
    ASTMutationStorage :=
  storage.insert sourceFile (insert mutation ((storage.lookup sourceFile).getD ∅))

/-- `emplace` of the map: an entry that is there stays as it is. -/
def emplace (storage : ASTMutationStorage) (entry : Sigma fun _ : String => Finset Mutation) :
    ASTMutationStorage :=
  if entry.1 ∈ storage then storage else storage.insert entry.1 entry.2

end ASTMutationStorage

open ASTMutationStorage

/-- SwiftSyntax's parser of a file, together with the converter for its tree. -/
abbrev SyntaxParser := String → Option (SourceFileSyntax × SourceLocationConverter)

/-- `String.decodeCString` on the `c_str()` of a path. -/
def decodeCString (sourcePath : String) : String :=
  String.ofList (sourcePath.toList.takeWhile (· ≠ '\x00'))

/-- The error codes of `mull_swift_IndexSource`, which no caller looks at. -/
inductive ErrorCode
  | invalidSourcePathChars
  | syntaxParserError
  deriving DecidableEq

def indexSwiftSource (parse : SyntaxParser) (sourcePath : String)
    (storage : ASTMutationStorage) : ASTMutationStorage × Option ErrorCode :=
  let sourcePath := decodeCString sourcePath
  match parse sourcePath with
  | none => (storage, some .syntaxParserError)
  | some (sourceFile, converter) =>
      ((indexed converter sourceFile).foldl (saveMutation sourcePath) storage, none)

/-- `parse` answers for the elements of a range by their positions. -/
def indexSwiftSourceTask (parse : Nat → SyntaxParser) :
    Task String (String × ASTMutationStorage) :=
  forEach fun i sourcePath => [(sourcePath, (indexSwiftSource (parse i) sourcePath ∅).1)]

namespace SyntaxMutationFinder

/-- The executor `indexer`, on the set of source paths in its order. -/
def indexer (parse : SyntaxParser) (taskBatches : Nat → Nat → List Nat) (workers : Nat)
    (sources : Finset String) : PthreadTaskExecutor String (String × ASTMutationStorage) where
  input := sources.sort (· ≤ ·)
  out := []
  tasks := List.replicate workers (indexSwiftSourceTask fun _ => parse)
  taskBatches := taskBatches
  reporterEnds total counters := counters.sum = total

/-- The loops over the private storages behind the executor. -/
def merge (astMutationStorage : ASTMutationStorage)
    (mutationsAsVector : List (String × ASTMutationStorage)) : ASTMutationStorage :=
  mutationsAsVector.foldl
    (fun storage pair => pair.2.entries.foldl emplace storage)
    astMutationStorage

/-- What `findMutations` leaves in the storage, for some interleaving of the workers. -/
def findMutations (parse : SyntaxParser) (taskBatches : Nat → Nat → List Nat) (workers : Nat)
    (sources : Finset String) (astMutationStorage result : ASTMutationStorage) : Prop :=
  ∃ s, (indexer parse taskBatches workers sources).Reachable s ∧ s.caller = .returned ∧
    result = merge astMutationStorage s.out

end SyntaxMutationFinder

end MullXCTest.SwiftSupport
