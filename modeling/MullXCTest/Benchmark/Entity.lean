/-!
# The mutation points of the benchmark scripts

A Swift string is compared up to canonical equivalence, and stands here for its normal
form. `UInt` is a natural number that is checked where it is read.
-/

namespace MullXCTest.Benchmark

/-- The synthesized `==` and `hash` use all three fields. -/
structure SourceLocation where
  filePath : String
  line : Nat
  column : Nat
  deriving DecidableEq

/-- What `"\\(location)"` prints. -/
def SourceLocation.description (location : SourceLocation) : String :=
  location.filePath ++ ":" ++ location.line.repr

structure MullMutationPoint where
  mutator : String
  location : SourceLocation
  deriving DecidableEq

end MullXCTest.Benchmark
