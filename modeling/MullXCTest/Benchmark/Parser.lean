import MullXCTest.Benchmark.Entity
import MullXCTest.Library.Clusters
import MullXCTest.Library.Decimal

/-!
# Printing and parsing the mutants

`mull-dump-mutants` prints one line for each mutant, and `parseMullBenchmark` reads such
lines. The parser works on the characters of Swift, which are clusters of scalars: how
scalars join a cluster is left to a parameter, and matters next to the marks in a line.
-/

namespace MullXCTest.Benchmark

open Clusters

section Dump

/-- The printed fields of a mutant are those of `MullMutationPoint`. -/
def dumpMutant (mutant : MullMutationPoint) : String :=
  "Mutation Point: " ++ mutant.mutator ++ " " ++ mutant.location.filePath ++ ":" ++
    mutant.location.line.repr ++ ":" ++ mutant.location.column.repr

/-- The lines that `main` of mull-dump-mutants prints for a list with some mutants. -/
def dumpLines : List MullMutationPoint → String
  | [] => ""
  | mutant :: rest => dumpMutant mutant ++ "\n" ++ dumpLines rest

/-- What `main` of mull-dump-mutants prints for the mutants that it has extracted. -/
def dumpMutants (mutants : List MullMutationPoint) : String :=
  if mutants.isEmpty then "no mutant info found\n" else dumpLines mutants

end Dump

/-- A Swift `Character`, by its scalars. -/
abbrev Character := List Char

/-- The scalars with the property White_Space. -/
def isWhitespaceScalar (c : Char) : Bool :=
  let n := c.toNat
  (0x9 ≤ n && n ≤ 0xd) || n == 0x20 || n == 0x85 || n == 0xa0 || n == 0x1680 ||
    (0x2000 ≤ n && n ≤ 0x200a) || n == 0x2028 || n == 0x2029 || n == 0x202f || n == 0x205f ||
    n == 0x3000

/-- The scalars that are a line break on their own. -/
def isNewlineScalar (c : Char) : Bool :=
  let n := c.toNat
  (0xa ≤ n && n ≤ 0xd) || n == 0x85 || n == 0x2028 || n == 0x2029

/-- `Character.isWhitespace` looks at the first scalar. -/
def isWhitespace (character : Character) : Bool := character.head?.any isWhitespaceScalar

/-- `Character.isNewline`. -/
def isNewline : Character → Bool
  | [c] => isNewlineScalar c
  | character => character == ['\r', '\n']

/-- `split`, which omits empty pieces. -/
def split (isSeparator : Character → Bool) (text : List Character) : List (List Character) :=
  (text.splitOnP isSeparator).filter fun piece => !piece.isEmpty

/-- `String(text)` for some characters of another string. -/
def string (text : List Character) : String := String.ofList text.flatten

/-- What ends the parser: an error that it throws, or a trap. -/
inductive Failure
  | invalidUTF8
  | invalidPrefix
  | indexOutOfRange
  | unwrappedNil
  deriving DecidableEq

/-- Some decimal digits, as far as their number fits into `UInt`. -/
def readDigits (digits : List Char) : Option Nat :=
  if digits ≠ [] ∧ digits.all Char.isDigit = true ∧ Decimal.value digits < 18446744073709551616
  then some (Decimal.value digits) else none

/-- `UInt(text)`. Behind a minus sign only zero is an unsigned number. -/
def readUInt (text : List Character) : Option Nat :=
  match text.flatten with
  | '+' :: digits => readDigits digits
  | '-' :: digits => (readDigits digits).filter (· = 0)
  | digits => readDigits digits

/-- A subscript of an array. -/
def subscript (components : List (List Character)) (index : Nat) :
    Except Failure (List Character) :=
  match components[index]? with
  | none => .error .indexOutOfRange
  | some component => .ok component

/-- `UInt(text)!`. -/
def unwrapUInt (text : List Character) : Except Failure Nat :=
  match readUInt text with
  | none => .error .unwrappedNil
  | some value => .ok value

def parseSourceLocation (line : List Character) : Except Failure SourceLocation := do
  let components := split (· == [':']) line
  let filePath ← subscript components 0
  let line ← unwrapUInt (← subscript components 1)
  let column ← unwrapUInt (← subscript components 2)
  return ⟨string filePath, line, column⟩

/-- The characters of the prefix of a line. -/
def linePrefix : List Character := "Mutation Point: ".toList.map fun c => [c]

def parseLine (line : List Character) : Except Failure MullMutationPoint :=
  if linePrefix.isPrefixOf line then do
    let line := line.drop linePrefix.length
    let mutator := line.takeWhile fun character => !isWhitespace character
    let line := line.drop (mutator.length + 1)
    let location ← parseSourceLocation line
    return ⟨string mutator, location⟩
  else .error .invalidPrefix

/-- `joins` tells whether a scalar joins the character before it. -/
def parseMullBenchmark (joins : Character → Char → Bool) (contents : ByteArray) :
    Except Failure (List MullMutationPoint) :=
  match String.fromUTF8? contents with
  | none => .error .invalidUTF8
  | some contents => (split isNewline (clusters joins contents.toList)).mapM parseLine

example : parseMullBenchmark (fun _ _ => false) "Mutation Point: cxx_add_to_sub /a:1:2\n".toUTF8 =
    .ok [⟨"cxx_add_to_sub", ⟨"/a", 1, 2⟩⟩] := by
  rfl

end MullXCTest.Benchmark
