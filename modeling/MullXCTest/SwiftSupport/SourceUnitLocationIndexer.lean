import MullXCTest.Library.LayoutTree
import Mathlib.Data.List.Basic

/-!
# Recording the mutable constructs of a Swift source file

`SourceUnitLocationIndexer` on the syntax tree of a file. A source file is a tree
whose leaves are its tokens; the parser and the conversion of offsets to lines and
columns are SwiftSyntax's, and the latter is a parameter. An operator is recorded
only where the lexer saw whitespace on both of its sides.
-/

namespace MullXCTest.SwiftSupport

open LayoutTree

/-- The kinds of mull's C interface that the indexer saves. -/
inductive SyntaxMutatorKind
  | cxxAddToSub
  | cxxSubToAdd
  | cxxMulToDiv
  | cxxDivToMul
  | cxxRemToDiv
  | cxxAddAssignToSubAssign
  | cxxSubAssignToAddAssign
  | cxxMulAssignToDivAssign
  | cxxDivAssignToMulAssign
  | cxxRemAssignToDivAssign
  | swiftEqualToNotEqual
  | swiftNotEqualToEqual
  | cxxLessThanToGreaterOrEqual
  | cxxLessThanToLessOrEqual
  | cxxGreaterThanToLessOrEqual
  | cxxGreaterThanToGreaterOrEqual
  | cxxLessOrEqualToGreaterThan
  | cxxLessOrEqualToLessThan
  | cxxGreaterOrEqualToLessThan
  | cxxGreaterOrEqualToGreaterThan
  | swiftLogicalAndToOr
  | cxxRemoveVoidCall
  | cxxAssignConst
  deriving DecidableEq

/-- The token kinds that the indexer tells apart, with their texts. -/
inductive TokenKind
  | spacedBinaryOperator (op : String)
  | unspacedBinaryOperator (op : String)
  | other (text : String)
  deriving DecidableEq

structure Token where
  leadingTrivia : String
  tokenKind : TokenKind
  trailingTrivia : String
  deriving DecidableEq

namespace Token

def text (token : Token) : String :=
  match token.tokenKind with
  | .spacedBinaryOperator op => op
  | .unspacedBinaryOperator op => op
  | .other text => text

/-- The bytes of a token with its trivia. -/
def width (token : Token) : Nat :=
  token.leadingTrivia.utf8ByteSize + token.text.utf8ByteSize + token.trailingTrivia.utf8ByteSize

end Token

inductive SyntaxKind
  | assignmentExpr
  | functionCallExpr
  | binaryOperatorExpr
  | codeBlockItem
  | codeBlockItemList
  | other (name : String)
  deriving DecidableEq

abbrev SourceFileSyntax := Tree Token SyntaxKind

/-- The line and the column of an offset. Those that do not fit into 32 bits trap when they
are saved. -/
structure SourceLocationConverter where
  location : Nat → Option Int32 × Option Int32

/-- An entry of the storage. -/
structure Mutation where
  kind : SyntaxMutatorKind
  line : Int32
  column : Int32
  deriving DecidableEq

def binaryMutations : List (String × List SyntaxMutatorKind) :=
  [("+", [.cxxAddToSub]),
    ("-", [.cxxSubToAdd]),
    ("*", [.cxxMulToDiv]),
    ("/", [.cxxDivToMul]),
    ("%", [.cxxRemToDiv]),
    ("+=", [.cxxAddAssignToSubAssign]),
    ("-=", [.cxxSubAssignToAddAssign]),
    ("*=", [.cxxMulAssignToDivAssign]),
    ("/=", [.cxxDivAssignToMulAssign]),
    ("%=", [.cxxRemAssignToDivAssign]),
    ("==", [.swiftEqualToNotEqual]),
    ("!=", [.swiftNotEqualToEqual]),
    ("<", [.cxxLessThanToGreaterOrEqual, .cxxLessThanToLessOrEqual]),
    (">", [.cxxGreaterThanToLessOrEqual, .cxxGreaterThanToGreaterOrEqual]),
    ("<=", [.cxxLessOrEqualToGreaterThan, .cxxLessOrEqualToLessThan]),
    (">=", [.cxxGreaterOrEqualToLessThan, .cxxGreaterOrEqualToGreaterThan]),
    ("&&", [.swiftLogicalAndToOr])]

/-- The length of the trivia before the first token of a node. -/
def leadingTriviaLength (node : SourceFileSyntax) : Nat :=
  match firstLeaf? node with
  | some token => token.leadingTrivia.utf8ByteSize
  | none => 0

/-- `SourceUnitStorage.save`, for a node that starts at an offset. -/
def save (converter : SourceLocationConverter) (mutation : List SyntaxMutatorKind)
    (start : Nat) : List Mutation :=
  match converter.location start with
  | (some line, some column) => mutation.map fun kind => ⟨kind, line, column⟩
  | _ => []

namespace SourceUnitLocationIndexer

/-- The kinds that `visitPost` saves for a node with these ancestors. A single code block item
may be an implicit return. -/
def mutations : SourceFileSyntax → List SourceFileSyntax → List SyntaxMutatorKind
  | .node .assignmentExpr _, _ => [.cxxAssignConst]
  | .node .functionCallExpr _,
      .node .codeBlockItem _ :: .node .codeBlockItemList codeBlockList :: _ =>
      if codeBlockList.length ≠ 1 then [.cxxRemoveVoidCall] else []
  | .leaf token, .node .binaryOperatorExpr _ :: _ =>
      match token.tokenKind with
      | .spacedBinaryOperator op => (binaryMutations.lookup op).getD []
      | _ => []
  | _, _ => []

def visitPost (converter : SourceLocationConverter) (v : Visit Token SyntaxKind) :
    List Mutation :=
  save converter (mutations v.node v.ancestors) (v.offset + leadingTriviaLength v.node)

/-- What the indexer saves for a source file. -/
def indexed (converter : SourceLocationConverter) (sourceFile : SourceFileSyntax) :
    List Mutation :=
  (walk Token.width 0 [] sourceFile).flatMap (visitPost converter)

end SourceUnitLocationIndexer

end MullXCTest.SwiftSupport
