import MullXCTest.SwiftSupport.SourceUnitLocationIndexer
import Mathlib.Tactic.IntervalCases

/-!
# What the indexer records

The mutable constructs of a source file, read off its tree from above: binary
operators, calls in code blocks of several items, and assignments. The indexer saves
no other ones, and all of them exactly where every operator of the table stands
between whitespace.
-/

namespace MullXCTest.SwiftSupport

open LayoutTree SourceUnitLocationIndexer

namespace Token

def IsSpaced (token : Token) : Prop :=
  ∃ op, token.tokenKind = .spacedBinaryOperator op

/-- The text of the token is a key of the table. -/
def IsMutable (token : Token) : Prop :=
  (binaryMutations.lookup token.text).isSome

end Token

/-- A construct that allows mutations of the kind starts at an offset. -/
inductive Mutable (sourceFile : SourceFileSyntax) : SyntaxMutatorKind → Nat → Prop
  | binaryOperator {ancestors parts : List SourceFileSyntax} {token : Token} {offset : Nat}
      {kinds : List SyntaxMutatorKind} {kind : SyntaxMutatorKind}
      (operator : Occurs Token.width sourceFile (.node .binaryOperatorExpr parts :: ancestors)
        (.leaf token) offset)
      (key : binaryMutations.lookup token.text = some kinds) (listed : kind ∈ kinds) :
      Mutable sourceFile kind (offset + token.leadingTrivia.utf8ByteSize)
  | voidCall {ancestors item items parts : List SourceFileSyntax} {offset : Nat}
      (call : Occurs Token.width sourceFile
        (.node .codeBlockItem item :: .node .codeBlockItemList items :: ancestors)
        (.node .functionCallExpr parts) offset)
      (several : 2 ≤ items.length) :
      Mutable sourceFile .cxxRemoveVoidCall
        (offset + leadingTriviaLength (.node .functionCallExpr parts))
  | assignment {ancestors parts : List SourceFileSyntax} {offset : Nat}
      (expr : Occurs Token.width sourceFile ancestors (.node .assignmentExpr parts) offset) :
      Mutable sourceFile .cxxAssignConst
        (offset + leadingTriviaLength (.node .assignmentExpr parts))

/-- The mutation stands for a mutable construct at its line and column. -/
def Recorded (converter : SourceLocationConverter) (sourceFile : SourceFileSyntax)
    (m : Mutation) : Prop :=
  ∃ start, Mutable sourceFile m.kind start ∧
    converter.location start = (some m.line, some m.column)

/-- SwiftSyntax's converter: every offset of the file has a line and a column of its own. -/
structure Locates (converter : SourceLocationConverter) (sourceFile : SourceFileSyntax) :
    Prop where
  located : ∀ offset ≤ extent Token.width sourceFile,
    ∃ line column, converter.location offset = (some line, some column)
  injective : ∀ offset ≤ extent Token.width sourceFile,
    ∀ offset' ≤ extent Token.width sourceFile,
      converter.location offset = converter.location offset' → offset = offset'

/-- Every operator of the table stands between whitespace. -/
def SpacedOperators (sourceFile : SourceFileSyntax) : Prop :=
  ∀ ancestors parts token offset,
    Occurs Token.width sourceFile (.node .binaryOperatorExpr parts :: ancestors) (.leaf token)
        offset →
      token.IsMutable → token.IsSpaced

section Table

theorem mem_of_lookup {text : String} {kinds : List SyntaxMutatorKind}
    (h : binaryMutations.lookup text = some kinds) : (text, kinds) ∈ binaryMutations := by
  obtain ⟨before, after, htable, -⟩ := List.lookup_eq_some_iff.mp h
  rw [htable]
  simp

/-- The table has no empty operator and no empty set of kinds. -/
theorem table_ne_nil : ∀ p ∈ binaryMutations, p.1.utf8ByteSize ≠ 0 ∧ p.2 ≠ [] := by
  decide

theorem table_kinds : ∀ p ∈ binaryMutations, ∀ kind ∈ p.2,
    kind ≠ .cxxRemoveVoidCall ∧ kind ≠ .cxxAssignConst := by
  decide

theorem lookup_getD_eq_nil_iff {text : String} :
    (binaryMutations.lookup text).getD [] = [] ↔ ¬ (binaryMutations.lookup text).isSome := by
  cases hlookup : binaryMutations.lookup text with
  | none => simp
  | some kinds => simp [(table_ne_nil _ (mem_of_lookup hlookup)).2]

/-- A token whose text is a key takes up space behind its trivia. -/
theorem leadingTrivia_lt_width {token : Token} {kinds : List SyntaxMutatorKind}
    (h : binaryMutations.lookup token.text = some kinds) :
    token.leadingTrivia.utf8ByteSize < token.width := by
  have hsize := (table_ne_nil _ (mem_of_lookup h)).1
  simp only [Token.width] at hsize ⊢
  omega

end Table

section Visits

variable {sourceFile : SourceFileSyntax} {ancestors : List SourceFileSyntax} {offset : Nat}

theorem mutations_of_spaced {token : Token} {parts : List SourceFileSyntax}
    (h : token.IsSpaced) :
    mutations (.leaf token) (.node .binaryOperatorExpr parts :: ancestors) =
      (binaryMutations.lookup token.text).getD [] := by
  obtain ⟨op, hop⟩ := h
  simp [mutations, Token.text, hop]

theorem mutations_of_not_spaced {token : Token} {parts : List SourceFileSyntax}
    (h : ¬ token.IsSpaced) :
    mutations (.leaf token) (.node .binaryOperatorExpr parts :: ancestors) = [] := by
  obtain ⟨leadingTrivia, tokenKind, trailingTrivia⟩ := token
  cases tokenKind with
  | spacedBinaryOperator op => exact absurd ⟨op, rfl⟩ h
  | unspacedBinaryOperator op => rfl
  | other text => rfl

/-- The kinds of a spaced operator; other tokens of the expression have none. -/
theorem mem_mutations_operator {token : Token} {parts : List SourceFileSyntax}
    {kind : SyntaxMutatorKind} :
    kind ∈ mutations (.leaf token) (.node .binaryOperatorExpr parts :: ancestors) ↔
      token.IsSpaced ∧ ∃ kinds, binaryMutations.lookup token.text = some kinds ∧
        kind ∈ kinds := by
  by_cases hspaced : token.IsSpaced
  · rw [mutations_of_spaced hspaced]
    cases binaryMutations.lookup token.text <;> simp [hspaced]
  · simp [mutations_of_not_spaced hspaced, hspaced]

/-- A token is saved as the operator of a binary operator expression only. -/
theorem exists_of_mem_mutations_leaf {token : Token} {kind : SyntaxMutatorKind}
    (h : kind ∈ mutations (.leaf token) ancestors) :
    ∃ parts rest, ancestors = .node .binaryOperatorExpr parts :: rest := by
  rcases ancestors with _ | ⟨_ | ⟨label, parts⟩, rest⟩
  · simp [mutations] at h
  · simp [mutations] at h
  · cases label <;> simp [mutations] at h
    exact ⟨parts, rest, rfl⟩

theorem exists_of_mem_mutations_call {parts : List SourceFileSyntax} {kind : SyntaxMutatorKind}
    (h : kind ∈ mutations (.node .functionCallExpr parts) ancestors) :
    ∃ item items rest,
      ancestors = .node .codeBlockItem item :: .node .codeBlockItemList items :: rest ∧
        items.length ≠ 1 ∧ kind = .cxxRemoveVoidCall := by
  rcases ancestors with _ | ⟨_ | ⟨label, item⟩, _ | ⟨_ | ⟨label', items⟩, rest⟩⟩
  case cons.node.cons.node =>
    cases label <;> cases label' <;> simp [mutations] at h
    exact ⟨item, items, rest, rfl, h.1, h.2⟩
  all_goals simp [mutations] at h

/-- A list that is the grandparent of a node is not empty. -/
theorem items_ne_nil {item items : List SourceFileSyntax} {label label' : SyntaxKind}
    {node : SourceFileSyntax}
    (h : Occurs Token.width sourceFile (.node label item :: .node label' items :: ancestors)
      node offset) : items ≠ [] := by
  cases h with
  | child _ _ parent =>
      cases parent with
      | child _ _ _ => simp

/-- Every kind that is saved for a node stands for a construct that starts there. -/
theorem mutable_of_mem_mutations {node : SourceFileSyntax} {kind : SyntaxMutatorKind}
    (occurs : Occurs Token.width sourceFile ancestors node offset)
    (h : kind ∈ mutations node ancestors) :
    Mutable sourceFile kind (offset + leadingTriviaLength node) := by
  cases node with
  | leaf token =>
      obtain ⟨parts, rest, rfl⟩ := exists_of_mem_mutations_leaf h
      obtain ⟨-, kinds, hkey, hlisted⟩ := mem_mutations_operator.mp h
      exact .binaryOperator occurs hkey hlisted
  | node label parts =>
      cases label with
      | assignmentExpr =>
          obtain rfl : kind = .cxxAssignConst := by simpa [mutations] using h
          exact .assignment occurs
      | functionCallExpr =>
          obtain ⟨item, items, rest, rfl, hone, rfl⟩ := exists_of_mem_mutations_call h
          have hzero := List.length_pos_iff.mpr (items_ne_nil occurs)
          exact .voidCall occurs (by omega)
      | _ => simp [mutations] at h

theorem mem_save {converter : SourceLocationConverter} {kinds : List SyntaxMutatorKind}
    {start : Nat} {m : Mutation} :
    m ∈ save converter kinds start ↔
      m.kind ∈ kinds ∧ converter.location start = (some m.line, some m.column) := by
  obtain ⟨kind, line, column⟩ := m
  unfold save
  rcases converter.location start with ⟨_ | line', _ | column'⟩ <;> simp

/-- The saved mutations are those of the nodes that occur in the file. -/
theorem mem_indexed {converter : SourceLocationConverter} {m : Mutation} :
    m ∈ indexed converter sourceFile ↔
      ∃ ancestors node offset, Occurs Token.width sourceFile ancestors node offset ∧
        m.kind ∈ mutations node ancestors ∧
        converter.location (offset + leadingTriviaLength node) =
          (some m.line, some m.column) := by
  rw [indexed, List.mem_flatMap]
  constructor
  · rintro ⟨v, hv, hm⟩
    exact ⟨v.ancestors, v.node, v.offset, mem_walk_iff.mp hv, mem_save.mp hm⟩
  · rintro ⟨ancestors, node, offset, occurs, hm⟩
    exact ⟨⟨node, offset, ancestors⟩, mem_walk_iff.mpr occurs, mem_save.mpr hm⟩

/-- Nothing else is saved. -/
theorem recorded_of_mem_indexed {converter : SourceLocationConverter} {m : Mutation}
    (h : m ∈ indexed converter sourceFile) : Recorded converter sourceFile m := by
  obtain ⟨ancestors, node, offset, occurs, hkind, hlocation⟩ := mem_indexed.mp h
  exact ⟨_, mutable_of_mem_mutations occurs hkind, hlocation⟩

/-- Where all operators are spaced every construct is saved. -/
theorem mem_indexed_of_recorded {converter : SourceLocationConverter} {m : Mutation}
    (spaced : SpacedOperators sourceFile) (h : Recorded converter sourceFile m) :
    m ∈ indexed converter sourceFile := by
  obtain ⟨start, hmutable, hlocation⟩ := h
  obtain ⟨kind, line, column⟩ := m
  rw [mem_indexed]
  cases hmutable with
  | binaryOperator operator key listed =>
      have hspaced := spaced _ _ _ _ operator (by simp [Token.IsMutable, key])
      exact ⟨_, _, _, operator, mem_mutations_operator.mpr ⟨hspaced, _, key, listed⟩, hlocation⟩
  | voidCall call several =>
      have hone := Nat.ne_of_gt several
      exact ⟨_, _, _, call, by simp [mutations, hone], hlocation⟩
  | assignment expr => exact ⟨_, _, _, expr, by simp [mutations], hlocation⟩

end Visits

section Exact

variable {converter : SourceLocationConverter} {sourceFile : SourceFileSyntax}

/-- An operator of the table is saved at its start only if it is spaced: no other construct
of its kinds starts there. -/
theorem isSpaced_of_mem_indexed (locates : Locates converter sourceFile)
    {ancestors parts : List SourceFileSyntax} {token : Token} {offset : Nat}
    {kinds : List SyntaxMutatorKind} {m : Mutation}
    (operator : Occurs Token.width sourceFile (.node .binaryOperatorExpr parts :: ancestors)
      (.leaf token) offset)
    (key : binaryMutations.lookup token.text = some kinds) (listed : m.kind ∈ kinds)
    (hlocation : converter.location (offset + token.leadingTrivia.utf8ByteSize) =
      (some m.line, some m.column))
    (h : m ∈ indexed converter sourceFile) : token.IsSpaced := by
  obtain ⟨ancestors', node, offset', occurs, hkind, hlocation'⟩ := mem_indexed.mp h
  have hne := table_kinds _ (mem_of_lookup key) _ listed
  cases node with
  | leaf token' =>
      obtain ⟨parts', rest, rfl⟩ := exists_of_mem_mutations_leaf hkind
      obtain ⟨hspaced, kinds', hkey', -⟩ := mem_mutations_operator.mp hkind
      have hlt := leadingTrivia_lt_width key
      have hlt' := leadingTrivia_lt_width hkey'
      have hle := operator.le
      have hle' := occurs.le
      simp only [extent] at hle hle'
      have hstart := locates.injective _ (by omega) _ (by
        simp only [leadingTriviaLength, firstLeaf?]; omega) (hlocation.trans hlocation'.symm)
      obtain ⟨rfl, -⟩ := operator.leaf_unique occurs hlt hlt' hstart
      exact hspaced
  | node label parts' =>
      cases label with
      | assignmentExpr => exact absurd (by simpa [mutations] using hkind) hne.2
      | functionCallExpr =>
          obtain ⟨-, -, -, -, -, hcall⟩ := exists_of_mem_mutations_call hkind
          exact absurd hcall hne.1
      | _ => simp [mutations] at hkind

/-- The saved mutations are the mutable constructs only where every operator is spaced. -/
theorem spacedOperators_of_exact (locates : Locates converter sourceFile)
    (exact : ∀ m, m ∈ indexed converter sourceFile ↔ Recorded converter sourceFile m) :
    SpacedOperators sourceFile := by
  intro ancestors parts token offset operator hkey
  obtain ⟨kinds, key⟩ := Option.isSome_iff_exists.mp hkey
  obtain ⟨kind, rest, hkinds⟩ := List.exists_cons_of_ne_nil (table_ne_nil _ (mem_of_lookup key)).2
  have hlt := leadingTrivia_lt_width key
  have hle := operator.le
  simp only [extent] at hle
  have listed : kind ∈ kinds := by simp_all
  obtain ⟨line, column, hlocation⟩ :=
    locates.located (offset + token.leadingTrivia.utf8ByteSize) (by omega)
  refine isSpaced_of_mem_indexed (m := ⟨kind, line, column⟩) locates operator key listed
    hlocation ?_
  exact (exact _).mpr ⟨_, .binaryOperator operator key listed, hlocation⟩

end Exact

section Formatting

/-- Two source files of one shape, token by token. -/
abbrev SourceFilePair := Tree (Token × Token) SyntaxKind

/-- The tokens of a pair differ in trivia and in their kinds at most. -/
def SameTexts (files : SourceFilePair) : Prop :=
  ∀ ancestors tokens offset, Occurs (fun _ => 0) files ancestors (.leaf tokens) offset →
    tokens.1.text = tokens.2.text

/-- Every operator of the table is spaced in both files or in neither. -/
def SpacedAlike (files : SourceFilePair) : Prop :=
  ∀ ancestors parts tokens offset,
    Occurs (fun _ => 0) files (.node .binaryOperatorExpr parts :: ancestors) (.leaf tokens)
        offset →
      tokens.1.IsMutable → (tokens.1.IsSpaced ↔ tokens.2.IsSpaced)

/-- The kinds that the indexer saves, node by node. -/
def savedKinds (sourceFile : SourceFileSyntax) : List (List SyntaxMutatorKind) :=
  (walk Token.width 0 [] sourceFile).map fun v => mutations v.node v.ancestors

theorem savedKinds_map (f : Token × Token → Token) (files : SourceFilePair) :
    savedKinds (map f files) =
      (walk (fun _ => 0) 0 [] files).map fun v =>
        mutations (map f v.node) (v.ancestors.map (map f)) := by
  have hwalk := congrArg (List.map fun p => mutations p.1 p.2)
    (walk_map (fun _ => 0) Token.width f files 0 0 [])
  simpa [savedKinds, Function.comp_def] using hwalk

/-- The kinds of an inner node do not depend on the tokens. -/
theorem mutations_map_node (f g : Token × Token → Token) (label : SyntaxKind)
    (parts ancestors : List SourceFilePair) :
    mutations (map f (.node label parts)) (ancestors.map (map f)) =
      mutations (map g (.node label parts)) (ancestors.map (map g)) := by
  cases label with
  | functionCallExpr =>
      rcases ancestors with _ | ⟨_ | ⟨label, item⟩, _ | ⟨_ | ⟨label', items⟩, rest⟩⟩
      case cons.node.cons.node =>
        cases label <;> cases label' <;> simp [mutations, map, mapAll_eq]
      all_goals first | rfl | cases label <;> rfl
  | _ => rfl

/-- Two operators with one text are saved alike, unless the text is in the table and one of
them only is spaced. -/
theorem mutations_operator_eq_iff {token token' : Token} (htext : token.text = token'.text)
    {parts parts' ancestors ancestors' : List SourceFileSyntax} :
    mutations (.leaf token) (.node .binaryOperatorExpr parts :: ancestors) =
        mutations (.leaf token') (.node .binaryOperatorExpr parts' :: ancestors') ↔
      (token.IsMutable → (token.IsSpaced ↔ token'.IsSpaced)) := by
  by_cases h : token.IsSpaced <;> by_cases h' : token'.IsSpaced
  · rw [mutations_of_spaced h, mutations_of_spaced h', htext]
    simp [h, h']
  · rw [mutations_of_spaced h, mutations_of_not_spaced h', lookup_getD_eq_nil_iff]
    simp [h, h', Token.IsMutable]
  · rw [mutations_of_not_spaced h, mutations_of_spaced h', eq_comm, lookup_getD_eq_nil_iff,
      ← htext]
    simp [h, h', Token.IsMutable]
  · rw [mutations_of_not_spaced h, mutations_of_not_spaced h']
    simp [h, h']

/-- Other tokens than operators are saved in neither file. -/
theorem mutations_map_leaf (f g : Token × Token → Token) {tokens : Token × Token}
    {ancestors : List SourceFilePair}
    (h : ∀ parts rest, ancestors ≠ .node .binaryOperatorExpr parts :: rest) :
    mutations (map f (.leaf tokens)) (ancestors.map (map f)) =
      mutations (map g (.leaf tokens)) (ancestors.map (map g)) := by
  rcases ancestors with _ | ⟨_ | ⟨label, parts⟩, rest⟩
  · rfl
  · rfl
  · cases label with
    | binaryOperatorExpr => exact absurd rfl (h parts rest)
    | _ => rfl

/-- Two files that differ in trivia only are saved alike, node by node, exactly where
corresponding operators are spaced alike. -/
theorem savedKinds_eq_iff {files : SourceFilePair} (same : SameTexts files) :
    savedKinds (map Prod.fst files) = savedKinds (map Prod.snd files) ↔ SpacedAlike files := by
  rw [savedKinds_map, savedKinds_map, List.map_inj_left]
  constructor
  · intro heq ancestors parts tokens offset operator
    have hkinds := heq _ (mem_walk_of_occurs operator)
    apply (mutations_operator_eq_iff (same _ _ _ operator)).mp
    exact hkinds
  · intro alike v hv
    have occurs := mem_walk_iff.mp hv
    obtain ⟨node, offset, ancestors⟩ := v
    cases node with
    | node label parts => exact mutations_map_node _ _ label parts ancestors
    | leaf tokens =>
        by_cases hform : ∃ parts rest, ancestors = .node .binaryOperatorExpr parts :: rest
        · obtain ⟨parts, rest, rfl⟩ := hform
          apply (mutations_operator_eq_iff (same _ _ _ occurs)).mpr
          exact alike _ _ _ _ occurs
        · exact mutations_map_leaf _ _ fun parts rest heq => hform ⟨parts, rest, heq⟩

end Formatting

/-- **Only operators between whitespace are recorded.** What the indexer saves is exactly the
mutable constructs of the file if and only if every binary operator of the table is spaced;
and a file that differs in whitespace only has the same kinds saved for every node if and
only if corresponding operators of the table are spaced alike. -/
theorem indexed_exact_iff {converter : SourceLocationConverter} {sourceFile : SourceFileSyntax}
    (locates : Locates converter sourceFile) :
    ((∀ m, m ∈ indexed converter sourceFile ↔ Recorded converter sourceFile m) ↔
        SpacedOperators sourceFile) ∧
      ∀ files, SameTexts files → map Prod.fst files = sourceFile →
        (savedKinds sourceFile = savedKinds (map Prod.snd files) ↔ SpacedAlike files) := by
  constructor
  · exact ⟨spacedOperators_of_exact locates, fun spaced m =>
      ⟨recorded_of_mem_indexed, mem_indexed_of_recorded spaced⟩⟩
  · rintro files same rfl
    exact savedKinds_eq_iff same

section Example

/-- Every file is a single line. -/
def exampleConverter : SourceLocationConverter where
  location offset := (some 1, some (Int32.ofNat (offset + 1)))

/-- The expression of two variables with the operator between them. -/
def exampleFile (trivia : String) (operator : TokenKind) : SourceFileSyntax :=
  .node (.other "SequenceExpr")
    [.leaf ⟨"", .other "a", trivia⟩,
      .node .binaryOperatorExpr [.leaf ⟨"", operator, trivia⟩],
      .leaf ⟨"", .other "b", ""⟩]

theorem locates_example {n : Nat} {sourceFile : SourceFileSyntax}
    (hn : extent Token.width sourceFile ≤ n)
    (hdistinct : ∀ o ≤ n, ∀ o' ≤ n, Int32.ofNat (o + 1) = Int32.ofNat (o' + 1) → o = o') :
    Locates exampleConverter sourceFile where
  located offset _ := ⟨_, _, rfl⟩
  injective o ho o' ho' h := by
    simp only [exampleConverter, Prod.mk.injEq, Option.some.injEq, true_and] at h
    exact hdistinct o (ho.trans hn) o' (ho'.trans hn) h

theorem indexed_exact_iff_example :
    (∀ m, m ∈ indexed exampleConverter (exampleFile " " (.spacedBinaryOperator "+")) ↔
        Recorded exampleConverter (exampleFile " " (.spacedBinaryOperator "+")) m) ↔
      SpacedOperators (exampleFile " " (.spacedBinaryOperator "+")) :=
  (indexed_exact_iff (locates_example (n := 5) (by decide) (by decide))).1

/-- In `a+b` no operator is recorded. -/
theorem not_indexed_exact_example :
    ¬ ∀ converter sourceFile, Locates converter sourceFile →
      ∀ m, m ∈ indexed converter sourceFile ↔ Recorded converter sourceFile m := by
  intro exact
  have hlocates : Locates exampleConverter (exampleFile "" (.unspacedBinaryOperator "+")) :=
    locates_example (n := 3) (by decide) (by decide)
  have operator : Occurs Token.width (exampleFile "" (.unspacedBinaryOperator "+")) _
      (.leaf ⟨"", .unspacedBinaryOperator "+", ""⟩) 1 :=
    .child [] [] (.child [_] [_] .root)
  have hmem := (exact _ _ hlocates ⟨.cxxAddToSub, 1, 2⟩).mpr
    ⟨1, .binaryOperator operator rfl (by decide), rfl⟩
  exact absurd hmem (by decide)

end Example

end MullXCTest.SwiftSupport
