import MullXCTest.Benchmark.Parser
import MullXCTest.Library.Words
import Mathlib.Data.List.TakeWhile

/-!
# Characters next to plain scalars

Swift's characters are extended grapheme clusters. Next to printable ASCII and line breaks
their boundaries follow from two properties of the neighbouring scalar, so that a printed
text can be taken apart at its marks.
-/

namespace MullXCTest.Benchmark

open Clusters Words

/-- The scalars from the space to the tilde. -/
def isPlain (c : Char) : Bool := 0x20 ≤ c.toNat && c.toNat ≤ 0x7e

/-- What is known of the extended grapheme clusters next to plain scalars and line breaks: a
plain scalar joins what is prepended to it, and is joined by what extends it, and a line
break, apart from CR LF, is a cluster of its own. -/
structure Graphemes (joins : Character → Char → Bool) (isExtend isPrepend : Char → Bool) :
    Prop where
  before_plain : ∀ (cluster : Character) (c : Char), isPlain c = true →
    (joins cluster c = true ↔ ∃ p ∈ cluster.getLast?, isPrepend p = true)
  after_plain : ∀ (cluster : Character) (p c : Char), cluster.getLast? = some p →
    isPlain p = true → joins cluster c = isExtend c
  before_newline : ∀ (cluster : Character), joins cluster '\n' = true → cluster = ['\r']
  after_newline : ∀ c : Char, joins ['\n'] c = false
  plain : ∀ c : Char, isPlain c = true → isExtend c = false ∧ isPrepend c = false

section Boundaries

variable {joins : Character → Char → Bool} {isExtend isPrepend : Char → Bool}

/-- Behind a plain scalar a cluster ends unless it is extended. -/
theorem boundary_after_iff (swift : Graphemes joins isExtend isPrepend) {first second : List Char}
    {p : Char} (hp : first.getLast? = some p) (hplain : isPlain p = true) :
    Boundary joins first second ↔ ∀ c ∈ second.head?, isExtend c = false := by
  have hne : first ≠ [] := by
    rintro rfl
    cases hp
  have hlast := List.getLast?_eq_some_getLast (@clusters_ne_nil _ joins _ hne)
  have hend := (getLast?_cluster hlast).trans hp
  constructor
  · intro h c hc
    rw [← swift.after_plain _ p c hend hplain]
    exact h _ hlast c hc
  · intro h cluster hcluster c hc
    obtain rfl := Option.some.inj (hlast.symm.trans hcluster)
    rw [swift.after_plain _ p c hend hplain]
    exact h c hc

/-- Before a plain scalar a cluster ends unless it is prepended to it. -/
theorem boundary_before_iff (swift : Graphemes joins isExtend isPrepend)
    {first rest : List Char} {c : Char} (hplain : isPlain c = true) :
    Boundary joins first (c :: rest) ↔ ∀ p ∈ first.getLast?, isPrepend p = false := by
  cases hlast : (clusters joins first).getLast? with
  | none =>
      have hnil : first = [] := by
        by_contra hne
        exact clusters_ne_nil hne (List.getLast?_eq_none_iff.mp hlast)
      subst hnil
      simp [Boundary]
  | some cluster =>
      have hend := getLast?_cluster hlast
      have hjoins := swift.before_plain cluster c hplain
      rw [hend] at hjoins
      have hbound : Boundary joins first (c :: rest) ↔ joins cluster c = false := by
        simp [Boundary, hlast]
      rw [hbound]
      constructor
      · intro h p hp
        by_contra hprepend
        have := hjoins.mpr ⟨p, hp, by simpa using hprepend⟩
        simp [h] at this
      · intro h
        by_contra hjoin
        obtain ⟨p, hp, hprepend⟩ := hjoins.mp (by simpa using hjoin)
        simp [h p hp] at hprepend

/-- A plain text is segmented into its scalars. -/
theorem clusters_plain (swift : Graphemes joins isExtend isPrepend) {text : List Char}
    (h : text.all isPlain = true) : clusters joins text = text.map fun c => [c] := by
  rw [List.all_eq_true] at h
  apply clusters_eq_map
  intro a ha b hb
  rw [swift.after_plain [a] a b rfl (h a ha)]
  exact (swift.plain b (h b hb)).1

/-- A plain mark that nothing joins is a character between two texts. -/
theorem clusters_mark (swift : Graphemes joins isExtend isPrepend) {first rest : List Char}
    {mark : Char} (hplain : isPlain mark = true)
    (hbefore : ∀ p ∈ first.getLast?, isPrepend p = false)
    (hafter : ∀ c ∈ rest.head?, isExtend c = false) :
    clusters joins (first ++ mark :: rest) =
      clusters joins first ++ [mark] :: clusters joins rest := by
  have hmark : Boundary joins [mark] rest :=
    (boundary_after_iff swift rfl hplain).mpr hafter
  rw [clusters_append ((boundary_before_iff swift hplain).mpr hbefore),
    ← List.singleton_append, clusters_append hmark]
  rfl

/-- Characters that make up the text before a plain mark are the characters of that text. -/
theorem cut_before_mark (swift : Graphemes joins isExtend isPrepend) {first rest : List Char}
    {mark : Char} (hplain : isPlain mark = true) {front back : List Character}
    (h : clusters joins (first ++ mark :: rest) = front ++ back) (hfront : front.flatten = first) :
    clusters joins first = front ∧ ∀ p ∈ first.getLast?, isPrepend p = false := by
  obtain ⟨text, text', hsplit, htext, -, hbound⟩ := exists_cut h
  have hfirst : text = first := by rw [← hfront, ← htext, flatten_clusters]
  subst hfirst
  obtain rfl := List.append_cancel_left hsplit
  exact ⟨htext, (boundary_before_iff swift hplain).mp hbound⟩

end Boundaries

section Newlines

variable {joins : Character → Char → Bool} {isExtend isPrepend : Char → Bool}

theorem isNewline_of_scalars {character : Character}
    (h : ∀ c ∈ character, isNewlineScalar c = false) : isNewline character = false := by
  unfold isNewline
  split
  · exact h _ List.mem_cons_self
  · rw [beq_eq_false_iff_ne]
    rintro rfl
    exact absurd (h '\n' (by simp)) (by decide)

/-- Whitespace contains the line breaks, and the printed marks are none. -/
theorem newline_of_whitespace {c : Char} (h : isWhitespaceScalar c = false) :
    isNewlineScalar c = false := by
  simp only [isWhitespaceScalar, isNewlineScalar, Bool.or_eq_false_iff, Bool.and_eq_false_iff,
    decide_eq_false_iff_not, beq_eq_false_iff_ne] at h ⊢
  omega

theorem newline_of_isPlain {c : Char} (h : isPlain c = true) : isNewlineScalar c = false := by
  simp only [isPlain, Bool.and_eq_true, decide_eq_true_eq] at h
  simp only [isNewlineScalar, Bool.or_eq_false_iff, Bool.and_eq_false_iff,
    decide_eq_false_iff_not, beq_eq_false_iff_ne]
  omega

/-- A line break is a character between two lines. -/
theorem clusters_newline (swift : Graphemes joins isExtend isPrepend) {line : List Char}
    (h : ∀ c ∈ line, isNewlineScalar c = false) (rest : List Char) :
    clusters joins (line ++ '\n' :: rest) =
      clusters joins line ++ ['\n'] :: clusters joins rest := by
  have hline : Boundary joins line ('\n' :: rest) := by
    intro cluster hcluster c hc
    obtain rfl : '\n' = c := Option.some.inj hc
    by_contra hjoin
    obtain rfl := swift.before_newline cluster (by simpa using hjoin)
    have hmem := mem_of_mem_cluster (List.mem_of_getLast? hcluster) List.mem_cons_self
    exact absurd (h _ hmem) (by decide)
  have hbreak : Boundary joins ['\n'] rest := by
    intro cluster hcluster c _
    obtain rfl : ['\n'] = cluster := Option.some.inj hcluster
    exact swift.after_newline c
  rw [clusters_append hline, ← List.singleton_append, clusters_append hbreak]
  rfl

end Newlines

/-- The pieces are the words between the separators. -/
theorem split_eq_words (isSeparator : Character → Bool) (text : List Character) :
    split isSeparator text = words isSeparator text := by
  unfold split words
  apply List.filter_congr
  intro piece _
  cases piece <;> rfl

section Numbers

variable {joins : Character → Char → Bool} {isExtend isPrepend : Char → Bool}

theorem isPlain_of_isDigit {c : Char} (h : c.isDigit = true) : isPlain c = true := by
  simp only [Char.isDigit, Bool.and_eq_true, decide_eq_true_eq] at h
  have hlow : 48 ≤ c.toNat := h.1
  have hhigh : c.toNat ≤ 57 := h.2
  simp only [isPlain, Bool.and_eq_true, decide_eq_true_eq]
  omega

/-- A printed number is segmented into its digits. -/
theorem clusters_repr (swift : Graphemes joins isExtend isPrepend) (n : Nat) :
    clusters joins n.repr.toList = n.repr.toList.map fun c => [c] :=
  clusters_plain swift (List.all_eq_true.mpr fun _ hc =>
    isPlain_of_isDigit (Decimal.isDigit_of_mem_repr hc))

theorem readUInt_repr {n : Nat} (h : n < 18446744073709551616) :
    readUInt (n.repr.toList.map fun c => [c]) = some n := by
  have hflatten : (n.repr.toList.map fun c => [c]).flatten = n.repr.toList := by
    rw [← List.flatMap_def, List.flatMap_singleton']
  have hread : readDigits n.repr.toList = some n := by
    have hdigits : n.repr.toList.all Char.isDigit = true :=
      List.all_eq_true.mpr fun c hc => Decimal.isDigit_of_mem_repr hc
    rw [readDigits, Decimal.value_repr, if_pos ⟨Decimal.repr_ne_nil n, hdigits, h⟩]
  unfold readUInt
  rw [hflatten]
  split
  · rename_i digits hplus
    exact absurd (hplus ▸ List.mem_cons_self) (Decimal.notMem_repr rfl n)
  · rename_i digits hminus
    exact absurd (hminus ▸ List.mem_cons_self) (Decimal.notMem_repr rfl n)
  · exact hread

/-- A printed number neither extends nor joins what is next to it. -/
theorem head_repr (swift : Graphemes joins isExtend isPrepend) (n : Nat) (rest : List Char) :
    ∀ c ∈ (n.repr.toList ++ rest).head?, isExtend c = false := by
  intro c hc
  rw [List.head?_append_of_ne_nil _ (Decimal.repr_ne_nil n)] at hc
  have hdigit := Decimal.isDigit_of_mem_repr (List.mem_of_mem_head? hc)
  exact (swift.plain c (isPlain_of_isDigit hdigit)).1

theorem last_repr (swift : Graphemes joins isExtend isPrepend) (n : Nat) :
    ∀ c ∈ n.repr.toList.getLast?, isPrepend c = false := by
  intro c hc
  have hdigit := Decimal.isDigit_of_mem_repr (List.mem_of_mem_getLast? hc)
  exact (swift.plain c (isPlain_of_isDigit hdigit)).2

end Numbers

end MullXCTest.Benchmark
