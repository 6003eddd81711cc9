import MullXCTest.Benchmark.Characters
import MullXCTest.Library.Outcome

/-!
# Reading back the printed mutants

The parser undoes the printer on the lists that have a mutant and in which the mark of each
field stands alone: the path has no colon of its own, and no scalar next to a mark forms
a character with it.
-/

namespace MullXCTest.Benchmark

open Clusters Outcome Words

/-- What the printer is given: identifiers without whitespace, absolute paths without line
breaks, and natural numbers that an integer of C++ can hold. -/
structure Dumpable (mutant : MullMutationPoint) : Prop where
  mutator_ne_empty : mutant.mutator ≠ ""
  mutator_no_whitespace : ∀ c ∈ mutant.mutator.toList, isWhitespaceScalar c = false
  absolute : mutant.location.filePath.toList.head? = some '/'
  no_newline : ∀ c ∈ mutant.location.filePath.toList, isNewlineScalar c = false
  line_lt : mutant.location.line < 18446744073709551616
  column_lt : mutant.location.column < 18446744073709551616

/-- The marks of the line stand alone: the identifier does not extend the space before it, no
field joins the mark behind it, and the path has no colon of its own. -/
structure Readable (joins : Character → Char → Bool) (isExtend isPrepend : Char → Bool)
    (mutant : MullMutationPoint) : Prop where
  mutator_begin : ∀ c ∈ mutant.mutator.toList.head?, isExtend c = false
  mutator_end : ∀ c ∈ mutant.mutator.toList.getLast?, isPrepend c = false
  path_end : ∀ c ∈ mutant.location.filePath.toList.getLast?, isPrepend c = false
  no_colon : [':'] ∉ clusters joins mutant.location.filePath.toList

section Fields

variable {joins : Character → Char → Bool} {isExtend isPrepend : Char → Bool}

theorem linePrefix_flatten : linePrefix.flatten = "Mutation Point: ".toList := by decide

/-- The prefix is found unless the space at its end is extended. -/
theorem isPrefixOf_iff (swift : Graphemes joins isExtend isPrepend) (tail : List Char) :
    linePrefix.isPrefixOf (clusters joins ("Mutation Point: ".toList ++ tail)) = true ↔
      ∀ c ∈ tail.head?, isExtend c = false := by
  have hspace : "Mutation Point: ".toList.getLast? = some ' ' := by decide
  rw [List.isPrefixOf_iff_prefix, ← boundary_after_iff swift hspace (by decide)]
  constructor
  · rintro ⟨back, hsplit⟩
    obtain ⟨first, second, htext, hfirst, -, hbound⟩ := exists_cut hsplit.symm
    have hstart : first = "Mutation Point: ".toList := by
      rw [← linePrefix_flatten, ← hfirst, flatten_clusters]
    subst hstart
    rwa [List.append_cancel_left htext]
  · intro hbound
    rw [clusters_append hbound, clusters_plain swift (by decide)]
    exact List.prefix_append _ _

theorem drop_linePrefix (swift : Graphemes joins isExtend isPrepend) {tail : List Char}
    (h : ∀ c ∈ tail.head?, isExtend c = false) :
    (clusters joins ("Mutation Point: ".toList ++ tail)).drop linePrefix.length =
      clusters joins tail := by
  have hspace : "Mutation Point: ".toList.getLast? = some ' ' := by decide
  rw [clusters_append ((boundary_after_iff swift hspace (by decide)).mpr h),
    clusters_plain swift (by decide)]
  exact List.drop_left

section Mutator

variable {name rest : List Char}

theorem isWhitespace_of_mem (hname : ∀ c ∈ name, isWhitespaceScalar c = false)
    {character : Character} (h : character ∈ clusters joins name) :
    isWhitespace character = false := by
  obtain ⟨c, scalars, rfl⟩ := List.exists_cons_of_ne_nil (ne_nil_of_mem_clusters h)
  exact hname c (mem_of_mem_cluster h List.mem_cons_self)

theorem takeWhile_name (swift : Graphemes joins isExtend isPrepend)
    (hname : ∀ c ∈ name, isWhitespaceScalar c = false)
    (hbefore : ∀ p ∈ name.getLast?, isPrepend p = false)
    (hrest : ∀ c ∈ rest.head?, isExtend c = false) :
    (clusters joins (name ++ ' ' :: rest)).takeWhile (fun character => !isWhitespace character) =
      clusters joins name := by
  rw [clusters_mark swift (by decide) hbefore hrest, List.takeWhile_append_of_pos]
  · rw [List.takeWhile_cons_of_neg (by decide), List.append_nil]
  · intro character h
    rw [isWhitespace_of_mem hname h]
    rfl

/-- The identifier is read back unless it joins the space behind it. -/
theorem takeWhile_flatten_iff (swift : Graphemes joins isExtend isPrepend)
    (hname : ∀ c ∈ name, isWhitespaceScalar c = false)
    (hrest : ∀ c ∈ rest.head?, isExtend c = false) :
    ((clusters joins (name ++ ' ' :: rest)).takeWhile
        fun character => !isWhitespace character).flatten = name ↔
      ∀ p ∈ name.getLast?, isPrepend p = false := by
  constructor
  · intro h
    exact (cut_before_mark swift (by decide) List.takeWhile_append_dropWhile.symm h).2
  · intro hbefore
    rw [takeWhile_name swift hname hbefore hrest, flatten_clusters]

theorem drop_name (swift : Graphemes joins isExtend isPrepend)
    (hbefore : ∀ p ∈ name.getLast?, isPrepend p = false)
    (hrest : ∀ c ∈ rest.head?, isExtend c = false) :
    (clusters joins (name ++ ' ' :: rest)).drop ((clusters joins name).length + 1) =
      clusters joins rest := by
  rw [clusters_mark swift (by decide) hbefore hrest, List.drop_append]
  simp

end Mutator

section Location

/-- What stands behind the space of a line. -/
def locationText (location : SourceLocation) : List Char :=
  location.filePath.toList ++
    ':' :: (location.line.repr.toList ++ ':' :: location.column.repr.toList)

variable {location : SourceLocation}

theorem clusters_locationText (swift : Graphemes joins isExtend isPrepend)
    (hend : ∀ c ∈ location.filePath.toList.getLast?, isPrepend c = false) :
    clusters joins (locationText location) =
      clusters joins location.filePath.toList ++
        [':'] :: (location.line.repr.toList.map (fun c => [c]) ++
          [':'] :: location.column.repr.toList.map fun c => [c]) := by
  have hcolumn := head_repr swift location.column []
  rw [List.append_nil] at hcolumn
  rw [locationText, clusters_mark swift (by decide) hend (head_repr swift _ _),
    clusters_mark swift (by decide) (last_repr swift _) hcolumn, clusters_repr swift,
    clusters_repr swift]

/-- A path whose parts stand alone is read back with its numbers. -/
theorem parseSourceLocation_of_readable (swift : Graphemes joins isExtend isPrepend)
    (hne : location.filePath.toList ≠ []) (hline : location.line < 18446744073709551616)
    (hcolumn : location.column < 18446744073709551616)
    (hend : ∀ c ∈ location.filePath.toList.getLast?, isPrepend c = false)
    (hcolon : [':'] ∉ clusters joins location.filePath.toList) :
    parseSourceLocation (clusters joins (locationText location)) = .ok location := by
  have hpath : ∀ character ∈ clusters joins location.filePath.toList,
      (character == [':']) = false := by
    intro character h
    rw [beq_eq_false_iff_ne]
    rintro rfl
    exact hcolon h
  have hdigits : ∀ n : Nat, ∀ character ∈ n.repr.toList.map (fun c => [c]),
      (character == [':']) = false := by
    intro n character h
    obtain ⟨c, hc, rfl⟩ := List.mem_map.mp h
    rw [beq_eq_false_iff_ne]
    intro heq
    obtain rfl : c = ':' := by simpa using heq
    exact Decimal.notMem_repr rfl n hc
  have hsome : ∀ n : Nat, n.repr.toList.map (fun c => [c]) ≠ [] := by
    intro n
    simp
  have hsplit : split (· == [':']) (clusters joins (locationText location)) =
      [clusters joins location.filePath.toList, location.line.repr.toList.map fun c => [c],
        location.column.repr.toList.map fun c => [c]] := by
    rw [split_eq_words, clusters_locationText swift hend,
      words_append (clusters_ne_nil hne) hpath rfl, words_append (hsome _) (hdigits _) rfl,
      words_single (hsome _) (hdigits _)]
  have hname : string (clusters joins location.filePath.toList) = location.filePath := by
    rw [string, flatten_clusters, String.ofList_toList]
  have hl : unwrapUInt (location.line.repr.toList.map fun c => [c]) = .ok location.line := by
    rw [unwrapUInt, readUInt_repr hline]
  have hc : unwrapUInt (location.column.repr.toList.map fun c => [c]) = .ok location.column := by
    rw [unwrapUInt, readUInt_repr hcolumn]
  rw [parseSourceLocation, hsplit]
  refine bind_eq_ok.mpr ⟨_, rfl, ?_⟩
  refine bind_eq_ok.mpr ⟨_, rfl, ?_⟩
  refine bind_eq_ok.mpr ⟨_, hl, ?_⟩
  refine bind_eq_ok.mpr ⟨_, rfl, ?_⟩
  refine bind_eq_ok.mpr ⟨_, hc, ?_⟩
  rw [hname]
  rfl

/-- What is read as the path is the first piece. -/
theorem path_of_parsed {line : List Character}
    (h : parseSourceLocation line = .ok location) :
    ∃ piece pieces, split (· == [':']) line = piece :: pieces ∧
      string piece = location.filePath := by
  obtain ⟨piece, hpiece, h⟩ := bind_eq_ok.mp h
  obtain ⟨_, -, h⟩ := bind_eq_ok.mp h
  obtain ⟨_, -, h⟩ := bind_eq_ok.mp h
  obtain ⟨_, -, h⟩ := bind_eq_ok.mp h
  obtain ⟨_, -, h⟩ := bind_eq_ok.mp h
  cases hsplit : split (· == [':']) line with
  | nil =>
      rw [hsplit] at hpiece
      cases hpiece
  | cons first pieces =>
      rw [hsplit] at hpiece
      obtain rfl : first = piece := Except.ok.inj hpiece
      exact ⟨first, pieces, rfl, congrArg SourceLocation.filePath (Except.ok.inj h)⟩

theorem parseSourceLocation_iff (swift : Graphemes joins isExtend isPrepend)
    (habsolute : location.filePath.toList.head? = some '/')
    (hline : location.line < 18446744073709551616)
    (hcolumn : location.column < 18446744073709551616) :
    parseSourceLocation (clusters joins (locationText location)) = .ok location ↔
      (∀ c ∈ location.filePath.toList.getLast?, isPrepend c = false) ∧
        [':'] ∉ clusters joins location.filePath.toList := by
  obtain ⟨names, hnames⟩ := List.head?_eq_some_iff.mp habsolute
  constructor
  · intro h
    obtain ⟨piece, pieces, hsplit, hpiece⟩ := path_of_parsed h
    -- The first character of the text begins with a separator of paths, and is no colon.
    have htext : locationText location ≠ [] := by simp [locationText, hnames]
    obtain ⟨character, rest, hclusters⟩ :=
      List.exists_cons_of_ne_nil (@clusters_ne_nil _ joins _ htext)
    have hcolon : (character == [':']) = false := by
      have hflatten := @flatten_clusters _ joins (locationText location)
      rw [hclusters, List.flatten_cons, locationText, hnames] at hflatten
      rw [beq_eq_false_iff_ne]
      rintro rfl
      exact absurd (List.cons.inj hflatten).1 (by decide)
    have hwords := @words_cons _ (· == [':']) character hcolon rest
    rw [hclusters, split_eq_words, hwords] at hsplit
    obtain ⟨rfl, -⟩ := List.cons.inj hsplit
    have hpath : ((character :: rest).takeWhile fun c => !(c == [':'])).flatten =
        location.filePath.toList := by
      rw [← hpiece, string, String.toList_ofList]
    have hcut : clusters joins (locationText location) =
        ((character :: rest).takeWhile fun c => !(c == [':'])) ++
          (character :: rest).dropWhile fun c => !(c == [':']) := by
      rw [List.takeWhile_append_dropWhile, hclusters]
    obtain ⟨hfront, hend⟩ := cut_before_mark swift (by decide) hcut hpath
    refine ⟨hend, ?_⟩
    rw [hfront]
    intro hmem
    simpa using List.mem_takeWhile_imp hmem
  · rintro ⟨hend, hcolon⟩
    exact parseSourceLocation_of_readable swift (by simp [hnames]) hline hcolumn hend hcolon

end Location

section Line

variable {mutant : MullMutationPoint}

theorem dumpMutant_toList (mutant : MullMutationPoint) :
    (dumpMutant mutant).toList = "Mutation Point: ".toList ++
      (mutant.mutator.toList ++ ' ' :: locationText mutant.location) := by
  unfold dumpMutant locationText
  generalize "Mutation Point: " = start
  simp

theorem head_locationText (swift : Graphemes joins isExtend isPrepend) (h : Dumpable mutant) :
    ∀ c ∈ (locationText mutant.location).head?, isExtend c = false := by
  obtain ⟨names, hnames⟩ := List.head?_eq_some_iff.mp h.absolute
  rintro c hc
  rw [locationText, hnames] at hc
  cases hc
  exact (swift.plain '/' (by decide)).1

theorem head_mutator (h : Dumpable mutant) (rest : List Char) :
    (mutant.mutator.toList ++ rest).head? = mutant.mutator.toList.head? :=
  List.head?_append_of_ne_nil _ (by simpa using h.mutator_ne_empty)

/-- **One line.** A printed mutant is read back exactly when its marks stand alone. -/
theorem parseLine_dumpMutant_iff (swift : Graphemes joins isExtend isPrepend)
    (h : Dumpable mutant) :
    parseLine (clusters joins (dumpMutant mutant).toList) = .ok mutant ↔
      Readable joins isExtend isPrepend mutant := by
  have hlocation := head_locationText swift h
  have hbegin := isPrefixOf_iff swift
    (mutant.mutator.toList ++ ' ' :: locationText mutant.location)
  have hparse := parseSourceLocation_iff swift h.absolute h.line_lt h.column_lt
  have hname := takeWhile_flatten_iff swift h.mutator_no_whitespace hlocation
  have hdrop := @drop_linePrefix _ _ _ swift
    (mutant.mutator.toList ++ ' ' :: locationText mutant.location)
  rw [head_mutator h] at hbegin hdrop
  rw [dumpMutant_toList]
  generalize clusters joins ("Mutation Point: ".toList ++
    (mutant.mutator.toList ++ ' ' :: locationText mutant.location)) = line at hbegin hdrop ⊢
  rw [parseLine]
  constructor
  · intro hok
    split_ifs at hok with hstart
    have hfirst := hbegin.mp hstart
    rw [hdrop hfirst] at hok
    obtain ⟨location, hrest, hok⟩ := bind_eq_ok.mp hok
    have hmutant := Except.ok.inj hok
    have hread : string _ = mutant.mutator := congrArg MullMutationPoint.mutator hmutant
    have hlist := congrArg String.toList hread
    rw [string, String.toList_ofList] at hlist
    have hlast := hname.mp hlist
    rw [takeWhile_name swift h.mutator_no_whitespace hlast hlocation,
      drop_name swift hlast hlocation] at hrest
    rw [show location = mutant.location from congrArg MullMutationPoint.location hmutant]
      at hrest
    obtain ⟨hend, hcolon⟩ := hparse.mp hrest
    exact ⟨hfirst, hlast, hend, hcolon⟩
  · intro readable
    have hlast := readable.mutator_end
    rw [if_pos (hbegin.mpr readable.mutator_begin), hdrop readable.mutator_begin]
    dsimp only
    rw [takeWhile_name swift h.mutator_no_whitespace hlast hlocation,
      drop_name swift hlast hlocation]
    refine bind_eq_ok.mpr ⟨_, hparse.mpr ⟨readable.path_end, readable.no_colon⟩, ?_⟩
    rw [string, flatten_clusters, String.ofList_toList]
    rfl

end Line

section Lines

variable {mutants : List MullMutationPoint}

theorem newline_notMem_dumpMutant {mutant : MullMutationPoint} (h : Dumpable mutant) :
    ∀ c ∈ (dumpMutant mutant).toList, isNewlineScalar c = false := by
  intro c hc
  have hdigits : ∀ n : Nat, c ∈ n.repr.toList → isNewlineScalar c = false :=
    fun n hmem => newline_of_isPlain (isPlain_of_isDigit (Decimal.isDigit_of_mem_repr hmem))
  have hplain : "Mutation Point: ".toList.all isPlain = true := by decide
  rw [dumpMutant_toList, locationText] at hc
  simp only [List.mem_append, List.mem_cons] at hc
  rcases hc with hc | hc | rfl | hc | rfl | hc | rfl | hc
  · exact newline_of_isPlain (List.all_eq_true.mp hplain c hc)
  · exact newline_of_whitespace (h.mutator_no_whitespace c hc)
  · decide
  · exact h.no_newline c hc
  · decide
  · exact hdigits _ hc
  · decide
  · exact hdigits _ hc

theorem isNewline_of_mem {mutant : MullMutationPoint} (h : Dumpable mutant)
    {character : Character} (hc : character ∈ clusters joins (dumpMutant mutant).toList) :
    isNewline character = false :=
  isNewline_of_scalars fun _ hmem =>
    newline_notMem_dumpMutant h _ (mem_of_mem_cluster hc hmem)

theorem dumpMutant_ne_nil (mutant : MullMutationPoint) : (dumpMutant mutant).toList ≠ [] := by
  rw [dumpMutant_toList]
  intro h
  exact absurd (List.append_eq_nil_iff.mp h).1 (by decide)

theorem clusters_dumpLines (swift : Graphemes joins isExtend isPrepend)
    (h : ∀ mutant ∈ mutants, Dumpable mutant) :
    clusters joins (dumpLines mutants).toList =
      mutants.flatMap fun mutant => clusters joins (dumpMutant mutant).toList ++ [['\n']] := by
  induction mutants with
  | nil => rfl
  | cons mutant rest ih =>
      have hnewline : "\n".toList = ['\n'] := by decide
      have htext : (dumpLines (mutant :: rest)).toList =
          (dumpMutant mutant).toList ++ '\n' :: (dumpLines rest).toList := by
        rw [dumpLines, String.toList_append, String.toList_append, hnewline, List.append_assoc,
          List.singleton_append]
      have hmutant := newline_notMem_dumpMutant (h mutant List.mem_cons_self)
      have hrest := ih fun m hm => h m (List.mem_cons_of_mem _ hm)
      calc
        clusters joins (dumpLines (mutant :: rest)).toList =
            clusters joins (dumpMutant mutant).toList ++
              ['\n'] :: clusters joins (dumpLines rest).toList := by
          rw [htext, clusters_newline swift hmutant]
        _ = _ := by
          rw [hrest, List.flatMap_cons, List.append_assoc, List.singleton_append]

theorem split_dumpLines (swift : Graphemes joins isExtend isPrepend)
    (h : ∀ mutant ∈ mutants, Dumpable mutant) :
    split isNewline (clusters joins (dumpLines mutants).toList) =
      mutants.map fun mutant => clusters joins (dumpMutant mutant).toList := by
  rw [split_eq_words, clusters_dumpLines swift h]
  induction mutants with
  | nil => rfl
  | cons mutant rest ih =>
      have hrest := ih fun m hm => h m (List.mem_cons_of_mem _ hm)
      rw [List.flatMap_cons, List.append_assoc, List.singleton_append,
        words_append (clusters_ne_nil (dumpMutant_ne_nil mutant))
          (fun _ => isNewline_of_mem (h mutant List.mem_cons_self)) rfl, hrest]
      rfl

end Lines

end Fields

/-- The parser returns the list that was printed. -/
def ParsesBack (joins : Character → Char → Bool) (mutants : List MullMutationPoint) : Prop :=
  parseMullBenchmark joins (dumpMutants mutants).toUTF8 = .ok mutants

theorem parseMullBenchmark_toUTF8 (joins : Character → Char → Bool) (contents : String) :
    parseMullBenchmark joins contents.toUTF8 =
      (split isNewline (clusters joins contents.toList)).mapM parseLine := by
  have hdecode : String.fromUTF8? contents.toUTF8 = some contents := by
    rw [String.fromUTF8?, String.toUTF8_eq_toByteArray, dif_pos contents.isValidUTF8]
    rfl
  rw [parseMullBenchmark, hdecode]

/-- The text for the empty list is no line of the parser. -/
theorem not_parsesBack_nil {joins : Character → Char → Bool} {isExtend isPrepend : Char → Bool}
    (swift : Graphemes joins isExtend isPrepend) : ¬ ParsesBack joins [] := by
  have htext : (dumpMutants []).toList = "no mutant info found".toList ++ '\n' :: [] := by decide
  have hplain : "no mutant info found".toList.all isPlain = true := by decide
  have hclusters : clusters joins (dumpMutants []).toList =
      ("no mutant info found".toList.map fun c => [c]) ++ [['\n']] := by
    have hline : ∀ c ∈ "no mutant info found".toList, isNewlineScalar c = false :=
      fun c hc => newline_of_isPlain (List.all_eq_true.mp hplain c hc)
    rw [htext, clusters_newline swift hline, clusters_plain swift hplain]
    rfl
  intro parses
  rw [ParsesBack, parseMullBenchmark_toUTF8, hclusters] at parses
  exact absurd parses (by decide)

/-- **The parser undoes the printer** exactly on the lists that have a mutant and in which the
marks of every line stand alone. -/
theorem parsesBack_iff {joins : Character → Char → Bool} {isExtend isPrepend : Char → Bool}
    (swift : Graphemes joins isExtend isPrepend) {mutants : List MullMutationPoint}
    (h : ∀ mutant ∈ mutants, Dumpable mutant) :
    ParsesBack joins mutants ↔
      mutants ≠ [] ∧ ∀ mutant ∈ mutants, Readable joins isExtend isPrepend mutant := by
  by_cases hempty : mutants = []
  · subst hempty
    have hnot := not_parsesBack_nil swift
    simp [hnot]
  · have htext : dumpMutants mutants = dumpLines mutants := by
      rw [dumpMutants, if_neg (by simpa using hempty)]
    have hlines : ∀ mutant ∈ mutants,
        (parseLine (clusters joins (dumpMutant mutant).toList) = .ok mutant ↔
          Readable joins isExtend isPrepend mutant) :=
      fun mutant hmutant => parseLine_dumpMutant_iff swift (h mutant hmutant)
    rw [ParsesBack, htext, parseMullBenchmark_toUTF8, split_dumpLines swift h, mapM_eq_ok_iff]
    constructor
    · intro hall
      exact ⟨hempty, fun mutant hmutant => (hlines mutant hmutant).mp (hall mutant hmutant)⟩
    · rintro ⟨-, hall⟩ mutant hmutant
      exact (hlines mutant hmutant).mpr (hall mutant hmutant)

section Example

/-- The clusters of texts without combining scalars. -/
def exampleJoins (cluster : Character) (c : Char) : Bool := cluster == ['\r'] && c == '\n'

theorem graphemes_exampleJoins : Graphemes exampleJoins (fun _ => false) (fun _ => false) where
  before_plain := by
    intro cluster c hplain
    have hc : c ≠ '\n' := by
      rintro rfl
      exact absurd hplain (by decide)
    simp [exampleJoins, hc]
  after_plain := by
    intro cluster p c hlast hplain
    have hcluster : cluster ≠ ['\r'] := by
      rintro rfl
      cases hlast
      exact absurd hplain (by decide)
    simp [exampleJoins, hcluster]
  before_newline := by
    intro cluster hjoin
    simpa [exampleJoins] using hjoin
  after_newline _ := rfl
  plain _ _ := ⟨rfl, rfl⟩

/-- A mutant of a file with a space in its path. -/
def spacedMutant : MullMutationPoint := ⟨"cxx_add_to_sub", ⟨"/src/a b.cpp", 3, 14⟩⟩

def plainMutant : MullMutationPoint := ⟨"cxx_lt_to_le", ⟨"/src/main.cpp", 120, 7⟩⟩

/-- A mutant of a file with a colon in its path. -/
def colonMutant : MullMutationPoint := ⟨"cxx_add_to_sub", ⟨"/src/a:b.cpp", 3, 14⟩⟩

theorem dumpable_of_plain {mutant : MullMutationPoint} (hne : mutant.mutator ≠ "")
    (hmutator : mutant.mutator.toList.all (fun c => !isWhitespaceScalar c) = true)
    (habsolute : mutant.location.filePath.toList.head? = some '/')
    (hpath : mutant.location.filePath.toList.all isPlain = true)
    (hline : mutant.location.line < 18446744073709551616)
    (hcolumn : mutant.location.column < 18446744073709551616) : Dumpable mutant where
  mutator_ne_empty := hne
  mutator_no_whitespace := by simpa using hmutator
  absolute := habsolute
  no_newline c hc := newline_of_isPlain (List.all_eq_true.mp hpath c hc)
  line_lt := hline
  column_lt := hcolumn

theorem dumpable_spacedMutant : Dumpable spacedMutant := by
  apply dumpable_of_plain <;> decide

theorem dumpable_colonMutant : Dumpable colonMutant := by
  apply dumpable_of_plain <;> decide

theorem dumpable_plainMutant : Dumpable plainMutant := by
  apply dumpable_of_plain <;> decide

theorem parsesBack_example : ParsesBack exampleJoins [spacedMutant, plainMutant] := by
  refine (parsesBack_iff graphemes_exampleJoins ?_).mpr ⟨by simp, ?_⟩
  · intro mutant hmutant
    rcases List.mem_pair.mp hmutant with rfl | rfl
    · exact dumpable_spacedMutant
    · exact dumpable_plainMutant
  · intro mutant hmutant
    rcases List.mem_pair.mp hmutant with rfl | rfl
    · exact ⟨fun _ _ => rfl, fun _ _ => rfl, fun _ _ => rfl, by decide⟩
    · exact ⟨fun _ _ => rfl, fun _ _ => rfl, fun _ _ => rfl, by decide⟩

/-- The empty list makes the parser throw, and a colon in a path makes it trap. -/
theorem not_parsesBack_example :
    parseMullBenchmark exampleJoins (dumpMutants []).toUTF8 = .error .invalidPrefix ∧
      Dumpable colonMutant ∧
      parseMullBenchmark exampleJoins (dumpMutants [colonMutant]).toUTF8 =
        .error .unwrappedNil ∧
      ¬ ParsesBack exampleJoins [] ∧ ¬ ParsesBack exampleJoins [colonMutant] := by
  have hempty : parseMullBenchmark exampleJoins (dumpMutants []).toUTF8 =
      .error .invalidPrefix := by
    rw [parseMullBenchmark_toUTF8]
    decide
  have hcolon : parseMullBenchmark exampleJoins (dumpMutants [colonMutant]).toUTF8 =
      .error .unwrappedNil := by
    rw [parseMullBenchmark_toUTF8]
    decide
  refine ⟨hempty, dumpable_colonMutant, hcolon, ?_, ?_⟩
  · rw [ParsesBack, hempty]
    exact nofun
  · rw [ParsesBack, hcolon]
    exact nofun

end Example

end MullXCTest.Benchmark
