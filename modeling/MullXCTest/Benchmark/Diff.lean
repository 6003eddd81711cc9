import MullXCTest.Benchmark.Entity
import MullXCTest.Library.Decimal
import MullXCTest.Library.KeyedSets
import Mathlib.Data.List.Basic
import Mathlib.Tactic.SplitIfs

/-!
# The diff of two benchmarks

`diff` compares sets of mutation points, whose equality includes the column, and prints
descriptions, which leave it out. So it compares by mutator, file and line only as long as
the two tools agree on one column for each of these.
-/

namespace MullXCTest.Benchmark

open KeyedSets

inductive UniversalMutator
  | relationalOperatorReplacement
  | removeSideEffects
  | changeLogicalConnector
  deriving DecidableEq

def UniversalMutator.rawValue : UniversalMutator → String
  | .relationalOperatorReplacement => "RelationalOperatorReplacement"
  | .removeSideEffects => "RemoveSideEffects"
  | .changeLogicalConnector => "ChangeLogicalConnector"

structure MutationPoint where
  mutator : UniversalMutator
  location : SourceLocation
  deriving DecidableEq

def MutationPoint.description (point : MutationPoint) : String :=
  point.mutator.rawValue ++ ":" ++ point.location.description

/-- What `diff` prints. The order of a hash set is left open. -/
@[ext] structure DiffOutput where
  equals : Nat
  added : Multiset String
  deleted : Multiset String

def diff (lhs rhs : List MutationPoint) : DiffOutput :=
  let lhs := lhs.toFinset
  let rhs := rhs.toFinset
  let added := lhs \ rhs
  let deleted := rhs \ lhs
  { equals := (lhs ∩ rhs).card
    added := (added.val.map MutationPoint.description).map ("+" ++ ·)
    deleted := (deleted.val.map MutationPoint.description).map ("-" ++ ·) }

/-- What muter and mull should agree on. -/
structure Key where
  mutator : UniversalMutator
  filePath : String
  line : Nat
  deriving DecidableEq

namespace Key

def description (key : Key) : String :=
  key.mutator.rawValue ++ ":" ++ (key.filePath ++ ":" ++ key.line.repr)

end Key

def MutationPoint.key (point : MutationPoint) : Key :=
  ⟨point.mutator, point.location.filePath, point.location.line⟩

/-- The distinct keys of some points. -/
def keys (points : List MutationPoint) : Finset Key := (points.map MutationPoint.key).toFinset

/-- The points of one key have one column. -/
def OneColumn (lhs rhs : List MutationPoint) : Prop :=
  ∀ p ∈ lhs ++ rhs, ∀ q ∈ lhs ++ rhs, p.key = q.key → p.location.column = q.location.column

/-- The output is about the keys: how many are shared, and which are on one side alone, each
once and none of them on both sides. -/
structure ComparesKeys (lhs rhs : List MutationPoint) : Prop where
  equals : (diff lhs rhs).equals = (keys lhs ∩ keys rhs).card
  added : (diff lhs rhs).added =
    (keys lhs \ keys rhs).val.map fun key => "+" ++ key.description
  deleted : (diff lhs rhs).deleted =
    (keys rhs \ keys lhs).val.map fun key => "-" ++ key.description
  not_both : ∀ key : Key,
    ¬ ("+" ++ key.description ∈ (diff lhs rhs).added ∧
      "-" ++ key.description ∈ (diff lhs rhs).deleted)

section Description

/-- Two cuts of a text at the last occurrence of a character are the same. -/
theorem append_cons_cancel {c : Char} {front front' back back' : List Char} (h : c ∉ back)
    (h' : c ∉ back') (heq : front ++ c :: back = front' ++ c :: back') :
    front = front' ∧ back = back' := by
  rcases List.append_eq_append_iff.mp heq with ⟨t, rfl, ht⟩ | ⟨t, rfl, ht⟩
  · cases t with
    | nil => simpa using ht
    | cons d t =>
        obtain ⟨-, rfl⟩ := List.cons.inj ht
        exact absurd (List.mem_append_right t List.mem_cons_self) h
  · cases t with
    | nil => simpa [eq_comm] using ht
    | cons d t =>
        obtain ⟨-, rfl⟩ := List.cons.inj ht
        exact absurd (List.mem_append_right t List.mem_cons_self) h'

/-- The names of the mutators end before the first colon. -/
theorem rawValue_cancel {mutator mutator' : UniversalMutator} {back back' : List Char}
    (h : mutator.rawValue.toList ++ ':' :: back = mutator'.rawValue.toList ++ ':' :: back') :
    mutator = mutator' ∧ back = back' := by
  have hname : ∀ (m : UniversalMutator) (back : List Char),
      (m.rawValue.toList ++ ':' :: back).takeWhile (· ≠ ':') = m.rawValue.toList := by
    intro m back
    have hcolon : m.rawValue.toList.all (fun c => decide (c ≠ ':')) = true := by
      cases m <;> decide
    rw [List.takeWhile_append_of_pos (List.all_eq_true.mp hcolon)]
    simp
  have hraw : mutator.rawValue.toList = mutator'.rawValue.toList := by
    rw [← hname mutator back, h, hname]
  have heq : mutator = mutator' := by
    cases mutator <;> cases mutator' <;> first | rfl | exact absurd hraw (by decide)
  subst heq
  exact ⟨rfl, (List.cons.inj (List.append_cancel_left h)).2⟩

theorem Key.description_toList (key : Key) :
    key.description.toList = key.mutator.rawValue.toList ++
      ':' :: (key.filePath.toList ++ ':' :: key.line.repr.toList) := by
  simp [Key.description]

/-- A printed line tells the key. -/
theorem Key.description_injective : Function.Injective Key.description := by
  intro key key' h
  have hlist := congrArg String.toList h
  rw [key.description_toList, key'.description_toList] at hlist
  obtain ⟨hmutator, hlocation⟩ := rawValue_cancel hlist
  have hcolon := Decimal.notMem_repr (c := ':') rfl
  obtain ⟨hfile, hline⟩ := append_cons_cancel (hcolon _) (hcolon _) hlocation
  cases key
  cases key'
  simp only at hmutator hfile hline
  rw [hmutator, String.toList_inj.mp hfile,
    Decimal.repr_injective (String.toList_inj.mp hline)]

end Description

section Comparison

variable {lhs rhs : List MutationPoint}

theorem keys_eq (points : List MutationPoint) :
    keys points = points.toFinset.image MutationPoint.key := by
  ext key
  simp [keys]

/-- A point is its key and its column. -/
theorem oneColumn_iff_injOn :
    OneColumn lhs rhs ↔ Set.InjOn MutationPoint.key ↑(lhs.toFinset ∪ rhs.toFinset) := by
  have hmem : ∀ p, p ∈ (↑(lhs.toFinset ∪ rhs.toFinset) : Set MutationPoint) ↔
      p ∈ lhs ++ rhs := by simp
  constructor
  · intro one p hp q hq hkey
    have hcolumn := one p ((hmem p).mp hp) q ((hmem q).mp hq) hkey
    obtain ⟨_, ⟨_, _, _⟩⟩ := p
    obtain ⟨_, ⟨_, _, _⟩⟩ := q
    simp_all [MutationPoint.key]
  · intro inj p hp q hq hkey
    rw [inj ((hmem p).mpr hp) ((hmem q).mpr hq) hkey]

theorem line_injective (sign : String) :
    Function.Injective fun key : Key => sign ++ key.description := by
  intro key key' h
  apply Key.description_injective
  exact (String.append_right_inj sign).mp h

/-- The lines for some points are the lines for their keys. -/
theorem lines_eq_iff (sign : String) (points : Finset MutationPoint) (ks : Finset Key) :
    (points.val.map MutationPoint.description).map (sign ++ ·) =
        ks.val.map (fun key => sign ++ key.description) ↔
      points.val.map MutationPoint.key = ks.val := by
  have hlines : (points.val.map MutationPoint.description).map (sign ++ ·) =
      (points.val.map MutationPoint.key).map fun key => sign ++ key.description := by
    rw [Multiset.map_map, Multiset.map_map]
    rfl
  rw [hlines]
  exact (Multiset.map_injective (line_injective sign)).eq_iff

/-- The output is right where the sets compare in the same way by members and by keys. -/
theorem comparesKeys_iff_sameComparison :
    ComparesKeys lhs rhs ↔ SameComparison MutationPoint.key lhs.toFinset rhs.toFinset := by
  constructor
  · intro compares
    refine ⟨?_, ?_, ?_⟩
    · rw [← keys_eq, ← keys_eq]
      exact compares.equals
    · rw [← keys_eq, ← keys_eq]
      exact (lines_eq_iff "+" _ _).mp compares.added
    · rw [← keys_eq, ← keys_eq]
      exact (lines_eq_iff "-" _ _).mp compares.deleted
  · rintro ⟨hshared, hleft, hright⟩
    rw [← keys_eq, ← keys_eq] at hshared hleft hright
    have hadded := (lines_eq_iff "+" _ _).mpr hleft
    have hdeleted := (lines_eq_iff "-" _ _).mpr hright
    refine ⟨hshared, hadded, hdeleted, ?_⟩
    rintro key ⟨hplus, hminus⟩
    have hl : key ∈ keys lhs \ keys rhs := by
      rw [show (diff lhs rhs).added = _ from hadded] at hplus
      exact (Multiset.mem_map_of_injective (line_injective "+")).mp hplus
    have hr : key ∈ keys rhs \ keys lhs := by
      rw [show (diff lhs rhs).deleted = _ from hdeleted] at hminus
      exact (Multiset.mem_map_of_injective (line_injective "-")).mp hminus
    exact (Finset.mem_sdiff.mp hr).2 (Finset.mem_sdiff.mp hl).1

theorem comparesKeys_iff : ComparesKeys lhs rhs ↔ OneColumn lhs rhs := by
  rw [comparesKeys_iff_sameComparison, sameComparison_iff, oneColumn_iff_injOn]

end Comparison

/-- **The diff compares by mutator, file and line** exactly when the points of the two lists
that agree in these have one column. Among such lists a change of columns changes nothing. -/
theorem diff_comparesKeys_iff (lhs rhs : List MutationPoint) :
    (ComparesKeys lhs rhs ↔ OneColumn lhs rhs) ∧
    ∀ lhs' rhs' : List MutationPoint, OneColumn lhs rhs → OneColumn lhs' rhs' →
      lhs'.map MutationPoint.key = lhs.map MutationPoint.key →
        rhs'.map MutationPoint.key = rhs.map MutationPoint.key →
          diff lhs' rhs' = diff lhs rhs := by
  refine ⟨comparesKeys_iff, ?_⟩
  intro lhs' rhs' hone hone' hlhs hrhs
  have compares := comparesKeys_iff.mpr hone
  have compares' := comparesKeys_iff.mpr hone'
  have hl : keys lhs' = keys lhs := congrArg List.toFinset hlhs
  have hr : keys rhs' = keys rhs := congrArg List.toFinset hrhs
  apply DiffOutput.ext
  · rw [compares'.equals, compares.equals, hl, hr]
  · rw [compares'.added, compares.added, hl, hr]
  · rw [compares'.deleted, compares.deleted, hl, hr]

/-- One mutation point that the tools report in columns 5 and 7. -/
theorem not_comparesKeys_example :
    ¬ ∀ lhs rhs : List MutationPoint, ComparesKeys lhs rhs := by
  intro compares
  have hequals := (compares [⟨.removeSideEffects, ⟨"/Sources/a.swift", 3, 5⟩⟩]
    [⟨.removeSideEffects, ⟨"/Sources/a.swift", 3, 7⟩⟩]).equals
  exact absurd hequals (by decide)

end MullXCTest.Benchmark
