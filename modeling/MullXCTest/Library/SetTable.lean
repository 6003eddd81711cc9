import Mathlib.Data.List.AList
import Mathlib.Data.Finset.Insert

/-!
# Tables of sets with default entries

A table whose entries are sets, read and written through a subscript that inserts
the empty set for a missing key. What a key stands for is changed by additions
only, not by the entries that subscripts insert.
-/

/-- A table of sets. -/
abbrev SetTable (κ α : Type*) := AList fun _ : κ => Finset α

namespace SetTable

variable {κ α : Type*} [DecidableEq κ]

/-- The set of a key; a missing key stands for the empty set. -/
def get (table : SetTable κ α) (key : κ) : Finset α :=
  (table.lookup key).getD ∅

/-- The set of a key, which has an entry afterwards. -/
def subscript (table : SetTable κ α) (key : κ) : Finset α × SetTable κ α :=
  match table.lookup key with
  | some present => (present, table)
  | none => (∅, table.insert key ∅)

@[simp]
theorem get_empty (key : κ) : get (∅ : SetTable κ α) key = ∅ := rfl

@[simp]
theorem subscript_fst (table : SetTable κ α) (key : κ) :
    (subscript table key).1 = get table key := by
  unfold subscript get
  cases table.lookup key <;> rfl

/-- A subscript changes what no key stands for. -/
@[simp]
theorem get_subscript (table : SetTable κ α) (key key' : κ) :
    get (subscript table key).2 key' = get table key' := by
  unfold subscript
  cases h : table.lookup key with
  | some present => rfl
  | none =>
      by_cases hkey : key' = key
      · subst hkey
        simp [get, h]
      · simp [get, AList.lookup_insert_ne hkey]

variable [DecidableEq α]

/-- An insertion into the set of a key. -/
def add (table : SetTable κ α) (key : κ) (a : α) : SetTable κ α :=
  (subscript table key).2.insert key (insert a (subscript table key).1)

theorem mem_get_add {table : SetTable κ α} {key key' : κ} {a a' : α} :
    a' ∈ get (add table key a) key' ↔ a' ∈ get table key' ∨ key' = key ∧ a' = a := by
  by_cases hkey : key' = key
  · subst hkey
    simp [get, add, or_comm]
  · have hget : get (add table key a) key' = get table key' := by
      rw [← get_subscript table key key']
      simp [get, add, AList.lookup_insert_ne hkey]
    simp [hget, hkey]

end SetTable
