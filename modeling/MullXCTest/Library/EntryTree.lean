import Mathlib.Logic.Function.Basic

/-!
# Nested dictionaries

Trees whose inner nodes are dictionaries, read and written along paths of keys. A write
makes the dictionaries that are missing on its way, and is seen on no other path. It
replaces a value in its way, so that paths matter on which there is none.
-/

universe u v

inductive EntryTree (κ : Type u) (α : Type v) : Type (max u v)
  | leaf (value : α)
  | dict (entries : κ → Option (EntryTree κ α))

namespace EntryTree

variable {κ : Type u} {α : Type v}

/-- The entries of what may be no dictionary. -/
def entries : Option (EntryTree κ α) → κ → Option (EntryTree κ α)
  | some (.dict entries) => entries
  | _ => fun _ => none

def find : List κ → Option (EntryTree κ α) → Option (EntryTree κ α)
  | [], tree => tree
  | key :: path, tree => find path (entries tree key)

/-- A path with nothing but dictionaries on it, as far as there is anything. -/
def Clear : List κ → Option (EntryTree κ α) → Prop
  | [], _ => True
  | _ :: _, none => True
  | _ :: _, some (.leaf _) => False
  | key :: path, some (.dict entries) => Clear path (entries key)

/-- A path to an entry that is missing from a dictionary that is there. -/
def Vacant (path : List κ) (tree : Option (EntryTree κ α)) : Prop :=
  ∃ before key entries, path = before ++ [key] ∧ find before tree = some (.dict entries) ∧
    entries key = none

section Update

variable [DecidableEq κ]

/-- Writes an entry. -/
def put (value : EntryTree κ α) : List κ → Option (EntryTree κ α) → EntryTree κ α
  | [], _ => value
  | key :: path, tree =>
      .dict (Function.update (entries tree) key (some (put value path (entries tree key))))

/-- Takes an entry away. -/
def erase : List κ → Option (EntryTree κ α) → Option (EntryTree κ α)
  | [], _ => none
  | key :: path, tree =>
      some (.dict (Function.update (entries tree) key (erase path (entries tree key))))

end Update

@[simp] theorem entries_some_dict (entries : κ → Option (EntryTree κ α)) :
    EntryTree.entries (some (.dict entries)) = entries := rfl

@[simp] theorem find_cons (key : κ) (path : List κ) (tree : Option (EntryTree κ α)) :
    find (key :: path) tree = find path (entries tree key) := rfl

@[simp] theorem find_none (path : List κ) : find path (none : Option (EntryTree κ α)) = none := by
  induction path with
  | nil => rfl
  | cons key path ih => exact ih

theorem find_append (path rest : List κ) (tree : Option (EntryTree κ α)) :
    find (path ++ rest) tree = find rest (find path tree) := by
  induction path generalizing tree with
  | nil => rfl
  | cons key path ih => exact ih _

theorem Vacant.find_eq {path : List κ} {tree : Option (EntryTree κ α)} (h : Vacant path tree) :
    find path tree = none := by
  obtain ⟨before, key, entries, rfl, hbefore, hkey⟩ := h
  rw [find_append, hbefore]
  exact hkey

@[simp] theorem clear_none (path : List κ) : Clear path (none : Option (EntryTree κ α)) := by
  cases path <;> trivial

/-- Behind the first key of a clear path there is nothing but dictionaries either. -/
theorem Clear.tail {key : κ} {path : List κ} {tree : Option (EntryTree κ α)}
    (h : Clear (key :: path) tree) : Clear path (entries tree key) := by
  cases tree with
  | none => exact clear_none path
  | some tree =>
      cases tree with
      | leaf value => exact h.elim
      | dict entries => exact h

/-- What is behind the first key of a clear path is there for every path. -/
theorem Clear.single {key other : κ} {path : List κ} {tree : Option (EntryTree κ α)}
    (h : Clear (key :: path) tree) : Clear [other] tree := by
  cases tree with
  | none => trivial
  | some tree =>
      cases tree with
      | leaf value => exact h.elim
      | dict entries => trivial

variable [DecidableEq κ]

/-- A write makes a path clear as far as the paths are the same, and beyond it where it was. -/
theorem clear_put_ne (value : EntryTree κ α) {key other : κ} (h : other ≠ key)
    {path rest : List κ} {tree : Option (EntryTree κ α)} (hclear : Clear (other :: rest) tree) :
    Clear (other :: rest) (some (put value (key :: path) tree)) := by
  change Clear rest (Function.update (entries tree) key _ other)
  rw [Function.update_of_ne h]
  exact hclear.tail

@[simp] theorem entries_put (value : EntryTree κ α) (key : κ) (path : List κ)
    (tree : Option (EntryTree κ α)) :
    entries (some (put value (key :: path) tree)) =
      Function.update (entries tree) key (some (put value path (entries tree key))) := rfl

@[simp] theorem entries_erase (key : κ) (path : List κ) (tree : Option (EntryTree κ α)) :
    entries (erase (key :: path) tree) =
      Function.update (entries tree) key (erase path (entries tree key)) := rfl

/-- What is written is found. -/
theorem find_put (value : EntryTree κ α) (path : List κ) (tree : Option (EntryTree κ α)) :
    find path (some (put value path tree)) = some value := by
  induction path generalizing tree with
  | nil => rfl
  | cons key path ih =>
      rw [find_cons, entries_put, Function.update_self]
      exact ih _

/-- Below another key nothing has changed. -/
theorem find_put_ne (value : EntryTree κ α) {key other : κ} (h : other ≠ key)
    (path rest : List κ) (tree : Option (EntryTree κ α)) :
    find (other :: rest) (some (put value (key :: path) tree)) = find (other :: rest) tree := by
  rw [find_cons, entries_put, Function.update_of_ne h, find_cons]

/-- Below the same key there is the tree with the rest of the path written. -/
theorem find_put_cons (value : EntryTree κ α) (key : κ) (path rest : List κ)
    (tree : Option (EntryTree κ α)) :
    find (key :: rest) (some (put value (key :: path) tree)) =
      find rest (some (put value path (find [key] tree))) := by
  rw [find_cons, entries_put, Function.update_self]
  rfl

/-- What is taken away is not found. -/
theorem find_erase (path : List κ) (tree : Option (EntryTree κ α)) :
    find path (erase path tree) = none := by
  induction path generalizing tree with
  | nil => rfl
  | cons key path ih =>
      rw [find_cons, entries_erase, Function.update_self]
      exact ih _

theorem find_erase_ne {key other : κ} (h : other ≠ key) (path rest : List κ)
    (tree : Option (EntryTree κ α)) :
    find (other :: rest) (erase (key :: path) tree) = find (other :: rest) tree := by
  rw [find_cons, entries_erase, Function.update_of_ne h, find_cons]

end EntryTree
