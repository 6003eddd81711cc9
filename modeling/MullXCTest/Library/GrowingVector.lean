import Mathlib.Data.List.Basic

/-!
# Growing vectors and references into them

A vector keeps its elements in one allocation of a certain capacity. An element
appended to a full vector moves all of them to a new allocation, and a reference
into an earlier allocation dangles from then on.
-/

namespace GrowingVector

variable {γ : Type*}

/-- A reference to an element: the allocation it points into, and the position there. -/
structure Reference where
  allocation : Nat
  index : Nat
  deriving DecidableEq

/-- Allocations are numbered in the order in which the vector takes them. -/
structure Vec (γ : Type*) where
  allocation : Nat
  capacity : Nat
  elements : List γ
  fits : elements.length ≤ capacity

namespace Vec

/-- A vector without elements, which owns no memory yet. -/
def empty : Vec γ where
  allocation := 0
  capacity := 0
  elements := []
  fits := Nat.le_refl 0

/-- Room for `n` elements, in a new allocation unless there already is enough. -/
def reserve (v : Vec γ) (n : Nat) : Vec γ :=
  if h : n ≤ v.capacity then v
  else ⟨v.allocation + 1, n, v.elements, Nat.le_trans v.fits (Nat.le_of_not_ge h)⟩

/-- How much room a full vector gets beyond the new element is at the choice of `spare`. -/
def pushBack (spare : Nat → Nat) (v : Vec γ) (x : γ) : Vec γ :=
  if h : v.elements.length < v.capacity then
    ⟨v.allocation, v.capacity, v.elements ++ [x], List.length_append ▸ h⟩
  else
    ⟨v.allocation + 1, v.elements.length + 1 + spare v.capacity, v.elements ++ [x],
      List.length_append ▸ Nat.le_add_right _ _⟩

/-- A reference to the last element. -/
def back (v : Vec γ) : Reference :=
  ⟨v.allocation, v.elements.length - 1⟩

/-- The reference points to an element of the vector, not to memory that was given back. -/
def Valid (v : Vec γ) (r : Reference) : Prop :=
  r.allocation = v.allocation ∧ r.index < v.elements.length

instance (v : Vec γ) (r : Reference) : Decidable (v.Valid r) :=
  inferInstanceAs (Decidable (_ ∧ _))

/-- What a reference refers to. -/
def read (v : Vec γ) (r : Reference) : Option γ :=
  if r.allocation = v.allocation then v.elements[r.index]? else none

/-- A write through a reference. -/
def modify (v : Vec γ) (r : Reference) (f : γ → γ) : Option (Vec γ) :=
  if v.Valid r then
    some ⟨v.allocation, v.capacity, v.elements.modify r.index f,
      Nat.le_trans (Nat.le_of_eq (List.length_modify f v.elements r.index)) v.fits⟩
  else none

variable {v w : Vec γ} {r : Reference} {f : γ → γ} {x : γ} {spare : Nat → Nat}

@[simp] theorem elements_pushBack : (v.pushBack spare x).elements = v.elements ++ [x] := by
  unfold pushBack
  split <;> rfl

@[simp] theorem elements_reserve (n : Nat) : (v.reserve n).elements = v.elements := by
  unfold reserve
  split <;> rfl

theorem capacity_reserve (n : Nat) : n ≤ (v.reserve n).capacity := by
  unfold reserve
  split
  · assumption
  · exact Nat.le_refl n

/-- As long as there is room, an element is appended in place. -/
theorem pushBack_of_room (spare : Nat → Nat) (x : γ)
    (room : v.elements.length < v.capacity) :
    (v.pushBack spare x).allocation = v.allocation ∧
      (v.pushBack spare x).capacity = v.capacity := by
  unfold pushBack
  rw [dif_pos room]
  exact ⟨rfl, rfl⟩

theorem valid_iff_read : v.Valid r ↔ ∃ x, v.read r = some x := by
  unfold Valid read
  by_cases h : r.allocation = v.allocation
  · simp [h, List.getElem?_eq_some_iff]
  · simp [h]

theorem modify_eq_some_iff :
    v.modify r f = some w ↔
      v.Valid r ∧ w.allocation = v.allocation ∧ w.capacity = v.capacity ∧
        w.elements = v.elements.modify r.index f := by
  unfold modify
  split
  next h =>
      obtain ⟨allocation, capacity, elements, fits⟩ := w
      simp only [Option.some.injEq, Vec.mk.injEq, h, true_and]
      constructor
      · rintro ⟨rfl, rfl, rfl⟩
        exact ⟨rfl, rfl, rfl⟩
      · rintro ⟨rfl, rfl, rfl⟩
        exact ⟨rfl, rfl, rfl⟩
  next h => simp [h]

theorem exists_modify (h : v.Valid r) (f : γ → γ) : ∃ w, v.modify r f = some w := by
  rw [modify, if_pos h]
  exact ⟨_, rfl⟩

theorem read_back : v.read v.back = v.elements[v.elements.length - 1]? :=
  if_pos rfl

/-- An append in place leaves every reference to what it referred to. -/
theorem read_pushBack_of_room (room : v.elements.length < v.capacity) (valid : v.Valid r) :
    (v.pushBack spare x).read r = v.read r := by
  simp [read, (pushBack_of_room spare x room).1, List.getElem?_append_left valid.2]

theorem read_modify (h : v.modify r f = some w) : w.read r = (v.read r).map f := by
  obtain ⟨valid, hallocation, -, helements⟩ := modify_eq_some_iff.mp h
  simp [read, hallocation, helements, valid.1]

/-- A write through one reference is not seen through a reference to another element. -/
theorem read_modify_ne {r' : Reference} (h : v.modify r f = some w) (hne : r.index ≠ r'.index) :
    w.read r' = v.read r' := by
  obtain ⟨-, hallocation, -, helements⟩ := modify_eq_some_iff.mp h
  simp [read, hallocation, helements, List.getElem?_modify_ne _ _ hne]

end Vec

end GrowingVector
