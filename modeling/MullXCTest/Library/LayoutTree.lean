import Mathlib.Data.List.Basic
import Mathlib.Data.List.Pairwise

/-!
# Trees laid out on a line

The leaves of a tree stand one behind the other, each with a width. A walk that
visits the children of a node before the node itself comes to every node with its
offset and its ancestors, and to nothing else; the leaves keep apart.
-/

namespace LayoutTree

variable {α β γ : Type*}

inductive Tree (α β : Type*)
  | leaf (a : α)
  | node (label : β) (children : List (Tree α β))

/-- A node with its offset and its ancestors, the parent first. -/
structure Visit (α β : Type*) where
  node : Tree α β
  offset : Nat
  ancestors : List (Tree α β)

section Definitions

variable (width : α → Nat)

mutual
/-- The width of all leaves of a tree together. -/
def extent : Tree α β → Nat
  | .leaf a => width a
  | .node _ children => extents children

def extents : List (Tree α β) → Nat
  | [] => 0
  | t :: rest => extent t + extents rest
end

mutual
/-- The visits of a walk, the children of a node before the node. -/
def walk (offset : Nat) (ancestors : List (Tree α β)) : Tree α β → List (Visit α β)
  | .leaf a => [⟨.leaf a, offset, ancestors⟩]
  | .node label children =>
      walkAll offset (.node label children :: ancestors) children ++
        [⟨.node label children, offset, ancestors⟩]

def walkAll (offset : Nat) (ancestors : List (Tree α β)) : List (Tree α β) → List (Visit α β)
  | [] => []
  | t :: rest => walk offset ancestors t ++ walkAll (offset + extent width t) ancestors rest
end

/-- A node with these ancestors at an offset. -/
inductive Occurs (root : Tree α β) : List (Tree α β) → Tree α β → Nat → Prop
  | root : Occurs root [] root 0
  | child (before after : List (Tree α β)) {ancestors : List (Tree α β)} {label : β}
      {t : Tree α β} {offset : Nat}
      (parent : Occurs root ancestors (.node label (before ++ t :: after)) offset) :
      Occurs root (.node label (before ++ t :: after) :: ancestors) t
        (offset + extents width before)

end Definitions

mutual
/-- The first leaf of a tree. -/
def firstLeaf? : Tree α β → Option α
  | .leaf a => some a
  | .node _ children => firstLeafOf? children

def firstLeafOf? : List (Tree α β) → Option α
  | [] => none
  | t :: rest => firstLeaf? t <|> firstLeafOf? rest
end

mutual
/-- Other leaves in the same places. -/
def map (f : α → γ) : Tree α β → Tree γ β
  | .leaf a => .leaf (f a)
  | .node label children => .node label (mapAll f children)

def mapAll (f : α → γ) : List (Tree α β) → List (Tree γ β)
  | [] => []
  | t :: rest => map f t :: mapAll f rest
end

section Walk

variable {width : α → Nat}

theorem extents_append (before after : List (Tree α β)) :
    extents width (before ++ after) = extents width before + extents width after := by
  induction before with
  | nil => simp [extents]
  | cons t rest ih => simp [extents, ih, Nat.add_assoc]

theorem walkAll_append (offset : Nat) (ancestors before after : List (Tree α β)) :
    walkAll width offset ancestors (before ++ after) =
      walkAll width offset ancestors before ++
        walkAll width (offset + extents width before) ancestors after := by
  induction before generalizing offset with
  | nil => simp [walkAll, extents]
  | cons t rest ih => simp [walkAll, extents, ih, Nat.add_assoc]

theorem mem_walk_self (offset : Nat) (ancestors : List (Tree α β)) (t : Tree α β) :
    ⟨t, offset, ancestors⟩ ∈ walk width offset ancestors t := by
  cases t <;> simp [walk]

mutual
/-- A walk comes to occurrences only. -/
theorem occurs_of_mem_walk {root : Tree α β} {ancestors : List (Tree α β)} {offset : Nat}
    {v : Visit α β} :
    ∀ {t : Tree α β}, Occurs width root ancestors t offset → v ∈ walk width offset ancestors t →
      Occurs width root v.ancestors v.node v.offset
  | .leaf a, h, hv => by
      obtain rfl := List.mem_singleton.mp hv
      exact h
  | .node label children, h, hv => by
      rw [walk, List.mem_append, List.mem_singleton] at hv
      rcases hv with hv | rfl
      · exact occurs_of_mem_walkAll [] children h (by simpa [extents] using hv)
      · exact h

theorem occurs_of_mem_walkAll {root : Tree α β} {ancestors : List (Tree α β)} {offset : Nat}
    {label : β} {v : Visit α β} :
    ∀ before rest : List (Tree α β),
      Occurs width root ancestors (.node label (before ++ rest)) offset →
      v ∈ walkAll width (offset + extents width before)
          (.node label (before ++ rest) :: ancestors) rest →
      Occurs width root v.ancestors v.node v.offset
  | before, [], h, hv => by simp [walkAll] at hv
  | before, t :: rest, h, hv => by
      rw [walkAll, List.mem_append] at hv
      rcases hv with hv | hv
      · exact occurs_of_mem_walk (.child before rest h) hv
      · refine occurs_of_mem_walkAll (before ++ [t]) rest (by simpa using h) ?_
        simpa [extents_append, extents, Nat.add_assoc] using hv
end

mutual
/-- The walk of a visited node is part of the walk. -/
theorem walk_subset {v : Visit α β} :
    ∀ {t : Tree α β} {offset : Nat} {ancestors : List (Tree α β)},
      v ∈ walk width offset ancestors t →
      walk width v.offset v.ancestors v.node ⊆ walk width offset ancestors t
  | .leaf a, offset, ancestors, hv => by
      obtain rfl := List.mem_singleton.mp hv
      exact fun w hw => hw
  | .node label children, offset, ancestors, hv => by
      rw [walk, List.mem_append, List.mem_singleton] at hv
      rcases hv with hv | rfl
      · rw [walk]
        exact fun w hw => List.mem_append_left _ (walkAll_subset hv hw)
      · exact fun w hw => hw

theorem walkAll_subset {v : Visit α β} :
    ∀ {ts : List (Tree α β)} {offset : Nat} {ancestors : List (Tree α β)},
      v ∈ walkAll width offset ancestors ts →
      walk width v.offset v.ancestors v.node ⊆ walkAll width offset ancestors ts
  | [], offset, ancestors, hv => by simp [walkAll] at hv
  | t :: rest, offset, ancestors, hv => by
      rw [walkAll, List.mem_append] at hv
      rw [walkAll]
      rcases hv with hv | hv
      · exact fun w hw => List.mem_append_left _ (walk_subset hv hw)
      · exact fun w hw => List.mem_append_right _ (walkAll_subset hv hw)
end

theorem mem_walk_of_occurs {root t : Tree α β} {ancestors : List (Tree α β)} {offset : Nat}
    (h : Occurs width root ancestors t offset) :
    ⟨t, offset, ancestors⟩ ∈ walk width 0 [] root := by
  induction h with
  | root => exact mem_walk_self 0 [] root
  | child before after parent ih =>
      refine walk_subset ih ?_
      rw [walk, walkAll_append, walkAll]
      apply List.mem_append_left
      apply List.mem_append_right
      exact List.mem_append_left _ (mem_walk_self _ _ _)

/-- A walk visits exactly what occurs in the tree. -/
theorem mem_walk_iff {root : Tree α β} {v : Visit α β} :
    v ∈ walk width 0 [] root ↔ Occurs width root v.ancestors v.node v.offset :=
  ⟨occurs_of_mem_walk .root, mem_walk_of_occurs⟩

theorem Occurs.le {root t : Tree α β} {ancestors : List (Tree α β)} {offset : Nat}
    (h : Occurs width root ancestors t offset) :
    offset + extent width t ≤ extent width root := by
  induction h with
  | root => simp
  | child before after parent ih =>
      refine Nat.le_trans ?_ ih
      simp only [extent, extents_append, extents]
      omega

mutual
theorem firstLeaf?_le {a : α} :
    ∀ {t : Tree α β}, firstLeaf? t = some a → width a ≤ extent width t
  | .leaf b, h => by
      obtain rfl := Option.some.inj h
      exact Nat.le_refl _
  | .node label children, h => firstLeafOf?_le (show firstLeafOf? children = some a from h)

theorem firstLeafOf?_le {a : α} :
    ∀ {ts : List (Tree α β)}, firstLeafOf? ts = some a → width a ≤ extents width ts
  | [], h => by cases h
  | t :: rest, h => by
      rw [firstLeafOf?] at h
      rw [extents]
      cases ht : firstLeaf? t with
      | some b =>
          obtain rfl : b = a := by simpa [ht] using h
          calc
            width b ≤ extent width t := firstLeaf?_le ht
            _ ≤ extent width t + extents width rest := Nat.le_add_right _ _
      | none =>
          have hrest : firstLeafOf? rest = some a := by simpa [ht] using h
          calc
            width a ≤ extents width rest := firstLeafOf?_le hrest
            _ ≤ extent width t + extents width rest := Nat.le_add_left _ _
end

mutual
/-- The visits of a walk lie between the ends of the tree. -/
theorem bounds_of_mem_walk {v : Visit α β} :
    ∀ {t : Tree α β} {offset : Nat} {ancestors : List (Tree α β)},
      v ∈ walk width offset ancestors t →
      offset ≤ v.offset ∧ v.offset + extent width v.node ≤ offset + extent width t
  | .leaf a, offset, ancestors, hv => by
      obtain rfl := List.mem_singleton.mp hv
      exact ⟨Nat.le_refl _, Nat.le_refl _⟩
  | .node label children, offset, ancestors, hv => by
      rw [walk, List.mem_append, List.mem_singleton] at hv
      rcases hv with hv | rfl
      · rw [extent]
        exact bounds_of_mem_walkAll hv
      · exact ⟨Nat.le_refl _, Nat.le_refl _⟩

theorem bounds_of_mem_walkAll {v : Visit α β} :
    ∀ {ts : List (Tree α β)} {offset : Nat} {ancestors : List (Tree α β)},
      v ∈ walkAll width offset ancestors ts →
      offset ≤ v.offset ∧ v.offset + extent width v.node ≤ offset + extents width ts
  | [], offset, ancestors, hv => by simp [walkAll] at hv
  | t :: rest, offset, ancestors, hv => by
      rw [walkAll, List.mem_append] at hv
      rw [extents]
      rcases hv with hv | hv
      · have hbounds := bounds_of_mem_walk hv
        omega
      · have hbounds := bounds_of_mem_walkAll hv
        omega
end

/-- Two visits are not those of overlapping leaves. -/
def Apart (width : α → Nat) (v w : Visit α β) : Prop :=
  ∀ a b, v.node = .leaf a → w.node = .leaf b →
    v.offset + width a ≤ w.offset ∨ w.offset + width b ≤ v.offset

instance : Std.Symm (@Apart α β width) where
  symm _ _ h a b hv hw := (h b a hw hv).symm

mutual
/-- The leaves that a walk comes to keep apart. -/
theorem pairwise_walk :
    ∀ (t : Tree α β) (offset : Nat) (ancestors : List (Tree α β)),
      (walk width offset ancestors t).Pairwise (Apart width)
  | .leaf a, offset, ancestors => List.pairwise_singleton _ _
  | .node label children, offset, ancestors => by
      rw [walk, List.pairwise_append]
      refine ⟨pairwise_walkAll children offset _, List.pairwise_singleton _ _, ?_⟩
      intro v _ w hw a b _ hleaf
      rw [List.mem_singleton.mp hw] at hleaf
      cases hleaf

theorem pairwise_walkAll :
    ∀ (ts : List (Tree α β)) (offset : Nat) (ancestors : List (Tree α β)),
      (walkAll width offset ancestors ts).Pairwise (Apart width)
  | [], offset, ancestors => List.Pairwise.nil
  | t :: rest, offset, ancestors => by
      rw [walkAll, List.pairwise_append]
      refine ⟨pairwise_walk t offset ancestors, pairwise_walkAll rest _ ancestors, ?_⟩
      intro v hv w hw a b hva hwb
      have hbefore := (bounds_of_mem_walk hv).2
      have hafter := (bounds_of_mem_walkAll hw).1
      rw [hva, extent] at hbefore
      exact Or.inl (Nat.le_trans hbefore hafter)
end

/-- No position belongs to two leaves. -/
theorem Occurs.leaf_unique {root : Tree α β} {ancestors ancestors' : List (Tree α β)} {a a' : α}
    {offset offset' i i' : Nat} (h : Occurs width root ancestors (.leaf a) offset)
    (h' : Occurs width root ancestors' (.leaf a') offset') (hi : i < width a)
    (hi' : i' < width a') (heq : offset + i = offset' + i') :
    a = a' ∧ ancestors = ancestors' := by
  by_cases heq' : (⟨.leaf a, offset, ancestors⟩ : Visit α β) = ⟨.leaf a', offset', ancestors'⟩
  · obtain ⟨hleaf, -, hancestors⟩ := Visit.mk.inj heq'
    exact ⟨Tree.leaf.inj hleaf, hancestors⟩
  · have hapart := (pairwise_walk root 0 []).forall (mem_walk_of_occurs h) (mem_walk_of_occurs h')
      heq' a a' rfl rfl
    simp only at hapart
    omega

theorem mapAll_eq (f : α → γ) (ts : List (Tree α β)) : mapAll f ts = ts.map (map f) := by
  induction ts with
  | nil => rfl
  | cons t rest ih => rw [mapAll, ih, List.map_cons]

mutual
/-- Other leaves do not change what a walk visits. -/
theorem walk_map (width : α → Nat) (width' : γ → Nat) (f : α → γ) :
    ∀ (t : Tree α β) (offset offset' : Nat) (ancestors : List (Tree α β)),
      (walk width' offset' (ancestors.map (map f)) (map f t)).map
          (fun v => (v.node, v.ancestors)) =
        (walk width offset ancestors t).map
          fun v => (map f v.node, v.ancestors.map (map f))
  | .leaf a, offset, offset', ancestors => rfl
  | .node label children, offset, offset', ancestors => by
      rw [map, walk, walk, List.map_append, List.map_append]
      have hchildren := walkAll_map width width' f children offset offset'
        (.node label children :: ancestors)
      rw [List.map_cons, map] at hchildren
      rw [hchildren]
      rfl

theorem walkAll_map (width : α → Nat) (width' : γ → Nat) (f : α → γ) :
    ∀ (ts : List (Tree α β)) (offset offset' : Nat) (ancestors : List (Tree α β)),
      (walkAll width' offset' (ancestors.map (map f)) (mapAll f ts)).map
          (fun v => (v.node, v.ancestors)) =
        (walkAll width offset ancestors ts).map
          fun v => (map f v.node, v.ancestors.map (map f))
  | [], offset, offset', ancestors => rfl
  | t :: rest, offset, offset', ancestors => by
      rw [mapAll, walkAll, walkAll, List.map_append, List.map_append,
        walk_map width width' f t offset offset' ancestors,
        walkAll_map width width' f rest _ _ ancestors]
end

end Walk

end LayoutTree
