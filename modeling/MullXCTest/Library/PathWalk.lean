import Mathlib.Data.List.DropRight
import Mathlib.Data.List.TakeWhile

/-!
# What a path denotes

A path is walked from the root if a separator is its first element, and from the current
directory otherwise, one component at a time. Separators that follow each other count as
one, and separators at the end do not count.
-/

namespace PathWalk

variable {α : Type*} [DecidableEq α] (sep : α)

/-- The components of a path, without the empty ones. -/
def components (path : List α) : List (List α) :=
  (path.splitOn sep).filter fun name => !name.isEmpty

def IsAbsolute (path : List α) : Prop := path.head? = some sep

instance (path : List α) : Decidable (IsAbsolute sep path) :=
  inferInstanceAs (Decidable (path.head? = some sep))

/-- A file system, as far as a path is looked up in it. -/
structure Walk (α Node : Type*) where
  root : Node
  cwd : Node
  step : Node → List α → Option Node

namespace Walk

variable {Node : Type*} (walk : Walk α Node)

/-- Where the walk along a path begins. -/
def start (path : List α) : Node := if IsAbsolute sep path then walk.root else walk.cwd

/-- The walk along some components. -/
def descend (node : Node) (names : List (List α)) : Option Node := names.foldlM walk.step node

/-- The file that a path denotes, and nothing if there is none. -/
def denote (path : List α) : Option Node :=
  walk.descend (walk.start sep path) (components sep path)

/-- The directory that contains the file of a path. -/
def containingDirectory (path : List α) : Option Node :=
  walk.descend (walk.start sep path) (components sep path).dropLast

end Walk

section Components

variable {sep}

@[simp] theorem components_nil : components sep ([] : List α) = [] := by simp [components]

/-- A separator stands between components. -/
@[simp] theorem components_append_cons (path rest : List α) :
    components sep (path ++ sep :: rest) = components sep path ++ components sep rest := by
  rw [components, List.splitOn_append_cons_self, List.filter_append]
  rfl

@[simp] theorem components_cons_sep (rest : List α) :
    components sep (sep :: rest) = components sep rest := by
  simpa using @components_append_cons _ _ sep [] rest

/-- Without a separator there is one component. -/
theorem components_of_notMem {name : List α} (hne : name ≠ []) (h : sep ∉ name) :
    components sep name = [name] := by
  simp [components, List.splitOn_eq_singleton h, hne]

/-- Separators at the end do not count. -/
@[simp] theorem components_append_replicate (path : List α) (k : Nat) :
    components sep (path ++ List.replicate k sep) = components sep path := by
  induction k generalizing path with
  | zero => simp
  | succ k ih =>
      rw [List.replicate_succ, components_append_cons]
      have hseps := ih []
      rw [List.nil_append, components_nil] at hseps
      rw [hseps, List.append_nil]

/-- Separators at the begin do not count either. -/
theorem components_dropWhile (path : List α) :
    components sep (path.dropWhile (· = sep)) = components sep path := by
  induction path with
  | nil => rfl
  | cons a rest ih =>
      by_cases ha : a = sep
      · subst ha
        rw [List.dropWhile_cons_of_pos (by simp), ih, components_cons_sep]
      · rw [List.dropWhile_cons_of_neg (by simpa using ha)]

theorem components_rdropWhile (path : List α) :
    components sep (path.rdropWhile (· = sep)) = components sep path := by
  induction path using List.reverseRecOn with
  | nil => rfl
  | append_singleton path a ih =>
      by_cases ha : a = sep
      · subst ha
        rw [List.rdropWhile_concat_pos _ _ _ (by simp), ih]
        exact (components_append_replicate path 1).symm
      · rw [List.rdropWhile_concat_neg _ _ _ (by simpa using ha)]

/-- Whether a path with a separator in it is absolute is seen from what stands before that,
without the separators at its end. -/
theorem isAbsolute_append_cons (path rest : List α) :
    IsAbsolute sep (path ++ sep :: rest) ↔
      path.rdropWhile (· = sep) = [] ∨ IsAbsolute sep (path.rdropWhile (· = sep)) := by
  cases path with
  | nil => simp [IsAbsolute]
  | cons a path =>
      obtain ⟨seps, hsplit⟩ := List.rdropWhile_prefix (· = sep) (a :: path)
      cases hleft : (a :: path).rdropWhile (· = sep) with
      | nil =>
          rw [List.rdropWhile_eq_nil_iff] at hleft
          have ha : a = sep := by simpa using hleft a (by simp)
          simp [IsAbsolute, ha]
      | cons b left =>
          rw [hleft, List.cons_append] at hsplit
          obtain rfl : b = a := (List.cons.inj hsplit).1
          simp [IsAbsolute]

/-- The separators that a path begins with. -/
theorem exists_separators {path : List α} (h : IsAbsolute sep path) :
    ∃ m, path = List.replicate m sep ++ sep :: path.dropWhile (· = sep) := by
  obtain ⟨rest, rfl⟩ := List.head?_eq_some_iff.mp h
  have hseps : rest.takeWhile (· = sep) =
      List.replicate (rest.takeWhile (· = sep)).length sep := by
    apply List.eq_replicate_of_mem
    intro a ha
    simpa using List.mem_takeWhile_imp ha
  refine ⟨(rest.takeWhile (· = sep)).length, ?_⟩
  rw [List.dropWhile_cons_of_pos (by simp)]
  calc
    sep :: rest = sep :: (rest.takeWhile (· = sep) ++ rest.dropWhile (· = sep)) := by
      rw [List.takeWhile_append_dropWhile]
    _ = List.replicate ((rest.takeWhile (· = sep)).length + 1) sep ++
        rest.dropWhile (· = sep) := by
      rw [List.replicate_succ, List.cons_append, ← hseps]
    _ = _ := by rw [List.replicate_succ', List.append_assoc, List.singleton_append]

omit [DecidableEq α] in
/-- A path with a separator in it can be cut at the last one. -/
theorem exists_last_cut {path : List α} (h : sep ∈ path) :
    ∃ dir name, path = dir ++ sep :: name ∧ sep ∉ name := by
  obtain ⟨name, dir, hsplit, hname⟩ := List.eq_append_cons_of_mem (List.mem_reverse.mpr h)
  refine ⟨dir.reverse, name.reverse, ?_, by simpa using hname⟩
  rw [← List.reverse_reverse path, hsplit]
  simp

end Components

namespace Walk

variable {sep} {Node : Type*} (walk : Walk α Node)

omit [DecidableEq α] in
theorem descend_append (node : Node) (names names' : List (List α)) :
    walk.descend node (names ++ names') =
      (walk.descend node names).bind fun inner => walk.descend inner names' :=
  List.foldlM_append

/-- Paths with the same beginning and the same components denote the same file. -/
theorem denote_congr {path path' : List α}
    (habs : IsAbsolute sep path ↔ IsAbsolute sep path')
    (hcomponents : components sep path = components sep path') :
    walk.denote sep path = walk.denote sep path' := by
  unfold denote start
  rw [hcomponents, if_congr habs rfl rfl]

/-- A name that leads nowhere else can be left out at the end of a path. -/
theorem denote_of_stays {name : List α} (stays : ∀ node, walk.step node name = some node)
    {path path' : List α} (habs : IsAbsolute sep path ↔ IsAbsolute sep path')
    (hcomponents : components sep path' = components sep path ++ [name]) :
    walk.denote sep path = walk.denote sep path' := by
  have hstay : ∀ node, walk.descend node [name] = some node := by
    intro node
    rw [descend, List.foldlM_cons, stays]
    rfl
  unfold denote start
  rw [hcomponents, if_congr habs rfl rfl, descend_append]
  simp only [hstay]
  exact (Option.bind_fun_some _).symm

end Walk

end PathWalk
