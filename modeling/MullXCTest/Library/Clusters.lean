import Mathlib.Data.List.Basic

/-!
# Segmentation into clusters

A text is segmented from the left: each element joins the cluster before it or begins a new
one, which depends on that cluster alone. Such a segmentation can be taken apart where
two clusters meet, and put together where an element joins nothing.
-/

namespace Clusters

variable {α : Type*} (joins : List α → α → Bool)

/-- The segmentation of a text behind a cluster that may still grow. -/
def clustersFrom (cluster : List α) : List α → List (List α)
  | [] => [cluster]
  | a :: rest =>
      if joins cluster a then clustersFrom (cluster ++ [a]) rest
      else cluster :: clustersFrom [a] rest

def clusters : List α → List (List α)
  | [] => []
  | a :: rest => clustersFrom joins [a] rest

/-- A new cluster begins between two texts. -/
def Boundary (first second : List α) : Prop :=
  ∀ cluster ∈ (clusters joins first).getLast?, ∀ a ∈ second.head?, joins cluster a = false

variable {joins}

@[simp] theorem clusters_nil : clusters joins [] = [] := rfl

theorem clustersFrom_ne_nil (cluster text : List α) : clustersFrom joins cluster text ≠ [] := by
  induction text generalizing cluster with
  | nil => exact List.cons_ne_nil _ _
  | cons a rest ih =>
      rw [clustersFrom]
      split_ifs
      · exact ih _
      · exact List.cons_ne_nil _ _

theorem clusters_ne_nil {text : List α} (h : text ≠ []) : clusters joins text ≠ [] := by
  obtain ⟨a, rest, rfl⟩ := List.exists_cons_of_ne_nil h
  exact clustersFrom_ne_nil _ _

/-- Nothing is lost. -/
theorem flatten_clustersFrom (cluster text : List α) :
    (clustersFrom joins cluster text).flatten = cluster ++ text := by
  induction text generalizing cluster with
  | nil => simp [clustersFrom]
  | cons a rest ih =>
      rw [clustersFrom]
      split_ifs
      · rw [ih, List.append_assoc, List.singleton_append]
      · rw [List.flatten_cons, ih, List.singleton_append]

@[simp] theorem flatten_clusters (text : List α) : (clusters joins text).flatten = text := by
  cases text with
  | nil => rfl
  | cons a rest => exact flatten_clustersFrom [a] rest

/-- No cluster is empty. -/
theorem ne_nil_of_mem_clustersFrom {cluster text c : List α} (h : cluster ≠ [])
    (hc : c ∈ clustersFrom joins cluster text) : c ≠ [] := by
  induction text generalizing cluster with
  | nil =>
      rw [List.mem_singleton.mp hc]
      exact h
  | cons a rest ih =>
      rw [clustersFrom] at hc
      split_ifs at hc
      · exact ih (by simp) hc
      · rcases List.mem_cons.mp hc with rfl | hc
        · exact h
        · exact ih (List.cons_ne_nil a []) hc

theorem ne_nil_of_mem_clusters {text c : List α} (hc : c ∈ clusters joins text) : c ≠ [] := by
  cases text with
  | nil => cases hc
  | cons a rest => exact ne_nil_of_mem_clustersFrom (List.cons_ne_nil a []) hc

/-- The elements of a cluster are elements of the text. -/
theorem mem_of_mem_cluster {text c : List α} {a : α} (hc : c ∈ clusters joins text)
    (ha : a ∈ c) : a ∈ text := by
  rw [← @flatten_clusters _ joins text]
  exact List.mem_flatten.mpr ⟨c, hc, ha⟩

/-- The last cluster ends as the text does. -/
theorem getLast?_cluster {text cluster : List α}
    (h : (clusters joins text).getLast? = some cluster) : cluster.getLast? = text.getLast? := by
  obtain ⟨front, hfront⟩ := List.getLast?_eq_some_iff.mp h
  have hne : cluster ≠ [] := ne_nil_of_mem_clusters (List.mem_of_getLast? h)
  have htext : front.flatten ++ cluster = text := by
    rw [← @flatten_clusters _ joins text, hfront]
    simp
  rw [← htext, List.getLast?_append_of_ne_nil _ hne]

theorem clustersFrom_append {cluster first : List α} {b : α} (second : List α)
    (h : ∀ c ∈ (clustersFrom joins cluster first).getLast?, joins c b = false) :
    clustersFrom joins cluster (first ++ b :: second) =
      clustersFrom joins cluster first ++ clustersFrom joins [b] second := by
  induction first generalizing cluster with
  | nil =>
      have hb : joins cluster b = false := h cluster rfl
      simp [clustersFrom, hb]
  | cons a rest ih =>
      rw [clustersFrom] at h
      rw [List.cons_append, clustersFrom, clustersFrom]
      split_ifs at h ⊢ with ha
      · exact ih h
      · rw [List.getLast?_cons_of_ne_nil (clustersFrom_ne_nil _ _)] at h
        rw [ih h, List.cons_append]

/-- Two texts with a boundary between them are segmented on their own. -/
theorem clusters_append {first second : List α} (h : Boundary joins first second) :
    clusters joins (first ++ second) = clusters joins first ++ clusters joins second := by
  cases first with
  | nil => rfl
  | cons a rest =>
      cases second with
      | nil => simp
      | cons b second => exact clustersFrom_append second fun c hc => h c hc b rfl

theorem exists_cut_clustersFrom {cluster text : List α} {front back : List (List α)}
    (h : clustersFrom joins cluster text = front ++ back) (hne : front ≠ []) :
    ∃ first second, text = first ++ second ∧ clustersFrom joins cluster first = front ∧
      clusters joins second = back ∧
      ∀ c ∈ front.getLast?, ∀ b ∈ second.head?, joins c b = false := by
  induction text generalizing cluster front with
  | nil =>
      obtain ⟨c, front, rfl⟩ := List.exists_cons_of_ne_nil hne
      obtain ⟨rfl, hrest⟩ := List.cons.inj h
      obtain ⟨rfl, rfl⟩ := List.append_eq_nil_iff.mp hrest.symm
      exact ⟨[], [], rfl, rfl, rfl, by simp⟩
  | cons a rest ih =>
      rw [clustersFrom] at h
      split_ifs at h with ha
      · obtain ⟨first, second, rfl, hfirst, hsecond, hbound⟩ := ih h hne
        refine ⟨a :: first, second, rfl, ?_, hsecond, hbound⟩
        rw [clustersFrom, if_pos ha, hfirst]
      · obtain ⟨c, front, rfl⟩ := List.exists_cons_of_ne_nil hne
        obtain ⟨rfl, hrest⟩ := List.cons.inj h
        by_cases hfront : front = []
        · subst hfront
          refine ⟨[], a :: rest, rfl, rfl, hrest, ?_⟩
          intro c hc b hb
          cases hc
          cases hb
          simpa using ha
        · obtain ⟨first, second, rfl, hfirst, hsecond, hbound⟩ := ih hrest hfront
          refine ⟨a :: first, second, rfl, ?_, hsecond, ?_⟩
          · rw [clustersFrom, if_neg ha, hfirst]
          · rwa [List.getLast?_cons_of_ne_nil hfront]

/-- Where two clusters meet, the text has a boundary, and both sides are segmented on their
own. -/
theorem exists_cut {text : List α} {front back : List (List α)}
    (h : clusters joins text = front ++ back) :
    ∃ first second, text = first ++ second ∧ clusters joins first = front ∧
      clusters joins second = back ∧ Boundary joins first second := by
  by_cases hne : front = []
  · subst hne
    exact ⟨[], text, rfl, rfl, h, by simp [Boundary]⟩
  · cases text with
    | nil =>
        obtain ⟨rfl, rfl⟩ := List.append_eq_nil_iff.mp h.symm
        exact absurd rfl hne
    | cons a rest =>
        obtain ⟨first, second, rfl, hfirst, hsecond, hbound⟩ := exists_cut_clustersFrom h hne
        refine ⟨a :: first, second, rfl, hfirst, hsecond, ?_⟩
        rw [← hfirst] at hbound
        exact hbound

/-- Elements that never join are clusters of their own. -/
theorem clusters_eq_map {text : List α} (h : ∀ a ∈ text, ∀ b ∈ text, joins [a] b = false) :
    clusters joins text = text.map fun a => [a] := by
  cases text with
  | nil => rfl
  | cons a rest =>
      induction rest generalizing a with
      | nil => rfl
      | cons b rest ih =>
          have hstart : joins [a] b = false := h a (by simp) b (by simp)
          have htail := ih b fun x hx y hy =>
            h x (List.mem_cons_of_mem a hx) y (List.mem_cons_of_mem a hy)
          rw [clusters, clustersFrom, if_neg (by simp [hstart])]
          exact congrArg ([a] :: ·) htail

end Clusters
