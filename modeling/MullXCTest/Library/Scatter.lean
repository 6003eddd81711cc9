import Mathlib.Data.List.Basic

/-!
# Changing cells by tagged items

Items carry the position of the cell that they belong to. A loop that lets every item
change its cell treats each cell with its own items alone, in their order. If the items
come out of the cells themselves, then each cell is treated with what came out of it.
-/

namespace Scatter

variable {α β γ : Type*}

/-- Every item changes the cell at its position. -/
def scatter (f : β → α → α) (items : List (β × Nat)) (cells : List α) : List α :=
  items.foldl (fun cells item => cells.modify item.2 (f item.1)) cells

/-- The items of one position, in their order. -/
def own (items : List (β × Nat)) (i : Nat) : List β :=
  (items.filter fun item => item.2 == i).map Prod.fst

/-- A cell is changed by its own items. -/
theorem getElem?_scatter (f : β → α → α) (items : List (β × Nat)) (cells : List α) (i : Nat) :
    (scatter f items cells)[i]? =
      cells[i]?.map fun cell => (own items i).foldl (fun cell item => f item cell) cell := by
  induction items generalizing cells with
  | nil => simp [scatter, own]
  | cons item rest ih =>
      have hstep : scatter f (item :: rest) cells =
          scatter f rest (cells.modify item.2 (f item.1)) := rfl
      rw [hstep, ih, List.getElem?_modify]
      by_cases hi : item.2 = i
      · cases cells[i]? <;> simp [own, hi]
      · cases cells[i]? <;> simp [own, hi]

/-- What comes out of the cells, with their positions. -/
def tagged (g : α → List β) (cells : List α) : List (β × Nat) :=
  cells.zipIdx.flatMap fun p => (g p.1).map fun item => (item, p.2)

theorem filter_tagged (keep : β → Bool) (g : α → List β) (cells : List α) :
    (tagged g cells).filter (fun item => keep item.1) =
      tagged (fun cell => (g cell).filter keep) cells := by
  rw [tagged, List.filter_flatMap, tagged]
  simp only [List.filter_map, Function.comp_def]

theorem mem_tagged_iff {g : α → List β} {cells : List α} {item : β} {i : Nat} :
    (item, i) ∈ tagged g cells ↔ ∃ cell, cells[i]? = some cell ∧ item ∈ g cell := by
  simp only [tagged, List.mem_flatMap, List.mem_map, Prod.mk.injEq]
  constructor
  · rintro ⟨⟨cell, n⟩, hcell, found, hfound, rfl, rfl⟩
    exact ⟨cell, List.mk_mem_zipIdx_iff_getElem?.mp hcell, hfound⟩
  · rintro ⟨cell, hcell, hitem⟩
    exact ⟨(cell, i), List.mk_mem_zipIdx_iff_getElem?.mpr hcell, item, hitem, rfl, rfl⟩

theorem map_fst_tagged (g : α → List β) (cells : List α) :
    (tagged g cells).map Prod.fst = cells.flatMap g := by
  rw [tagged, List.map_flatMap]
  simp only [List.map_map, Function.comp_def, List.map_id']
  rw [← List.flatMap_map Prod.fst g, List.zipIdx_map_fst]

theorem own_append (items items' : List (β × Nat)) (i : Nat) :
    own (items ++ items') i = own items i ++ own items' i := by
  simp [own]

theorem own_map_pair (items : List β) (n i : Nat) :
    own (items.map fun item => (item, n)) i = if n = i then items else [] := by
  by_cases hi : n = i
  · simp [own, hi, List.filter_map, Function.comp_def]
  · simp [own, hi, List.filter_map, Function.comp_def]

theorem own_zipIdx (g : α → List β) (cells : List α) (n i : Nat) :
    own ((cells.zipIdx n).flatMap fun p => (g p.1).map fun item => (item, p.2)) i =
      if i < n then [] else (cells[i - n]?.map g).getD [] := by
  induction cells generalizing n with
  | nil => simp [own]
  | cons cell rest ih =>
      rw [List.zipIdx_cons, List.flatMap_cons, own_append, own_map_pair, ih (n + 1)]
      rcases Nat.lt_trichotomy i n with hlt | rfl | hgt
      · simp [hlt, Nat.ne_of_gt hlt, Nat.lt_succ_of_lt hlt]
      · simp
      · have hstep : i - n = (i - (n + 1)) + 1 := by omega
        simp [Nat.ne_of_lt hgt, show ¬ i < n + 1 by omega, show ¬ i < n by omega, hstep]

/-- The items of a cell are those that came out of it. -/
theorem own_tagged (g : α → List β) (cells : List α) (i : Nat) :
    own (tagged g cells) i = (cells[i]?.map g).getD [] := by
  rw [tagged, own_zipIdx, if_neg (Nat.not_lt_zero i), Nat.sub_zero]

/-- **Scattering is local.** If what comes out of some cells changes other cells at the same
positions, then each is changed by what came out at its own. -/
theorem scatter_tagged (f : β → γ → γ) (g : α → List β) {cells : List α} {targets : List γ}
    (h : targets.length = cells.length) :
    scatter f (tagged g cells) targets =
      List.zipWith (fun cell target => (g cell).foldl (fun target item => f item target) target)
        cells targets := by
  apply List.ext_getElem?
  intro i
  rw [getElem?_scatter, own_tagged, List.getElem?_zipWith]
  cases hcell : cells[i]? with
  | none =>
      have htarget : targets[i]? = none := by
        rw [List.getElem?_eq_none_iff] at hcell ⊢
        omega
      simp [htarget]
  | some cell => cases targets[i]? <;> simp

end Scatter
