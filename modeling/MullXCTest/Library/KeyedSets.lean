import Mathlib.Data.Finset.Card
import Mathlib.Data.Finset.Image

/-!
# Finite sets compared by a key

Two sets can be compared by their members or by the keys of their members. What they
share and what each of them has alone agree exactly if no two members have the same key.
-/

namespace KeyedSets

variable {α β : Type*} [DecidableEq α] [DecidableEq β]

/-- The comparison by members and the comparison by keys give the same. -/
structure SameComparison (key : α → β) (s t : Finset α) : Prop where
  shared : (s ∩ t).card = (s.image key ∩ t.image key).card
  left : (s \ t).val.map key = (s.image key \ t.image key).val
  right : (t \ s).val.map key = (t.image key \ s.image key).val

variable {key : α → β} {s t : Finset α}

theorem image_sdiff_of_injOn_union (h : Set.InjOn key ↑(s ∪ t)) :
    (s \ t).image key = s.image key \ t.image key := by
  ext b
  simp only [Finset.mem_image, Finset.mem_sdiff]
  constructor
  · rintro ⟨a, ⟨hs, ht⟩, rfl⟩
    refine ⟨⟨a, hs, rfl⟩, ?_⟩
    rintro ⟨a', ht', hkey⟩
    have heq : a' = a := h (by simp [ht']) (by simp [hs]) hkey
    exact ht (heq ▸ ht')
  · rintro ⟨⟨a, hs, rfl⟩, hnone⟩
    exact ⟨a, ⟨hs, fun ht => hnone ⟨a, ht, rfl⟩⟩, rfl⟩

theorem sameComparison_of_injOn (h : Set.InjOn key ↑(s ∪ t)) : SameComparison key s t where
  shared := by
    have hshared : Set.InjOn key ↑(s ∩ t) :=
      h.mono (by exact_mod_cast Finset.inter_subset_left.trans Finset.subset_union_left)
    rw [← Finset.image_inter_of_injOn s t (by exact_mod_cast h),
      Finset.card_image_of_injOn hshared]
  left := by
    have halone : Set.InjOn key ↑(s \ t) :=
      h.mono (by exact_mod_cast Finset.sdiff_subset.trans Finset.subset_union_left)
    rw [← image_sdiff_of_injOn_union h, Finset.image_val_of_injOn halone]
  right := by
    rw [Finset.union_comm] at h
    have halone : Set.InjOn key ↑(t \ s) :=
      h.mono (by exact_mod_cast Finset.sdiff_subset.trans Finset.subset_union_left)
    rw [← image_sdiff_of_injOn_union h, Finset.image_val_of_injOn halone]

/-- The numbers of members and of keys are the same, so that no key occurs twice. -/
theorem injOn_of_counts (hshared : (s ∩ t).card = (s.image key ∩ t.image key).card)
    (halone : (s \ t).val.map key = (s.image key \ t.image key).val) :
    Set.InjOn key ↑s := by
  rw [← Finset.card_image_iff]
  have hcard : (s \ t).card = (s.image key \ t.image key).card := by
    have hmap := congrArg Multiset.card halone
    rwa [Multiset.card_map] at hmap
  calc
    (s.image key).card =
        (s.image key ∩ t.image key).card + (s.image key \ t.image key).card :=
      (Finset.card_inter_add_card_sdiff _ _).symm
    _ = (s ∩ t).card + (s \ t).card := by rw [hshared, hcard]
    _ = s.card := Finset.card_inter_add_card_sdiff s t

/-- **Comparison by a key.** It gives the same exactly where the key tells all members
apart. -/
theorem sameComparison_iff : SameComparison key s t ↔ Set.InjOn key ↑(s ∪ t) := by
  refine ⟨?_, sameComparison_of_injOn⟩
  intro same
  have hs := injOn_of_counts same.shared same.left
  have ht : Set.InjOn key ↑t := by
    apply injOn_of_counts _ same.right
    rw [Finset.inter_comm t s, Finset.inter_comm (t.image key), same.shared]
  -- A member of one set alone has a key that the other set does not have.
  have hcross : ∀ a ∈ s, ∀ b ∈ t, key a = key b → a = b := by
    intro a ha b hb hkey
    by_cases hat : a ∈ t
    · exact ht hat hb hkey
    · have hmem : key a ∈ (s \ t).val.map key :=
        Multiset.mem_map_of_mem key (Finset.mem_sdiff.mpr ⟨ha, hat⟩)
      rw [same.left] at hmem
      have hnone := (Finset.mem_sdiff.mp hmem).2
      exact absurd (Finset.mem_image.mpr ⟨b, hb, hkey.symm⟩) hnone
  intro a ha b hb hkey
  simp only [Finset.coe_union, Set.mem_union, Finset.mem_coe] at ha hb
  rcases ha with ha | ha <;> rcases hb with hb | hb
  · exact hs ha hb hkey
  · exact hcross a ha b hb hkey
  · exact (hcross b hb a ha hkey.symm).symm
  · exact ht ha hb hkey

end KeyedSets
