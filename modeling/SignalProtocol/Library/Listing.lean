import Mathlib.Data.List.Sort
import Mathlib.Data.Set.List

/-! # Listings

A list that holds exactly the values with a property, in the strict order of their keys, and the
number of the values with a property. -/

namespace Listing

open List

variable {α κ μ : Type*}

/-- Sort by a key. -/
def sortBy [LinearOrder κ] (key : α → κ) (values : List α) : List α :=
  values.insertionSort fun first second => key first ≤ key second

structure IsListing [LinearOrder κ] (key : α → κ) (holds : α → Prop) (values : List α) : Prop where
  sorted : values.Pairwise fun first second => key first < key second
  mem_iff : ∀ value, value ∈ values ↔ holds value

namespace IsListing

variable [LinearOrder κ] [LinearOrder μ] {key : α → κ} {holds : α → Prop} {values others : List α}

section

variable (hvals : IsListing key holds values)

include hvals

theorem nodup : values.Nodup :=
  hvals.sorted.imp fun hlt heq => (heq ▸ hlt).false

theorem unique (hothers : IsListing key holds others) : values = others := by
  have hperm : values.Perm others :=
    (perm_ext_iff_of_nodup hvals.nodup hothers.nodup).mpr fun value =>
      (hvals.mem_iff value).trans (hothers.mem_iff value).symm
  refine hperm.eq_of_pairwise ?_ hvals.sorted hothers.sorted
  intro first second _ _ hlt hgt
  exact absurd hgt hlt.asymm

variable {other : α → μ}

/-- The same values in the order of another key that compares them alike. -/
theorem of_alike
    (halike : ∀ first second, holds first → holds second →
      (key first < key second ↔ other first < other second)) :
    IsListing other holds values where
  sorted := hvals.sorted.imp_of_mem fun hfst hsnd hlt =>
    (halike _ _ ((hvals.mem_iff _).mp hfst) ((hvals.mem_iff _).mp hsnd)).mp hlt
  mem_iff := hvals.mem_iff

/-- One list in the order of two keys is compared alike by both. -/
theorem alike (hothers : IsListing other holds values) {first second : α} (hfst : holds first)
    (hsnd : holds second) : key first < key second ↔ other first < other second := by
  have hrefl : ∀ value ∈ values, (key value < key value ↔ other value < other value) :=
    fun _ _ => iff_of_false (lt_irrefl _) (lt_irrefl _)
  have hbefore : values.Pairwise fun first second =>
      (key first < key second ↔ other first < other second) :=
    hvals.sorted.imp₂ (fun _ _ => iff_of_true) hothers.sorted
  have hafter : values.Pairwise (flip fun first second =>
      (key first < key second ↔ other first < other second)) :=
    hvals.sorted.imp₂ (fun _ _ hkey hother => iff_of_false hkey.asymm hother.asymm)
      hothers.sorted
  exact hbefore.forall_of_forall_of_flip hrefl hafter ((hvals.mem_iff first).mpr hfst)
    ((hvals.mem_iff second).mpr hsnd)

end

/-- Sorting lists the values when no two of them have one key. -/
theorem sortBy (hkeys : (values.map key).Nodup) (hmem : ∀ value, value ∈ values ↔ holds value) :
    IsListing key holds (sortBy key values) where
  sorted := by
    have hperm := perm_insertionSort (fun first second => key first ≤ key second) values
    have hsorted : (Listing.sortBy key values).Pairwise fun first second =>
        key first ≤ key second :=
      pairwise_insertionSort _ values
    have hnodup : ((Listing.sortBy key values).map key).Nodup := (hperm.map key).nodup_iff.mpr hkeys
    have hne : (Listing.sortBy key values).Pairwise fun first second => key first ≠ key second :=
      pairwise_map.mp hnodup
    exact hsorted.imp₂ (fun _ _ hle hne => lt_of_le_of_ne hle hne) hne
  mem_iff value := by
    rw [← hmem]
    exact mem_insertionSort _

end IsListing

/-- The number of the values with a property. -/
def IsCount (holds : α → Prop) (count : ℕ) : Prop :=
  ∃ values : List α, values.Nodup ∧ (∀ value, value ∈ values ↔ holds value) ∧ values.length = count

variable {holds : α → Prop}

theorem IsCount.unique {count other : ℕ} (hcount : IsCount holds count)
    (hother : IsCount holds other) : count = other := by
  obtain ⟨values, hnodup, hmem, rfl⟩ := hcount
  obtain ⟨others, honodup, homem, rfl⟩ := hother
  refine List.Perm.length_eq ((perm_ext_iff_of_nodup hnodup honodup).mpr fun value => ?_)
  exact (hmem value).trans (homem value).symm

/-- Images that tell the values apart are counted with them. -/
theorem IsCount.of_image (image : α → μ) (himage : Function.Injective image)
    {images : List μ} (hnodup : images.Nodup)
    (hmem : ∀ value, value ∈ images ↔ ∃ source, holds source ∧ image source = value) :
    IsCount holds images.length := by
  have hsource : ∀ value ∈ images, ∃ source, image source = value := by
    intro value hval
    obtain ⟨source, _, hsource⟩ := (hmem value).mp hval
    exact ⟨source, hsource⟩
  have hrange : images ∈ Set.range (List.map image) := by
    rw [Set.range_list_map]
    exact hsource
  obtain ⟨values, rfl⟩ := hrange
  refine ⟨values, List.Nodup.of_map image hnodup, fun value => ?_, (length_map ..).symm⟩
  rw [← mem_map_of_injective himage, hmem]
  constructor
  · rintro ⟨source, hholds, heq⟩
    exact himage heq ▸ hholds
  · exact fun hholds => ⟨value, hholds, rfl⟩

end Listing
