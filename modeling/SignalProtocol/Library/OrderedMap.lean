import Mathlib.Data.Finset.Card

/-! # Insertion-ordered maps

A finite map that remembers the order in which its keys were first inserted: overwriting a key keeps
its position. -/

open List

/-- A finite map whose entries stand in the order in which their keys were first set. -/
structure OrderedMap (α β : Type*) where
  entries : List (α × β)
  nodup : (entries.map Prod.fst).Nodup

namespace OrderedMap

open List

variable {α β γ : Type*}

def empty : OrderedMap α β := ⟨[], nodup_nil⟩

instance : EmptyCollection (OrderedMap α β) := ⟨empty⟩

instance : Inhabited (OrderedMap α β) := ⟨empty⟩

@[ext]
theorem ext {first second : OrderedMap α β} (hentries : first.entries = second.entries) :
    first = second := by
  cases first
  cases second
  simpa using hentries

instance [DecidableEq α] [DecidableEq β] : DecidableEq (OrderedMap α β) := fun first second =>
  decidable_of_iff (first.entries = second.entries) ⟨ext, congrArg entries⟩

def keys (map : OrderedMap α β) : List α := map.entries.map Prod.fst

def values (map : OrderedMap α β) : List β := map.entries.map Prod.snd

def size (map : OrderedMap α β) : ℕ := map.entries.length

def mapValues (f : β → γ) (map : OrderedMap α β) : OrderedMap α γ :=
  ⟨map.entries.map fun entry => (entry.1, f entry.2), by
    simpa [Function.comp_def] using map.nodup⟩

/-- Keep the keys with a property, in order. -/
def filterKeys (keep : α → Bool) (map : OrderedMap α β) : OrderedMap α β where
  entries := map.entries.filter fun entry => keep entry.1
  nodup := map.nodup.sublist (filter_sublist.map Prod.fst)

/-- Keep the entries with a property, in order. -/
def filterEntries (keep : α → β → Bool) (map : OrderedMap α β) : OrderedMap α β where
  entries := map.entries.filter fun entry => keep entry.1 entry.2
  nodup := map.nodup.sublist (filter_sublist.map Prod.fst)

/-- Change every value, in place. -/
def mapEntries (f : α → β → γ) (map : OrderedMap α β) : OrderedMap α γ :=
  ⟨map.entries.map fun entry => (entry.1, f entry.1 entry.2), by
    simpa [Function.comp_def] using map.nodup⟩

@[simp] theorem keys_empty : (∅ : OrderedMap α β).keys = [] := rfl

@[simp] theorem size_empty : (∅ : OrderedMap α β).size = 0 := rfl

variable (map : OrderedMap α β)

theorem keys_nodup : map.keys.Nodup := map.nodup

@[simp] theorem length_keys : map.keys.length = map.size :=
  length_map ..

variable [DecidableEq α]

def get? (map : OrderedMap α β) (key : α) : Option β :=
  (map.entries.find? fun entry => entry.1 = key).map Prod.snd

def has (map : OrderedMap α β) (key : α) : Bool := (map.get? key).isSome

private theorem set_nodup (key : α) (value : β) :
    ((if key ∈ map.keys then
        map.entries.map fun entry => if entry.1 = key then (key, value) else entry
      else map.entries ++ [(key, value)]).map Prod.fst).Nodup := by
  split
  · have hkeys : (map.entries.map fun entry => if entry.1 = key then (key, value) else entry).map
        Prod.fst = map.keys := by
      rw [map_map, keys]
      apply map_congr_left
      intro entry _
      by_cases hentry : entry.1 = key <;> simp [hentry]
    rw [hkeys]
    exact map.nodup
  · rename_i hkey
    rw [map_append, nodup_append]
    refine ⟨map.nodup, by simp, ?_⟩
    intro first hfst second hsnd heq
    simp only [map_cons, map_nil, mem_singleton] at hsnd
    exact hkey (hsnd ▸ heq ▸ hfst)

/-- Set the value of a key: in place when the key is present, at the end otherwise. -/
def set (map : OrderedMap α β) (key : α) (value : β) : OrderedMap α β where
  entries := if key ∈ map.keys then
      map.entries.map fun entry => if entry.1 = key then (key, value) else entry
    else map.entries ++ [(key, value)]
  nodup := set_nodup map key value

/-- Set the entries of another map whose keys are absent. -/
def addMissing (map other : OrderedMap α β) : OrderedMap α β :=
  other.entries.foldl
    (fun merged entry => if merged.has entry.1 then merged else merged.set entry.1 entry.2) map

def erase (map : OrderedMap α β) (key : α) : OrderedMap α β where
  entries := map.entries.filter fun entry => entry.1 ≠ key
  nodup := map.nodup.sublist (filter_sublist.map Prod.fst)

theorem get?_eq_some_iff (key : α) (value : β) :
    map.get? key = some value ↔ (key, value) ∈ map.entries := by
  obtain ⟨entries, hnodup⟩ := map
  simp only [get?]
  induction entries with
  | nil => simp
  | cons head tail ih =>
    obtain ⟨hhead, htail⟩ := nodup_cons.mp hnodup
    by_cases hkey : head.1 = key
    · subst hkey
      have hmem : (head.1, value) ∉ tail := fun hmem =>
        hhead (mem_map.mpr ⟨_, hmem, rfl⟩)
      simp [hmem, Prod.ext_iff, eq_comm]
    · have hne : (key, value) ≠ head := fun heq => hkey (heq ▸ rfl)
      simpa [hkey, hne] using ih htail

theorem mem_keys_iff (key : α) : key ∈ map.keys ↔ ∃ value, map.get? key = some value := by
  simp [keys, get?_eq_some_iff]

theorem get?_eq_none_iff (key : α) : map.get? key = none ↔ key ∉ map.keys := by
  rw [mem_keys_iff, Option.eq_none_iff_forall_not_mem]
  simp

theorem has_iff (key : α) : map.has key = true ↔ key ∈ map.keys := by
  rw [has, mem_keys_iff, Option.isSome_iff_exists]

@[simp] theorem get?_empty (key : α) : (∅ : OrderedMap α β).get? key = none := rfl

theorem mem_entries_set (key other : α) (value otherValue : β) :
    (other, otherValue) ∈ (map.set key value).entries ↔
      if other = key then otherValue = value else (other, otherValue) ∈ map.entries := by
  by_cases hkey : key ∈ map.keys
  · simp only [set, hkey, if_true, mem_map]
    by_cases hother : other = key
    · subst hother
      simp only [if_true]
      constructor
      · rintro ⟨entry, _, hentry⟩
        split at hentry
        · simpa [eq_comm] using hentry
        · rename_i hne
          simp [hentry] at hne
      · rintro rfl
        obtain ⟨entry, hentry, rfl⟩ := mem_map.mp hkey
        exact ⟨entry, hentry, by simp⟩
    · simp only [hother, if_false]
      constructor
      · rintro ⟨entry, hentry, heq⟩
        split at heq
        · simp [Prod.ext_iff, Ne.symm hother] at heq
        · exact heq ▸ hentry
      · intro hentry
        exact ⟨_, hentry, by simp [hother]⟩
  · simp only [set, hkey, if_false, mem_append, mem_singleton, Prod.mk.injEq]
    by_cases hother : other = key
    · subst hother
      have hmem : (other, otherValue) ∉ map.entries := fun hmem =>
        hkey (mem_map_of_mem hmem)
      simp [hmem]
    · simp [hother]

theorem get?_set (key other : α) (value : β) :
    (map.set key value).get? other = if other = key then some value else map.get? other := by
  ext otherValue
  rw [get?_eq_some_iff, mem_entries_set]
  split
  · simp [eq_comm]
  · rw [get?_eq_some_iff]

@[simp] theorem get?_set_self (key : α) (value : β) :
    (map.set key value).get? key = some value := by
  simp [get?_set]

theorem get?_set_of_ne {key other : α} (value : β) (hne : other ≠ key) :
    (map.set key value).get? other = map.get? other := by
  simp [get?_set, hne]

theorem mem_keys_set (key other : α) (value : β) :
    other ∈ (map.set key value).keys ↔ other = key ∨ other ∈ map.keys := by
  rw [mem_keys_iff, mem_keys_iff, get?_set]
  by_cases hother : other = key <;> simp [hother]

theorem keys_set_of_mem {key : α} (value : β) (hkey : key ∈ map.keys) :
    (map.set key value).keys = map.keys := by
  have hentries : (map.set key value).entries =
      map.entries.map fun entry => if entry.1 = key then (key, value) else entry := if_pos hkey
  rw [keys, hentries, map_map]
  refine map_congr_left fun entry _ => ?_
  by_cases hentry : entry.1 = key <;> simp [hentry]

theorem keys_set_of_not_mem {key : α} (value : β) (hkey : key ∉ map.keys) :
    (map.set key value).keys = map.keys ++ [key] := by
  have hentries : (map.set key value).entries = map.entries ++ [(key, value)] := if_neg hkey
  rw [keys, hentries, map_append]
  rfl

theorem size_set_of_not_mem {key : α} (value : β)
    (hkey : key ∉ map.keys) : (map.set key value).size = map.size + 1 := by
  simp [size, set, hkey]

theorem get?_erase (key other : α) :
    (map.erase key).get? other = if other = key then none else map.get? other := by
  ext value
  rw [get?_eq_some_iff]
  by_cases hother : other = key <;> simp [erase, hother, get?_eq_some_iff]

theorem mem_keys_erase (key other : α) :
    other ∈ (map.erase key).keys ↔ other ≠ key ∧ other ∈ map.keys := by
  rw [mem_keys_iff, mem_keys_iff, get?_erase]
  by_cases hother : other = key <;> simp [hother]

theorem get?_mapValues (f : β → γ) (key : α) :
    (map.mapValues f).get? key = (map.get? key).map f := by
  simp [get?, mapValues, find?_map, Function.comp_def]

theorem get?_filterKeys (keep : α → Bool) (key : α) :
    (map.filterKeys keep).get? key = if keep key then map.get? key else none := by
  ext value
  rw [get?_eq_some_iff]
  by_cases hkeep : keep key = true <;> simp [filterKeys, hkeep, get?_eq_some_iff]

theorem get?_filterEntries (keep : α → β → Bool) (key : α) :
    (map.filterEntries keep).get? key = (map.get? key).filter (keep key) := by
  ext value
  rw [get?_eq_some_iff, Option.filter_eq_some_iff, get?_eq_some_iff]
  simp [filterEntries]

omit [DecidableEq α] in
theorem eq_empty_of_size {map : OrderedMap α β} (hsize : map.size = 0) : map = ∅ :=
  ext (length_eq_zero_iff.mp hsize)

theorem mem_values_iff (value : β) : value ∈ map.values ↔ ∃ key, map.get? key = some value := by
  simp [values, get?_eq_some_iff]

theorem get?_mapEntries (f : α → β → γ) (key : α) :
    (map.mapEntries f).get? key = (map.get? key).map (f key) := by
  simp only [get?, mapEntries, find?_map, Function.comp_def, Option.map_map]
  cases hfind : map.entries.find? fun entry => entry.1 = key with
  | none => rfl
  | some entry =>
    have hkey := find?_some hfind
    simp_all

/-- Setting entries whose values are a function of their keys. -/
theorem get?_foldl_set (f : α → β) (entries : List (α × β)) (map : OrderedMap α β)
    (hvals : ∀ entry ∈ entries, entry.2 = f entry.1) (key : α) :
    (entries.foldl (fun map entry => map.set entry.1 entry.2) map).get? key =
      if key ∈ entries.map Prod.fst then some (f key) else map.get? key := by
  induction entries generalizing map with
  | nil => simp
  | cons entry entries ih =>
    rw [foldl_cons, ih _ fun other hother => hvals other (mem_cons_of_mem _ hother),
      get?_set]
    by_cases hentry : key = entry.1
    · simp [hentry, hvals entry mem_cons_self]
    · simp only [hentry, map_cons, mem_cons, false_or, if_false]

/-- Setting other keys. -/
theorem get?_foldl_set_of_ne (entries : List (α × β)) (map : OrderedMap α β) {key : α}
    (hne : ∀ entry ∈ entries, key ≠ entry.1) :
    (entries.foldl (fun map entry => map.set entry.1 entry.2) map).get? key = map.get? key := by
  induction entries generalizing map with
  | nil => rfl
  | cons entry entries ih =>
    rw [foldl_cons, ih _ fun other hother => hne other (mem_cons_of_mem _ hother),
      get?_set_of_ne _ _ (hne entry mem_cons_self)]

private theorem entries_foldl_missing (entries : List (α × β))
    (hnodup : (entries.map Prod.fst).Nodup) (map : OrderedMap α β) :
    (entries.foldl (fun merged entry =>
      if merged.has entry.1 then merged else merged.set entry.1 entry.2) map).entries =
      map.entries ++ entries.filter fun entry => !map.has entry.1 := by
  induction entries generalizing map with
  | nil => simp
  | cons entry entries ih =>
    obtain ⟨hentry, hentries⟩ := nodup_cons.mp hnodup
    rw [foldl_cons, ih hentries]
    by_cases hhas : map.has entry.1
    · rw [if_pos hhas, filter_cons_of_neg (by simpa using hhas)]
    · have hkey : entry.1 ∉ map.keys := fun hmem => hhas ((has_iff map entry.1).mpr hmem)
      have hset : (map.set entry.1 entry.2).entries = map.entries ++ [entry] := if_neg hkey
      have hsame : (entries.filter fun other => !(map.set entry.1 entry.2).has other.1) =
          entries.filter fun other => !map.has other.1 := by
        refine filter_congr fun other hother => ?_
        have hne : other.1 ≠ entry.1 := fun heq =>
          hentry (heq ▸ mem_map_of_mem hother)
        rw [has, has, get?_set_of_ne _ _ hne]
      rw [if_neg hhas, hsame, hset, filter_cons_of_pos (by simpa using hhas),
        append_assoc, singleton_append]

theorem entries_addMissing (map other : OrderedMap α β) :
    (map.addMissing other).entries =
      map.entries ++ other.entries.filter fun entry => !map.has entry.1 :=
  entries_foldl_missing other.entries other.nodup map

theorem get?_addMissing (map other : OrderedMap α β) (key : α) :
    (map.addMissing other).get? key = (map.get? key).or (other.get? key) := by
  ext value
  rw [get?_eq_some_iff, entries_addMissing, mem_append, mem_filter,
    ← get?_eq_some_iff, ← get?_eq_some_iff]
  cases hkey : map.get? key <;> simp [has, hkey]

theorem size_addMissing (map other : OrderedMap α β) :
    (map.addMissing other).size = map.size + (other.filterKeys fun key => !map.has key).size := by
  rw [size, entries_addMissing, length_append]
  rfl

/-- The number of entries is the number of distinct keys. -/
theorem size_eq_card_keys : map.size = map.keys.toFinset.card := by
  rw [List.toFinset_card_of_nodup map.keys_nodup, length_keys]

end OrderedMap

/-! ## Images of insertion-ordered maps

One map holds the entries of another under other keys and with other values. Its operations follow
those of the other at every key that no other key of the map is confused with. -/

namespace OrderedMap

variable {α β γ δ : Type*}

/-- The entries of the second map are those of the first, with each key and value changed. -/
def IsImage (onKey : α → γ) (onValue : β → δ) (first : OrderedMap α β) (second : OrderedMap γ δ) :
    Prop :=
  second.entries = first.entries.map fun entry => (onKey entry.1, onValue entry.2)

/-- No other key of the map is changed into what the key is. -/
def Apart (onKey : α → γ) (first : OrderedMap α β) (key : α) : Prop :=
  ∀ other ∈ first.keys, onKey other = onKey key → other = key

theorem erase_of_get?_eq_none [DecidableEq α] {map : OrderedMap α β} {key : α}
    (hget : map.get? key = none) : map.erase key = map := by
  rw [get?_eq_none_iff] at hget
  refine ext (filter_eq_self.mpr ?_)
  intro entry hentry
  exact decide_eq_true fun heq => hget (heq ▸ mem_map_of_mem hentry)

namespace IsImage

variable {onKey : α → γ} {onValue : β → δ} {first : OrderedMap α β} {second : OrderedMap γ δ}
variable {key : α}

theorem empty : IsImage onKey onValue (∅ : OrderedMap α β) ∅ := rfl

section

variable (himage : IsImage onKey onValue first second)

include himage

theorem keys :
    second.keys = first.keys.map onKey := by
  rw [OrderedMap.keys, himage, OrderedMap.keys, map_map, map_map]
  rfl

theorem mem_keys_iff
    (hapart : Apart onKey first key) : onKey key ∈ second.keys ↔ key ∈ first.keys := by
  rw [himage.keys, mem_map]
  constructor
  · rintro ⟨other, hother, heq⟩
    exact hapart other hother heq ▸ hother
  · exact fun hkey => ⟨key, hkey, rfl⟩

theorem filterEntries {keep : α → β → Bool} {keepImage : γ → δ → Bool}
    (hkeep : ∀ entry ∈ first.entries,
      keepImage (onKey entry.1) (onValue entry.2) = keep entry.1 entry.2) :
    IsImage onKey onValue (first.filterEntries keep) (second.filterEntries keepImage) := by
  change second.entries.filter (fun entry => keepImage entry.1 entry.2) =
    (first.entries.filter fun entry => keep entry.1 entry.2).map _
  rw [himage, filter_map]
  congr 1
  exact filter_congr fun entry hentry => hkeep entry hentry

end

variable [DecidableEq α] [DecidableEq γ]

section

variable (himage : IsImage onKey onValue first second)

include himage

section

variable (hapart : Apart onKey first key)

include hapart

theorem get? :
    second.get? (onKey key) = (first.get? key).map onValue := by
  ext value
  rw [get?_eq_some_iff, himage, mem_map, Option.map_eq_some_iff]
  constructor
  · rintro ⟨entry, hentry, heq⟩
    obtain ⟨hkey, rfl⟩ := Prod.mk.inj heq
    have hsame : entry.1 = key := hapart entry.1 (mem_map_of_mem hentry) hkey
    refine ⟨entry.2, (get?_eq_some_iff first key entry.2).mpr ?_, rfl⟩
    rw [← hsame]
    exact hentry
  · rintro ⟨stored, hstored, rfl⟩
    exact ⟨(key, stored), (get?_eq_some_iff first key stored).mp hstored, rfl⟩

theorem set (value : β) : IsImage onKey onValue (first.set key value)
      (second.set (onKey key) (onValue value)) := by
  have hmem := himage.mem_keys_iff hapart
  by_cases hkey : key ∈ first.keys
  · rw [IsImage, OrderedMap.set, OrderedMap.set]
    dsimp only
    rw [if_pos hkey, if_pos (hmem.mpr hkey), himage, map_map, map_map]
    refine map_congr_left ?_
    intro entry hentry
    dsimp only [Function.comp_apply]
    by_cases hsame : entry.1 = key
    · rw [if_pos hsame, if_pos (congrArg onKey hsame)]
    · rw [if_neg hsame, if_neg (mt (hapart entry.1 (mem_map_of_mem hentry)) hsame)]
  · rw [IsImage, OrderedMap.set, OrderedMap.set]
    dsimp only
    rw [if_neg hkey, if_neg (mt hmem.mp hkey), himage, map_append]
    rfl

theorem erase :
    IsImage onKey onValue (first.erase key) (second.erase (onKey key)) := by
  change second.entries.filter (fun entry => entry.1 ≠ onKey key) =
    (first.entries.filter fun entry => entry.1 ≠ key).map _
  rw [himage, filter_map]
  congr 1
  refine filter_congr ?_
  intro entry hentry
  have hiff : onKey entry.1 ≠ onKey key ↔ entry.1 ≠ key :=
    not_congr ⟨hapart entry.1 (mem_map_of_mem hentry), congrArg onKey⟩
  exact decide_eq_decide.mpr hiff

end

end

end IsImage

end OrderedMap
