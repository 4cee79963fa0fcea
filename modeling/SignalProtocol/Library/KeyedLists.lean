import Mathlib.Data.List.Perm.Basic

/-! # Lists with one entry for each key

Entries that are appended to a list when their key is new. -/

namespace KeyedLists

open List

universe u v

variable {α : Type u} {κ : Type v} [DecidableEq κ] (key : α → κ) {entries additions : List α}

/-- The entries with each addition appended whose key is new. -/
def appended (entries additions : List α) : List α :=
  additions.foldl (fun entries entry =>
    if key entry ∈ entries.map key then entries else entries ++ [entry]) entries

@[simp] theorem appended_nil (entries : List α) : appended key entries [] = entries := rfl

theorem appended_cons_of_mem {entry : α} (hmem : key entry ∈ entries.map key) :
    appended key entries (entry :: additions) = appended key entries additions := by
  rw [appended, foldl_cons, if_pos hmem]
  rfl

theorem appended_cons_of_not_mem {entry : α} (hnew : key entry ∉ entries.map key) :
    appended key entries (entry :: additions) = appended key (entries ++ [entry]) additions := by
  rw [appended, foldl_cons, if_neg hnew]
  rfl

theorem isPrefix_appended (entries additions : List α) :
    entries <+: appended key entries additions := by
  induction additions generalizing entries with
  | nil => exact prefix_rfl
  | cons entry additions ih =>
    by_cases hmem : key entry ∈ entries.map key
    · rw [appended_cons_of_mem key hmem]
      exact ih entries
    · rw [appended_cons_of_not_mem key hmem]
      exact (prefix_append entries [entry]).trans (ih _)

theorem mem_of_mem_appended {entry : α} (hmem : entry ∈ appended key entries additions) :
    entry ∈ entries ∨ entry ∈ additions := by
  induction additions generalizing entries with
  | nil => exact Or.inl hmem
  | cons first additions ih =>
    by_cases hfst : key first ∈ entries.map key
    · rw [appended_cons_of_mem key hfst] at hmem
      exact (ih hmem).imp_right (mem_cons_of_mem _)
    · rw [appended_cons_of_not_mem key hfst] at hmem
      obtain hentry | hadded := ih hmem
      · obtain hold | hnew := mem_append.mp hentry
        · exact Or.inl hold
        · exact Or.inr (mem_singleton.mp hnew ▸ mem_cons_self)
      · exact Or.inr (mem_cons_of_mem _ hadded)

/-- One entry for each key stays one entry for each key. -/
theorem nodup_appended (additions : List α) (hnodup : (entries.map key).Nodup) :
    ((appended key entries additions).map key).Nodup := by
  induction additions generalizing entries with
  | nil => exact hnodup
  | cons entry additions ih =>
    by_cases hmem : key entry ∈ entries.map key
    · rw [appended_cons_of_mem key hmem]
      exact ih hnodup
    · rw [appended_cons_of_not_mem key hmem]
      refine ih ?_
      rw [map_append, map_singleton]
      rw [nodup_append]
      refine ⟨hnodup, pairwise_singleton _ _, ?_⟩
      intro old hold new hnew hsame
      rw [mem_singleton.mp hnew] at hsame
      exact hmem (hsame ▸ hold)

/-- Additions whose keys are all there change nothing. -/
theorem appended_of_forall_mem (hfound : ∀ entry ∈ additions, key entry ∈ entries.map key) :
    appended key entries additions = entries := by
  induction additions with
  | nil => rfl
  | cons entry additions ih =>
    rw [appended_cons_of_mem key (hfound entry mem_cons_self)]
    exact ih fun other hmem => hfound other (mem_cons_of_mem _ hmem)

theorem filter_appended {keep : α → Bool}
    (hkeys : ∀ first second, key first = key second → keep first = keep second)
    (entries additions : List α) :
    (appended key entries additions).filter keep =
      appended key (entries.filter keep) (additions.filter keep) := by
  induction additions generalizing entries with
  | nil => rfl
  | cons entry additions ih =>
    have hkept (hkeep : keep entry = true) :
        key entry ∈ (entries.filter keep).map key ↔ key entry ∈ entries.map key := by
      simp only [mem_map, mem_filter]
      constructor
      · rintro ⟨other, ⟨hother, -⟩, hsame⟩
        exact ⟨other, hother, hsame⟩
      · rintro ⟨other, hother, hsame⟩
        exact ⟨other, ⟨hother, (hkeys other entry hsame).trans hkeep⟩, hsame⟩
    by_cases hkeep : keep entry = true
    · rw [filter_cons_of_pos hkeep]
      by_cases hmem : key entry ∈ entries.map key
      · rw [appended_cons_of_mem key hmem, ih, appended_cons_of_mem key ((hkept hkeep).mpr hmem)]
      · rw [appended_cons_of_not_mem key hmem, ih, filter_append,
          filter_cons_of_pos hkeep, filter_nil,
          appended_cons_of_not_mem key (mt (hkept hkeep).mp hmem)]
    · rw [filter_cons_of_neg hkeep]
      by_cases hmem : key entry ∈ entries.map key
      · rw [appended_cons_of_mem key hmem, ih]
      · rw [appended_cons_of_not_mem key hmem, ih, filter_append,
          filter_cons_of_neg hkeep, filter_nil, append_nil]

theorem key_mem_appended {entry : α} (hmem : entry ∈ additions) :
    key entry ∈ (appended key entries additions).map key := by
  induction additions generalizing entries with
  | nil => cases hmem
  | cons first additions ih =>
    have hkept {next : List α} (hfst : key entry ∈ next.map key) :
        key entry ∈ (appended key next additions).map key :=
      map_subset key (isPrefix_appended key next additions).subset hfst
    by_cases hthere : key first ∈ entries.map key
    · rw [appended_cons_of_mem key hthere]
      obtain rfl | hmem := mem_cons.mp hmem
      · exact hkept hthere
      · exact ih hmem
    · rw [appended_cons_of_not_mem key hthere]
      obtain rfl | hmem := mem_cons.mp hmem
      · refine hkept ?_
        rw [map_append]
        exact mem_append_right _ mem_cons_self
      · exact ih hmem

variable {keep : α → Bool}

theorem filter_keep_drop (keep : α → Bool) (entries : List α) :
    (entries.filter keep).filter (fun entry => !keep entry) = [] := by
  rw [filter_filter, filter_eq_nil_iff]
  intro entry _
  simp

section

variable (hkeys : ∀ first second, key first = key second → keep first = keep second)

include hkeys

/-- The same filter and the same additions again leave the entries that the filter keeps. -/
theorem filter_again
    (once additions : List α) (hfound : ∀ entry ∈ additions, key entry ∈ once.map key) :
    (appended key (once.filter keep) additions).filter keep = once.filter keep := by
  have htwice : (once.filter keep).filter keep = once.filter keep := by
    rw [filter_filter]
    simp only [Bool.and_self]
  rw [filter_appended key hkeys, htwice]
  refine appended_of_forall_mem key fun entry hmem => ?_
  obtain ⟨hadded, hkeep⟩ := mem_filter.mp hmem
  obtain ⟨other, hother, hsame⟩ := mem_map.mp (hfound entry hadded)
  refine mem_map.mpr ⟨other, mem_filter.mpr ⟨hother, ?_⟩, hsame⟩
  rw [hkeys other entry hsame, hkeep]

/-- The entries that the filter drops are those of the additions. -/
theorem filter_drop_appended (entries additions : List α) :
    (appended key (entries.filter keep) additions).filter (fun entry => !keep entry) =
      appended key [] (additions.filter fun entry => !keep entry) := by
  have hdrops (first second : α) (hsame : key first = key second) :
      (!keep first) = !keep second := by
    rw [hkeys first second hsame]
  rw [filter_appended key hdrops, filter_keep_drop]

/-- The same change of a list again only moves the entries that the filter drops to its end. -/
theorem appended_again_perm (entries additions : List α) :
    (appended key ((appended key (entries.filter keep) additions).filter keep) additions).Perm
      (appended key (entries.filter keep) additions) := by
  generalize honce : appended key (entries.filter keep) additions = once
  have hfound (entry : α) (hmem : entry ∈ additions) : key entry ∈ once.map key := by
    rw [← honce]
    exact key_mem_appended key hmem
  have hkept := filter_again key hkeys once additions hfound
  have hdropped := filter_drop_appended key hkeys once additions
  have hfst := filter_drop_appended key hkeys entries additions
  rw [honce] at hfst
  have htwice := filter_append_perm keep (appended key (once.filter keep) additions)
  rw [hkept, hdropped, ← hfst] at htwice
  exact htwice.symm.trans (filter_append_perm keep once)

end

end KeyedLists
