import Mathlib.Data.List.GetD
import Mathlib.Data.List.Range

/-! # Lists as arrays with a default element -/

open List

namespace List

variable {α : Type*}

theorem getD_set (list : List α) (index other : ℕ) (value default : α) :
    (list.set index value).getD other default =
      if other = index ∧ index < list.length then value else list.getD other default := by
  rw [getD_eq_getElem?_getD, getD_eq_getElem?_getD, getElem?_set]
  by_cases hother : index = other
  · subst hother
    by_cases hlen : index < list.length <;> simp [hlen]
  · simp [hother, Ne.symm hother]

theorem getD_replicate_self (count index : ℕ) (default : α) :
    (replicate count default).getD index default = default := by
  rw [getD_eq_getElem?_getD, getElem?_replicate]
  split <;> rfl

theorem getD_map_range (f : ℕ → α) (count index : ℕ) (default : α) (hidx : index < count) :
    ((range count).map f).getD index default = f index := by
  rw [getD_eq_getElem?_getD, getElem?_map, getElem?_range hidx]
  rfl

theorem getElem?_append_of_some {list others : List α} {index : ℕ} {found : α}
    (hfound : list[index]? = some found) : (list ++ others)[index]? = some found := by
  rwa [getElem?_append_left (getElem?_eq_some_iff.mp hfound).1]

theorem getElem?_append_singleton {list : List α} {index : ℕ} {last found : α}
    (hfound : (list ++ [last])[index]? = some found) :
    list[index]? = some found ∨ index = list.length ∧ found = last := by
  rw [getElem?_append] at hfound
  split at hfound
  · exact .inl hfound
  · obtain ⟨hlen, hval⟩ := getElem?_eq_some_iff.mp hfound
    rw [length_singleton] at hlen
    rw [getElem_singleton] at hval
    exact .inr ⟨by omega, hval.symm⟩

end List

/-! ## Invariants of bounded loops

A `for` loop whose body may fail is a monadic fold over a range of indexes. The rules below
carry an invariant indexed by the loop counter from the entry of the loop to its exit, and
show on the way that no iteration fails. -/

namespace Loops

variable {σ ε : Type*} {motive : ℕ → σ → Prop}
  (body : σ → ℕ → Except ε σ)

/-- A loop over `start, …, start + count - 1` succeeds and ends in its invariant when every
iteration succeeds and advances the invariant. -/
theorem foldlM_range'_ok (start count : ℕ) (init : σ) (hinit : motive start init)
    (hstep : ∀ index state, start ≤ index → index < start + count → motive index state →
      ∃ next, body state index = .ok next ∧ motive (index + 1) next) :
    ∃ final, (List.range' start count).foldlM body init = .ok final ∧
      motive (start + count) final := by
  induction count generalizing start init with
  | zero => exact ⟨init, rfl, hinit⟩
  | succ count ih =>
    obtain ⟨next, hnext, hmotive⟩ := hstep start init le_rfl (by omega) hinit
    obtain ⟨final, hfinal, hexit⟩ := ih (start + 1) next hmotive fun index state hlower hupper =>
      hstep index state (by omega) (by omega)
    refine ⟨final, ?_, ?_⟩
    · rw [List.range'_succ, foldlM_cons, hnext]
      exact hfinal
    · rwa [show start + (count + 1) = start + 1 + count by omega]

theorem foldlM_range_ok (count : ℕ) (init : σ) (hinit : motive 0 init)
    (hstep : ∀ index state, index < count → motive index state →
      ∃ next, body state index = .ok next ∧ motive (index + 1) next) :
    ∃ final, (List.range count).foldlM body init = .ok final ∧ motive count final := by
  rw [range_eq_range']
  obtain ⟨final, hfinal, hexit⟩ := foldlM_range'_ok (motive := motive) body 0 count init hinit
    fun index state _ hupper => hstep index state (by omega)
  exact ⟨final, hfinal, by simpa using hexit⟩

/-- A loop over a list, with an invariant indexed by the elements already visited. -/
theorem foldlM_list_ok {α : Type*} {motive : List α → σ → Prop} (body : σ → α → Except ε σ)
    (list : List α) (init : σ) (hinit : motive [] init)
    (hstep : ∀ done element state, element ∈ list → motive done state →
      ∃ next, body state element = .ok next ∧ motive (done ++ [element]) next) :
    ∃ final, list.foldlM body init = .ok final ∧ motive list final := by
  suffices ∀ done, motive done init →
      ∃ final, list.foldlM body init = .ok final ∧ motive (done ++ list) final from
    this [] hinit
  clear hinit
  induction list generalizing init with
  | nil => exact fun done hdone => ⟨init, rfl, by rwa [append_nil]⟩
  | cons element list ih =>
    intro done hdone
    obtain ⟨next, hnext, hmotive⟩ := hstep done element init (by simp) hdone
    obtain ⟨final, hfinal, hexit⟩ := ih next (fun done other state hother =>
      hstep done other state (mem_cons_of_mem _ hother)) (done ++ [element]) hmotive
    refine ⟨final, ?_, by rwa [append_assoc] at hexit⟩
    rw [foldlM_cons, hnext]
    exact hfinal

/-- The same rule for a loop whose body cannot fail. -/
theorem foldl_range_induction (body : σ → ℕ → σ) (count : ℕ) (init : σ) (hinit : motive 0 init)
    (hstep : ∀ index state, index < count → motive index state →
      motive (index + 1) (body state index)) :
    motive count ((List.range count).foldl body init) := by
  induction count with
  | zero => exact hinit
  | succ count ih =>
    rw [range_succ, foldl_append]
    exact hstep count _ (by omega) (ih fun index state hidx => hstep index state (by omega))

/-- A `map` whose body succeeds on every element, position by position. -/
theorem mapM_ok {α β : Type*} (list : List α) (default : α) {defaultResult : β}
    (f : α → Except ε β)
    (hok : ∀ index, index < list.length → ∃ result, f (list.getD index default) = .ok result) :
    ∃ results, list.mapM f = .ok results ∧ results.length = list.length ∧
      ∀ index, index < list.length →
        f (list.getD index default) = .ok (results.getD index defaultResult) := by
  induction list with
  | nil => exact ⟨[], rfl, rfl, fun index hidx => absurd hidx (Nat.not_lt_zero index)⟩
  | cons head tail ih =>
    obtain ⟨first, hfst⟩ := hok 0 (Nat.zero_lt_succ _)
    obtain ⟨rest, hrest, hlen, hresults⟩ := ih fun index hidx =>
      hok (index + 1) (Nat.succ_lt_succ hidx)
    have hhead : f head = .ok first := hfst
    refine ⟨first :: rest, ?_, by rw [length_cons, length_cons, hlen], ?_⟩
    · rw [mapM_cons, hhead, hrest]
      rfl
    · intro index hidx
      cases index with
      | zero => exact hhead
      | succ index => exact hresults index (Nat.lt_of_succ_lt_succ hidx)

end Loops
