import SignalProtocol.Library.Results

/-! # Simulations between computations

Two computations over related states, which return related values or stop with the same error, and
leave related states. -/

namespace Results

open List

universe u

variable {ε σ τ α β γ δ : Type u} {entries : List α} {others : List β}

variable {leftNext : α → EStateM ε σ γ} {weaker : α → β → Prop} {leftMap : α → γ}
  {rightNext : β → EStateM ε τ δ} {rightMap : β → δ}

/-- Related values and the same errors, in related states. -/
inductive Agree (states : σ → τ → Prop) (values : α → β → Prop) :
    EStateM.Result ε σ α → EStateM.Result ε τ β → Prop where
  | ok {first second value other} (hvalues : values value other) (hstates : states first second) :
      Agree states values (.ok value first) (.ok other second)
  | error {first second error} (hstates : states first second) :
      Agree states values (.error error first) (.error error second)

/-- From related states, the two computations agree. -/
def Simulates (states : σ → τ → Prop) (values : α → β → Prop) (left : EStateM ε σ α)
    (right : EStateM ε τ β) : Prop :=
  ∀ first second, states first second → Agree states values (left first) (right second)

variable {states : σ → τ → Prop} {values : α → β → Prop} {results : γ → δ → Prop}
variable {left : EStateM ε σ α} {right : EStateM ε τ β}
variable {first : σ} {second : τ}

theorem Agree.bind (hagree : Agree states values (left first) (right second))
    (hnext : ∀ value other, values value other →
      Simulates states results (leftNext value) (rightNext other)) :
    Agree states results ((left >>= leftNext) first) ((right >>= rightNext) second) := by
  rw [bind_apply, bind_apply]
  cases hleft : left first with
  | ok value middle =>
    cases hright : right second with
    | ok other after =>
      rw [hleft, hright] at hagree
      cases hagree with
      | ok hvals hstates => exact hnext value other hvals middle after hstates
    | error error after =>
      rw [hleft, hright] at hagree
      cases hagree
  | error error middle =>
    cases hright : right second with
    | ok other after =>
      rw [hleft, hright] at hagree
      cases hagree
    | error stopped after =>
      rw [hleft, hright] at hagree
      cases hagree with
      | error hstates => exact .error hstates

theorem Agree.weaken {leftResult : EStateM.Result ε σ α} {rightResult : EStateM.Result ε τ β}
    (hagree : Agree states values leftResult rightResult)
    (hvals : ∀ value other, values value other → weaker value other) :
    Agree states weaker leftResult rightResult := by
  cases hagree with
  | ok hrelated hstates => exact .ok (hvals _ _ hrelated) hstates
  | error hstates => exact .error hstates

theorem Agree.map (hagree : Agree states values (left first) (right second))
    (hmap : ∀ value other, values value other → results (leftMap value) (rightMap other)) :
    Agree states results ((leftMap <$> left) first) ((rightMap <$> right) second) := by
  cases hleft : left first with
  | ok value middle =>
    cases hright : right second with
    | ok other after =>
      rw [hleft, hright] at hagree
      rw [map_apply_ok hleft, map_apply_ok hright]
      cases hagree with
      | ok hvals hafter => exact .ok (hmap value other hvals) hafter
    | error error after =>
      rw [hleft, hright] at hagree
      cases hagree
  | error error middle =>
    cases hright : right second with
    | ok other after =>
      rw [hleft, hright] at hagree
      cases hagree
    | error stopped after =>
      rw [hleft, hright] at hagree
      rw [map_apply_error hleft, map_apply_error hright]
      cases hagree with
      | error hafter => exact .error hafter

namespace Simulates

theorem bind (hfst : Simulates states values left right)
    (hnext : ∀ value other, values value other →
      Simulates states results (leftNext value) (rightNext other)) :
    Simulates states results (left >>= leftNext) (right >>= rightNext) :=
  fun first second hstates => (hfst first second hstates).bind hnext

protected theorem pure {value : α} {other : β} (hvals : values value other) :
    Simulates states values (pure value : EStateM ε σ α) (pure other) :=
  fun _ _ hstates => .ok hvals hstates

protected theorem throw (error : ε) :
    Simulates states values (throw error : EStateM ε σ α) (throw error) :=
  fun _ _ hstates => .error hstates

theorem weaken (hfst : Simulates states values left right)
    (hvals : ∀ value other, values value other → weaker value other) :
    Simulates states weaker left right :=
  fun first second hstates => (hfst first second hstates).weaken hvals

theorem map (hfst : Simulates states values left right)
    (hmap : ∀ value other, values value other → results (leftMap value) (rightMap other)) :
    Simulates states results (leftMap <$> left) (rightMap <$> right) :=
  fun first second hstates => (hfst first second hstates).map hmap

theorem ite {condition : Prop} [Decidable condition] {leftElse : EStateM ε σ α}
    {rightElse : EStateM ε τ β} (hthen : condition → Simulates states values left right)
    (helse : ¬ condition → Simulates states values leftElse rightElse) :
    Simulates states values (if condition then left else leftElse)
      (if condition then right else rightElse) := by
  split
  case isTrue hcondition => exact hthen hcondition
  case isFalse hcondition => exact helse hcondition

theorem fromResult (result : Except ε α) :
    Simulates states (· = ·) (fromResult result : EStateM ε σ α) (Results.fromResult result) := by
  intro first second hstates
  cases result with
  | ok value => exact .ok rfl hstates
  | error error => exact .error hstates

section

variable (hentries : List.Forall₂ values entries others)

include hentries

/-- Two folds over related entries. -/
theorem foldlM {leftStep : γ → α → EStateM ε σ γ} {rightStep : δ → β → EStateM ε τ δ}
    (hstep : ∀ value other entry otherEntry, results value other → values entry otherEntry →
      Simulates states results (leftStep value entry) (rightStep other otherEntry)) {value : γ}
    {other : δ} (hvals : results value other) :
    Simulates states results (entries.foldlM leftStep value) (others.foldlM rightStep other) := by
  induction hentries generalizing value other with
  | nil => exact .pure hvals
  | cons hhead _ ih =>
    rw [foldlM_cons, foldlM_cons]
    exact bind (hstep value other _ _ hvals hhead) fun next otherNext hnext => ih hnext

/-- Two maps over related entries. -/
theorem mapM {leftStep : α → EStateM ε σ γ} {rightStep : β → EStateM ε τ δ}
    (hstep : ∀ entry other, values entry other →
      Simulates states results (leftStep entry) (rightStep other)) :
    Simulates states (List.Forall₂ results) (entries.mapM leftStep) (others.mapM rightStep) := by
  induction hentries with
  | nil => exact .pure .nil
  | cons hhead _ ih =>
    rw [mapM_cons, mapM_cons]
    refine bind (hstep _ _ hhead) fun head otherHead hheads => ?_
    refine bind ih fun tail otherTail htails => ?_
    exact .pure (.cons hheads htails)

theorem forM {leftStep : α → EStateM ε σ PUnit} {rightStep : β → EStateM ε τ PUnit}
    (hstep : ∀ entry other, values entry other →
      Simulates states (fun _ _ => True) (leftStep entry) (rightStep other)) :
    Simulates states (fun _ _ => True) (entries.forM leftStep) (others.forM rightStep) := by
  induction hentries with
  | nil => exact .pure trivial
  | cons hhead _ ih =>
    exact bind (hstep _ _ hhead) fun _ _ _ => ih

end

end Simulates

/-- A map whose computations leave the state. -/
theorem mapM_apply_ok {step : α → EStateM ε σ β} {value : α → β} {state : σ}
    (hstep : ∀ entry ∈ entries, step entry state = .ok (value entry) state) :
    entries.mapM step state = .ok (entries.map value) state := by
  induction entries with
  | nil => rfl
  | cons entry entries ih =>
    obtain ⟨hentry, hentries⟩ := forall_mem_cons.mp hstep
    rw [mapM_cons, bind_apply_ok hentry, bind_apply_ok (ih hentries)]
    rfl

end Results
