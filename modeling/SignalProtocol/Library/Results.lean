import Mathlib.Tactic.Common

/-! # Computations that may fail

Rewriting rules for `Except`, and for `EStateM`, whose failures keep the state that the
computation had reached. -/

namespace Results

open List

universe u v w

section Except

variable {ε : Type u} {α β : Type v}

@[simp] theorem ok_bind (value : α) (next : α → Except ε β) :
    (Except.ok value >>= next) = next value := rfl

variable (error : ε)

@[simp] theorem error_bind (next : α → Except ε β) :
    ((Except.error error : Except ε α) >>= next) = .error error := rfl

@[simp] theorem pure_eq_ok (value : α) : (pure value : Except ε α) = .ok value := rfl

@[simp] theorem throw_eq_error : (throw error : Except ε α) = .error error := rfl

theorem bind_eq_ok_iff {first : Except ε α} {next : α → Except ε β} {result : β} :
    first >>= next = .ok result ↔ ∃ value, first = .ok value ∧ next value = .ok result := by
  cases first <;> simp

theorem mapM_cons_eq_ok {f : α → Except ε β} {entry : α} {entries : List α} {results : List β}
    (hresults : (entry :: entries).mapM f = .ok results) :
    ∃ first rest, f entry = .ok first ∧ entries.mapM f = .ok rest ∧ results = first :: rest := by
  rw [mapM_cons] at hresults
  obtain ⟨first, hfst, hrest⟩ := bind_eq_ok_iff.mp hresults
  obtain ⟨rest, hrest, hcons⟩ := bind_eq_ok_iff.mp hrest
  exact ⟨first, rest, hfst, hrest, (Except.ok.inj hcons).symm⟩

variable {step : α → β → Except ε α} {entries : List β}

/-- What each step of a run keeps, the run keeps. -/
theorem foldlM_keeps (holds : α → Prop)
    {first final : α}
    (hstep : ∀ value entry next, entry ∈ entries → holds value → step value entry = .ok next →
      holds next)
    (hfst : holds first) (hrun : entries.foldlM step first = .ok final) : holds final := by
  induction entries generalizing first with
  | nil =>
    cases hrun
    exact hfst
  | cons entry entries ih =>
    rw [foldlM_cons, bind_eq_ok_iff] at hrun
    obtain ⟨next, hnext, hrest⟩ := hrun
    have hkept : holds next := hstep first entry next mem_cons_self hfst hnext
    refine ih (fun value other result hmem => ?_) hkept hrest
    exact hstep value other result (mem_cons_of_mem _ hmem)

/-- A view of the values that each step of a run updates by itself. -/
theorem foldlM_view {γ : Type w} (view : α → γ) {update : γ → β → γ} {first final : α}
    (hstep : ∀ value entry next, step value entry = .ok next →
      view next = update (view value) entry) (hrun : entries.foldlM step first = .ok final) :
    view final = entries.foldl update (view first) := by
  induction entries generalizing first with
  | nil =>
    cases hrun
    rfl
  | cons entry entries ih =>
    rw [foldlM_cons, bind_eq_ok_iff] at hrun
    obtain ⟨next, hnext, hrest⟩ := hrun
    rw [ih hrest, hstep first entry next hnext, foldl_cons]

end Except

section EStateM

variable {ε σ α β : Type u}

/-- Run a computation that does not touch the state. -/
def fromResult (result : Except ε α) : EStateM ε σ α := fun state =>
  match result with
  | .ok value => .ok value state
  | .error error => .error error state

/-- Run a computation on a copy of the state, which replaces the state on success only. -/
def onCandidate (computation : EStateM ε σ α) : EStateM ε σ α := fun state =>
  match computation state with
  | .ok value candidate => .ok value candidate
  | .error error _ => .error error state

/-- Run a computation and return the error that it stops with as a value. -/
def caught (computation : EStateM ε σ α) : EStateM ε σ (Except ε α) := fun state =>
  match computation state with
  | .ok value next => .ok (.ok value) next
  | .error error next => .ok (.error error) next

/-- The state that a run leaves, whether it failed or not. -/
def finalState : EStateM.Result ε σ α → σ
  | .ok _ state => state
  | .error _ state => state

/-- The value of a run that did not fail. -/
def valueOf? : EStateM.Result ε σ α → Option α
  | .ok value _ => some value
  | .error _ _ => none

theorem valueOf?_eq_some_iff {result : EStateM.Result ε σ α} {value : α} :
    valueOf? result = some value ↔ ∃ final, result = .ok value final := by
  cases result <;> simp [valueOf?]

@[simp] theorem finalState_ok (value : α) (state : σ) :
    finalState (.ok value state : EStateM.Result ε σ α) = state := rfl

@[simp] theorem finalState_error (error : ε) (state : σ) :
    finalState (.error error state : EStateM.Result ε σ α) = state := rfl

theorem bind_apply (first : EStateM ε σ α) (next : α → EStateM ε σ β) (state : σ) :
    (first >>= next) state =
      match first state with
      | .ok value state => next value state
      | .error error state => .error error state := rfl

variable {next : α → EStateM ε σ β} {state : σ}

theorem bind_apply_ok {first : EStateM ε σ α} {middle : σ} {value : α}
    (hfst : first state = .ok value middle) : (first >>= next) state = next value middle := by
  rw [bind_apply, hfst]

theorem bind_apply_error {first : EStateM ε σ α} {middle : σ}
    {error : ε} (hfst : first state = .error error middle) :
    (first >>= next) state = .error error middle := by
  rw [bind_apply, hfst]

theorem bind_apply_eq_ok_iff {first : EStateM ε σ α} {final : σ} {result : β} :
    (first >>= next) state = .ok result final ↔
      ∃ value middle, first state = .ok value middle ∧ next value middle = .ok result final := by
  rw [bind_apply]
  cases first state <;> simp

@[simp] theorem get_bind (next : σ → EStateM ε σ β) (state : σ) :
    ((get : EStateM ε σ σ) >>= next) state = next state state := rfl

variable (update : σ → σ)

@[simp] theorem modify_bind (next : PUnit → EStateM ε σ β) (state : σ) :
    ((modify update : EStateM ε σ PUnit) >>= next) state = next ⟨⟩ (update state) := rfl

@[simp] theorem pure_apply (value : α) (state : σ) :
    (pure value : EStateM ε σ α) state = .ok value state := rfl

@[simp] theorem throw_apply (error : ε) (state : σ) :
    (throw error : EStateM ε σ α) state = .error error state := rfl

@[simp] theorem modify_apply (state : σ) :
    (modify update : EStateM ε σ PUnit) state = .ok ⟨⟩ (update state) := rfl

@[simp] theorem fromResult_ok (value : α) (state : σ) :
    (fromResult (.ok value) : EStateM ε σ α) state = .ok value state := rfl

@[simp] theorem fromResult_error (error : ε) (state : σ) :
    (fromResult (.error error) : EStateM ε σ α) state = .error error state := rfl

@[simp] theorem fromResult_ok_bind (value : α) (next : α → EStateM ε σ β) (state : σ) :
    (fromResult (.ok value) >>= next : EStateM ε σ β) state = next value state := rfl

@[simp] theorem fromResult_error_bind (error : ε) (next : α → EStateM ε σ β) (state : σ) :
    (fromResult (.error error) >>= next : EStateM ε σ β) state = .error error state := rfl

variable {result : Except ε α}

theorem fromResult_bind_eq_ok_iff {final : σ} {value : β} :
    (fromResult result >>= next : EStateM ε σ β) state = .ok value final ↔
      ∃ first, result = .ok first ∧ next first state = .ok value final := by
  cases result with
  | ok first => simp
  | error error => simp

theorem fromResult_eq_ok_iff {final : σ} {value : α} :
    (fromResult result : EStateM ε σ α) state = .ok value final ↔
      result = .ok value ∧ state = final := by
  cases result with
  | ok first => simp
  | error error => simp

@[simp] theorem finalState_fromResult (result : Except ε α) (state : σ) :
    finalState ((fromResult result : EStateM ε σ α) state) = state := by
  cases result <;> rfl

/-- A check keeps what holds before it, when its success does. -/
theorem finalState_fromResult_bind (keeps : σ → Prop) (hstate : keeps state)
    (hnext : ∀ value, result = .ok value → keeps (finalState (next value state))) :
    keeps (finalState ((fromResult result >>= next : EStateM ε σ β) state)) := by
  cases result with
  | ok value => exact hnext value rfl
  | error error => exact hstate

/-- A failed run leaves the state as it was. -/
def FailsClean (state : σ) (result : EStateM.Result ε σ α) : Prop :=
  ∀ error final, result = .error error final → final = state

theorem failsClean_ok {final : σ} {value : α} :
    FailsClean state (.ok value final : EStateM.Result ε σ α) := nofun

theorem failsClean_error {error : ε} :
    FailsClean state (.error error state : EStateM.Result ε σ α) := by
  rintro _ _ ⟨⟩
  rfl

/-- Checks come before the first write. -/
theorem failsClean_fromResult_bind
    (hnext : ∀ value, result = .ok value → FailsClean state (next value state)) :
    FailsClean state ((fromResult result >>= next : EStateM ε σ β) state) := by
  cases result with
  | ok value => exact hnext value rfl
  | error error => exact failsClean_error

theorem finalState_of_failsClean {result : EStateM.Result ε σ α} {final : σ} {error : ε}
    (hclean : FailsClean state result) (herr : result = .error error final) :
    finalState result = state := by
  rw [herr, finalState_error, hclean error final herr]

/-- A continuation that leaves the state alone. -/
theorem finalState_bind_of_same {first : EStateM ε σ α}
    (hnext : ∀ value state, finalState (next value state) = state) (state : σ) :
    finalState ((first >>= next) state) = finalState (first state) := by
  rw [bind_apply]
  cases first state with
  | ok value state => exact hnext value state
  | error error state => rfl

variable {computation : EStateM ε σ α} {f : α → β}

theorem map_apply_ok {final : σ} {value : α} (hok : computation state = .ok value final) :
    (f <$> computation) state = .ok (f value) final := by
  change EStateM.map f computation state = _
  rw [EStateM.map, hok]

theorem map_apply_error {final : σ} {error : ε} (herr : computation state = .error error final) :
    (f <$> computation) state = .error error final := by
  change EStateM.map f computation state = _
  rw [EStateM.map, herr]

@[simp] theorem finalState_map (f : α → β) (computation : EStateM ε σ α) (state : σ) :
    finalState ((f <$> computation) state) = finalState (computation state) := by
  cases hres : computation state with
  | ok value final => rw [map_apply_ok hres, finalState_ok, finalState_ok]
  | error error final => rw [map_apply_error hres, finalState_error, finalState_error]

theorem onCandidate_ok {candidate : σ} {value : α} (hok : computation state = .ok value candidate) :
    onCandidate computation state = .ok value candidate := by
  rw [onCandidate, hok]

end EStateM

/-! ## The errors of a computation

Which errors a result can hold, and which ones a computation can stop with, from whatever state. -/

variable {condition : Prop}

section Except

variable {ε : Type*} {α β γ : Type u}

/-- The result is a value, or one of these errors. -/
def FailsOnly (errors : ε → Prop) (result : Except ε α) : Prop :=
  ∀ error, result = .error error → errors error

variable {errors : ε → Prop}

namespace FailsOnly

protected theorem pure (value : α) : FailsOnly errors (pure value : Except ε α) := by
  rintro error ⟨⟩

protected theorem throw {error : ε} (herr : errors error) :
    FailsOnly errors (throw error : Except ε α) := by
  rintro _ ⟨⟩
  exact herr

theorem bind {first : Except ε α} {next : α → Except ε β} (hfst : FailsOnly errors first)
    (hnext : ∀ value, FailsOnly errors (next value)) : FailsOnly errors (first >>= next) := by
  cases first with
  | ok value => exact hnext value
  | error error =>
    intro stopped hstop
    cases hstop
    exact hfst error rfl

theorem ite [Decidable condition] {first second : Except ε α}
    (hfst : FailsOnly errors first) (hsnd : FailsOnly errors second) :
    FailsOnly errors (if condition then first else second) := by
  split
  case isTrue => exact hfst
  case isFalse => exact hsnd

theorem foldlM {step : α → β → Except ε α}
    (hstep : ∀ value entry, FailsOnly errors (step value entry)) (entries : List β) (first : α) :
    FailsOnly errors (entries.foldlM step first) := by
  induction entries generalizing first with
  | nil => exact .pure first
  | cons entry entries ih =>
    rw [foldlM_cons]
    exact (hstep first entry).bind ih

theorem mapM {step : α → Except ε β} (hstep : ∀ entry, FailsOnly errors (step entry))
    (entries : List α) : FailsOnly errors (entries.mapM step) := by
  induction entries with
  | nil =>
    rw [mapM_nil]
    exact .pure []
  | cons entry entries ih =>
    rw [mapM_cons]
    exact (hstep entry).bind fun value => ih.bind fun values => .pure (value :: values)

end FailsOnly

end Except

section EStateM

variable {ε σ α β : Type u} {errors : ε → Prop}

/-- Whatever the state, the computation stops only with one of these errors. -/
def StopsOnly (errors : ε → Prop) (computation : EStateM ε σ α) : Prop :=
  ∀ state error next, computation state = .error error next → errors error

namespace StopsOnly

protected theorem pure (value : α) : StopsOnly errors (pure value : EStateM ε σ α) := by
  rintro state error next ⟨⟩

protected theorem throw {error : ε} (herr : errors error) :
    StopsOnly errors (throw error : EStateM ε σ α) := by
  rintro state _ next ⟨⟩
  exact herr

protected theorem get : StopsOnly errors (get : EStateM ε σ σ) := by
  rintro state error next ⟨⟩

protected theorem set (value : σ) : StopsOnly errors (set value : EStateM ε σ PUnit) := by
  rintro state error next ⟨⟩

protected theorem modify (update : σ → σ) :
    StopsOnly errors (modify update : EStateM ε σ PUnit) := by
  rintro state error next ⟨⟩

theorem bind {first : EStateM ε σ α} {next : α → EStateM ε σ β} (hfst : StopsOnly errors first)
    (hnext : ∀ value, StopsOnly errors (next value)) : StopsOnly errors (first >>= next) := by
  intro state error final hstop
  rw [bind_apply] at hstop
  cases hrun : first state with
  | ok value middle =>
    rw [hrun] at hstop
    exact hnext value middle error final hstop
  | error stopped middle =>
    rw [hrun] at hstop
    cases hstop
    exact hfst state error final hrun

theorem ite [Decidable condition] {first second : EStateM ε σ α}
    (hfst : StopsOnly errors first) (hsnd : StopsOnly errors second) :
    StopsOnly errors (if condition then first else second) := by
  split
  case isTrue => exact hfst
  case isFalse => exact hsnd

protected theorem fromResult {result : Except ε α} (hres : FailsOnly errors result) :
    StopsOnly errors (fromResult result : EStateM ε σ α) := by
  intro state error next hstop
  cases result with
  | ok value => cases hstop
  | error stopped =>
    cases hstop
    exact hres error rfl

end StopsOnly

end EStateM

end Results
