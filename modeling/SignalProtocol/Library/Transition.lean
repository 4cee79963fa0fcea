import Mathlib.Logic.Relation
import Mathlib.Data.List.Basic

/-! # Transition systems

Reachable states, the induction rule for invariants, and runs that are given by their events. -/

/-- Initial states and a step relation. -/
structure TransitionSystem (σ : Type*) where
  init : σ → Prop
  step : σ → σ → Prop

namespace TransitionSystem

variable {σ : Type*} {system : TransitionSystem σ} {state : σ}

/-- The states on some run. -/
def Reachable (system : TransitionSystem σ) (state : σ) : Prop :=
  ∃ start, system.init start ∧ Relation.ReflTransGen system.step start state

theorem Reachable.of_init (hinit : system.init state) : system.Reachable state :=
  ⟨state, hinit, .refl⟩

theorem Reachable.step {next : σ} (hreach : system.Reachable state)
    (hstep : system.step state next) : system.Reachable next := by
  obtain ⟨start, hinit, hrun⟩ := hreach
  exact ⟨start, hinit, hrun.tail hstep⟩

/-- A property that holds initially and is preserved by every step holds on every run. -/
theorem Reachable.invariant {motive : σ → Prop} (hreach : system.Reachable state)
    (hinit : ∀ start, system.init start → motive start)
    (hstep : ∀ before after, motive before → system.step before after → motive after) :
    motive state := by
  obtain ⟨start, hstart, hrun⟩ := hreach
  induction hrun with
  | refl => exact hinit start hstart
  | tail _ hlast ih => exact hstep _ _ ih hlast

/-- The events of a run, each of which can happen, lead along the steps. -/
theorem reflTransGen_of_foldlM {ε : Type*} {next : σ → ε → Option σ} {events : List ε} {final : σ}
    (hstep : ∀ before event after, next before event = some after → system.step before after)
    (hrun : events.foldlM next state = some final) :
    Relation.ReflTransGen system.step state final := by
  induction events generalizing state with
  | nil =>
    obtain rfl : state = final := by simpa using hrun
    exact .refl
  | cons event events ih =>
    rw [List.foldlM_cons, Option.bind_eq_bind, Option.bind_eq_some_iff] at hrun
    obtain ⟨middle, hmiddle, hrest⟩ := hrun
    exact .head (hstep state event middle hmiddle) (ih hrest)

end TransitionSystem

/-! ## Since

The past operator of temporal logic on the list of events so far: some event happened, and none
of another kind has happened after it. -/

/-- An event with the first property happened, and no event with the second one since. -/
def Since {α : Type*} (happened revoked : α → Prop) (events : List α) : Prop :=
  ∃ before event after, events = before ++ event :: after ∧ happened event ∧
    ∀ later ∈ after, ¬ revoked later

namespace Since

variable {α : Type*} {happened revoked : α → Prop} {events : List α} {event : α}

theorem last (hevent : happened event) : Since happened revoked (events ++ [event]) :=
  ⟨events, event, [], rfl, hevent, by simp⟩

theorem append (hsince : Since happened revoked events)
    (hevent : ¬ revoked event) : Since happened revoked (events ++ [event]) := by
  obtain ⟨before, first, after, rfl, hfst, hafter⟩ := hsince
  refine ⟨before, first, after ++ [event], by simp, hfst, fun later hlater => ?_⟩
  rcases List.mem_append.mp hlater with hlater | hlater
  · exact hafter later hlater
  · rwa [List.mem_singleton.mp hlater]

end Since
