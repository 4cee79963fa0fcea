import SignalProtocol.Library.Results

/-! # Conditions before and after a computation that may stop

A condition on the state before a computation, one for each value that it returns, and one for the
states at which it stops with an error. -/

namespace Results

universe u

variable {ε σ α β : Type u} {first : EStateM ε σ β} {invariant : σ → Prop}

/-- From a state with `pre`, the computation returns into `post` or stops in `stop`. -/
def Triple (pre : σ → Prop) (computation : EStateM ε σ α) (post : α → σ → Prop)
    (stop : σ → Prop) : Prop :=
  ∀ state, pre state →
    (∀ value next, computation state = .ok value next → post value next) ∧
      ∀ error next, computation state = .error error next → stop next

namespace Triple

variable {pre weaker : σ → Prop} {computation : EStateM ε σ α} {post stronger : α → σ → Prop}
variable {stop : σ → Prop}

theorem weaken (hvalid : Triple weaker computation stronger stop)
    (hpre : ∀ state, pre state → weaker state)
    (hpost : ∀ value state, stronger value state → post value state) :
    Triple pre computation post stop := by
  intro state hstate
  obtain ⟨hok, herr⟩ := hvalid state (hpre state hstate)
  exact ⟨fun value next hrun => hpost value next (hok value next hrun), herr⟩

theorem weaken_post (hvalid : Triple pre computation stronger stop)
    (hpost : ∀ value state, stronger value state → post value state) :
    Triple pre computation post stop :=
  hvalid.weaken (fun _ hstate => hstate) hpost

protected theorem pure (value : α) (hpost : ∀ state, pre state → post value state) :
    Triple pre (pure value : EStateM ε σ α) post stop := by
  intro state hstate
  refine ⟨?_, ?_⟩
  · intro returned next hrun
    cases hrun
    exact hpost state hstate
  · rintro error next ⟨⟩

protected theorem throw (error : ε) (hstop : ∀ state, pre state → stop state) :
    Triple pre (throw error : EStateM ε σ α) post stop := by
  intro state hstate
  refine ⟨?_, ?_⟩
  · rintro value next ⟨⟩
  · intro stopped next hrun
    cases hrun
    exact hstop state hstate

protected theorem get {post : σ → σ → Prop} (hpost : ∀ state, pre state → post state state) :
    Triple pre (get : EStateM ε σ σ) post stop := by
  intro state hstate
  refine ⟨?_, ?_⟩
  · intro returned next hrun
    cases hrun
    exact hpost state hstate
  · rintro error next ⟨⟩

/-- The value that is read is the state, which the condition holds of. -/
theorem get_eq : Triple pre (get : EStateM ε σ σ) (fun found state => found = state ∧ pre state)
    stop :=
  .get fun _ hstate => ⟨rfl, hstate⟩

protected theorem modify {post : PUnit → σ → Prop} (update : σ → σ)
    (hpost : ∀ state, pre state → post ⟨⟩ (update state)) :
    Triple pre (modify update : EStateM ε σ PUnit) post stop := by
  intro state hstate
  refine ⟨?_, ?_⟩
  · intro returned next hrun
    cases hrun
    exact hpost state hstate
  · rintro error next ⟨⟩

protected theorem fromResult {result : Except ε α}
    (hpost : ∀ value, result = .ok value → ∀ state, pre state → post value state)
    (hstop : ∀ state, pre state → stop state) :
    Triple pre (fromResult result : EStateM ε σ α) post stop := by
  intro state hstate
  cases result with
  | ok value =>
    refine ⟨?_, ?_⟩
    · intro returned next hrun
      cases hrun
      exact hpost value rfl state hstate
    · rintro error next ⟨⟩
  | error error =>
    refine ⟨?_, ?_⟩
    · rintro value next ⟨⟩
    · intro stopped next hrun
      cases hrun
      exact hstop state hstate

theorem bind {middle : β → σ → Prop} {next : β → EStateM ε σ α}
    (hfst : Triple pre first middle stop)
    (hnext : ∀ value, Triple (middle value) (next value) post stop) :
    Triple pre (first >>= next) post stop := by
  intro state hstate
  obtain ⟨hok, herr⟩ := hfst state hstate
  rw [bind_apply]
  cases hrun : first state with
  | ok value between => exact hnext value between (hok value between hrun)
  | error error between =>
    refine ⟨?_, ?_⟩
    · rintro value final ⟨⟩
    · intro stopped final hstop
      cases hstop
      exact herr error between hrun

/-- One invariant through both parts of a sequence. -/
theorem andThen {next : β → EStateM ε σ α}
    (hfst : Triple invariant first (fun _ => invariant) stop)
    (hnext : ∀ value, Triple invariant (next value) post stop) :
    Triple invariant (first >>= next) post stop :=
  hfst.bind hnext

/-- An invariant of a loop, which also says what is left of the list. -/
theorem forM {left : List β → σ → Prop} {body : β → EStateM ε σ PUnit} (entries : List β)
    (hbody : ∀ entry rest, Triple (left (entry :: rest)) (body entry) (fun _ => left rest) stop) :
    Triple (left entries) (entries.forM body) (fun _ => left []) stop := by
  induction entries with
  | nil => exact .pure _ fun _ hleft => hleft
  | cons entry rest ih =>
    change Triple (left (entry :: rest)) (body entry >>= fun _ => rest.forM body) _ _
    exact (hbody entry rest).bind fun _ => ih

theorem ite {condition : Prop} [Decidable condition] {otherwise : EStateM ε σ α}
    (hthen : condition → Triple pre computation post stop)
    (helse : ¬ condition → Triple pre otherwise post stop) :
    Triple pre (if condition then computation else otherwise) post stop := by
  split
  case isTrue hcondition => exact hthen hcondition
  case isFalse hcondition => exact helse hcondition

/-- A caught error is a value, and the state is one at which the computation stops. -/
theorem caught {after : Except ε α → σ → Prop} (hvalid : Triple pre computation post stop)
    (hok : ∀ value state, post value state → after (.ok value) state)
    (herr : ∀ error state, stop state → after (.error error) state) {other : σ → Prop} :
    Triple pre (Results.caught computation) after other := by
  intro state hstate
  obtain ⟨hreturn, hstop⟩ := hvalid state hstate
  rw [Results.caught]
  cases hrun : computation state with
  | ok value next =>
    refine ⟨?_, ?_⟩
    · intro returned final hfinal
      cases hfinal
      exact hok value next (hreturn value next hrun)
    · rintro error final ⟨⟩
  | error error next =>
    refine ⟨?_, ?_⟩
    · intro returned final hfinal
      cases hfinal
      exact herr error next (hstop error next hrun)
    · rintro error final ⟨⟩

/-- On a copy, a computation that stops leaves the state as it was. -/
theorem onCandidate {anywhere : σ → Prop} (hvalid : Triple pre computation post anywhere)
    (hstop : ∀ state, pre state → stop state) :
    Triple pre (Results.onCandidate computation) post stop := by
  intro state hstate
  obtain ⟨hok, -⟩ := hvalid state hstate
  rw [Results.onCandidate]
  cases hrun : computation state with
  | ok value next =>
    refine ⟨?_, ?_⟩
    · intro returned final hfinal
      cases hfinal
      exact hok value next hrun
    · rintro error final ⟨⟩
  | error error next =>
    refine ⟨?_, ?_⟩
    · rintro value final ⟨⟩
    · intro stopped final hfinal
      cases hfinal
      exact hstop state hstate

/-- A fact beside the condition on the state may be used for the computation. -/
theorem assuming {fact : Prop} (hvalid : fact → Triple pre computation post stop) :
    Triple (fun state => pre state ∧ fact) computation post stop := by
  rintro state ⟨hstate, hfact⟩
  exact hvalid hfact state hstate

/-- A condition that every call keeps, whether it returns or stops. -/
theorem of_finalState
    (hkeeps : ∀ state, invariant state → invariant (Results.finalState (computation state))) :
    Triple invariant computation (fun _ => invariant) invariant := by
  intro state hstate
  have hfinal := hkeeps state hstate
  refine ⟨fun value next hrun => ?_, fun error next hrun => ?_⟩
  · rwa [hrun] at hfinal
  · rwa [hrun] at hfinal

/-- A condition that holds of every state where the computation may end. -/
theorem finalState (hvalid : Triple pre computation (fun _ => stop) stop) {state : σ}
    (hstate : pre state) : stop (finalState (computation state)) := by
  obtain ⟨hok, herr⟩ := hvalid state hstate
  cases hrun : computation state with
  | ok value next => exact hok value next hrun
  | error error next => exact herr error next hrun

end Triple

end Results
