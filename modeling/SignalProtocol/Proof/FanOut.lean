import SignalProtocol.Platform.FanOut

/-! # Requests under one bound

Every slot belongs to one request and every request is in one place, so a stop loses no slot; a
call of `all` reports its tasks behind its barrier. -/

namespace SignalProtocol.FanOut

open List

variable {V E : Type} {limit : ℕ} {detail : Option E → String}

/-! ### Slots -/

namespace RequestWorld

variable {world next : RequestWorld}

/-- The requests by their places, the waiting ones first. -/
def places (world : RequestWorld) : List ℕ :=
  world.fanOut.waiting.map (·.request) ++ world.granted ++ world.running ++ world.settled ++
    world.stopped

/-- Every slot belongs to one request, and every request is in one place. -/
structure Bounded (limit : ℕ) (world : RequestWorld) : Prop where
  slots : world.fanOut.inFlight = world.granted.length + world.running.length
  bound : world.fanOut.inFlight ≤ limit
  busy : world.fanOut.waiting ≠ [] → world.fanOut.inFlight = limit
  ordered : world.fanOut.waiting.Pairwise (·.request < ·.request)
  placed : world.places.Perm (List.range world.requests)

theorem Bounded.of_init : Bounded limit {} :=
  ⟨rfl, Nat.zero_le _, fun hne => absurd rfl hne, .nil, .refl _⟩

section

variable (hbounded : world.Bounded limit)

include hbounded

theorem Bounded.waiting_lt {waiter : Waiter} (hwaiter : waiter ∈ world.fanOut.waiting) :
    waiter.request < world.requests := by
  rw [← mem_range, ← hbounded.placed.mem_iff]
  simp only [places, mem_append, mem_map]
  exact .inl (.inl (.inl (.inl ⟨waiter, hwaiter, rfl⟩)))

theorem Bounded.request (stopSignal : Option ℕ) :
    (world.request limit stopSignal).Bounded limit := by
  have hcount (id : ℕ) := hbounded.placed.count_eq id
  simp only [places, count_append] at hcount
  have hslots := hbounded.slots
  by_cases haborted : world.isAborted stopSignal = true
  · rw [RequestWorld.request, BoundedFanOut.acquire, if_pos haborted]
    refine ⟨hslots, hbounded.bound, hbounded.busy, hbounded.ordered, ?_⟩
    refine perm_iff_count.mpr fun id => ?_
    simp only [places, range_succ, count_append, ← hcount]
    omega
  · by_cases hfree : world.fanOut.inFlight < limit
    · rw [RequestWorld.request, BoundedFanOut.acquire, if_neg haborted, if_pos hfree]
      refine ⟨?_, hfree, fun hne => absurd (hbounded.busy hne) (Nat.ne_of_lt hfree),
        hbounded.ordered, ?_⟩
      · rw [length_append, length_singleton]
        dsimp only
        omega
      · refine perm_iff_count.mpr fun id => ?_
        simp only [places, range_succ, count_append, ← hcount id]
        omega
    · rw [RequestWorld.request, BoundedFanOut.acquire, if_neg haborted, if_neg hfree]
      refine ⟨hslots, hbounded.bound, fun _ => ?_, ?_, ?_⟩
      · exact Nat.le_antisymm hbounded.bound (Nat.le_of_not_lt hfree)
      · refine pairwise_append.mpr ⟨hbounded.ordered, pairwise_singleton _ _, ?_⟩
        intro waiter hwaiter other hother
        rw [mem_singleton.mp hother]
        exact hbounded.waiting_lt hwaiter
      · refine perm_iff_count.mpr fun id => ?_
        simp only [places, range_succ, map_append, map_cons, map_nil,
          count_append, ← hcount id]
        omega

theorem Bounded.resume {request : ℕ} (hgranted : request ∈ world.granted) :
    (world.resume request).Bounded limit := by
  have hslots := hbounded.slots
  have hlen := length_pos_of_mem hgranted
  refine ⟨?_, hbounded.bound, hbounded.busy, hbounded.ordered, ?_⟩
  · rw [RequestWorld.resume, length_erase_of_mem hgranted, length_append, length_singleton]
    dsimp only
    omega
  · refine .trans (perm_iff_count.mpr fun id => ?_) hbounded.placed
    have herase := (perm_cons_erase hgranted).count_eq id
    rw [count_cons] at herase
    simp only [places, RequestWorld.resume, count_append, count_singleton, herase]
    omega

theorem Bounded.settle {request : ℕ} (hrunning : request ∈ world.running) :
    (world.settle request).Bounded limit := by
  have hslots := hbounded.slots
  have hlen := length_pos_of_mem hrunning
  have herase (id : ℕ) := (perm_cons_erase hrunning).count_eq id
  simp only [count_cons] at herase
  rw [RequestWorld.settle, BoundedFanOut.release]
  split
  · next first waiting hwait =>
    have hordered := hbounded.ordered
    rw [hwait] at hordered
    refine ⟨?_, hbounded.bound, fun _ => hbounded.busy (by simp [hwait]), hordered.tail, ?_⟩
    · rw [length_erase_of_mem hrunning, length_append]
      simp only [Option.map_some, Option.toList_some, length_singleton]
      omega
    · refine .trans (perm_iff_count.mpr fun id => ?_) hbounded.placed
      simp only [places, hwait, Option.map_some, Option.toList_some, map_cons,
        count_append, count_cons, count_nil, herase]
      omega
  · next hwait =>
    have hbound := hbounded.bound
    refine ⟨?_, Nat.le_trans (Nat.sub_le _ _) hbound, fun hne => absurd hwait hne,
      hbounded.ordered, ?_⟩
    · rw [length_erase_of_mem hrunning, length_append]
      simp only [Option.map_none, Option.toList_none, length_nil]
      omega
    · refine .trans (perm_iff_count.mpr fun id => ?_) hbounded.placed
      simp only [places, Option.map_none, Option.toList_none, count_append,
        count_singleton, count_nil, herase]
      omega

theorem Bounded.abort (signal : ℕ) : (world.abort signal).Bounded limit := by
  refine ⟨hbounded.slots, hbounded.bound, fun hne => hbounded.busy ?_,
    hbounded.ordered.filter _, ?_⟩
  · intro hnil
    exact hne (by simp [RequestWorld.abort, BoundedFanOut.abandon, hnil])
  · refine .trans (perm_iff_count.mpr fun id => ?_) hbounded.placed
    have hfilter := ((filter_append_perm (fun waiter : Waiter =>
      decide (waiter.stopSignal = some signal)) world.fanOut.waiting).map (·.request)).count_eq id
    simp only [places, RequestWorld.abort, BoundedFanOut.abandon, map_append, count_append,
      ne_eq, decide_not] at hfilter ⊢
    omega

theorem Bounded.step {event : RequestEvent} (hstep : world.step limit event = some next) :
    next.Bounded limit := by
  cases event with
  | request stopSignal => exact Option.some.inj hstep ▸ hbounded.request stopSignal
  | resume request =>
    obtain ⟨hgranted, hnext⟩ := Option.ite_none_right_eq_some.mp hstep
    exact Option.some.inj hnext ▸ hbounded.resume hgranted
  | settle request ok =>
    obtain ⟨hrunning, hnext⟩ := Option.ite_none_right_eq_some.mp hstep
    exact Option.some.inj hnext ▸ hbounded.settle hrunning
  | abort signal => exact Option.some.inj hstep ▸ hbounded.abort signal

end

/-- The waiter with the smallest number gets the slot of a request that ends, else the slot is
free. -/
structure HandsOver (world next : RequestWorld) : Prop where
  passes : ∀ first rest, world.fanOut.waiting = first :: rest →
    next.granted = world.granted ++ [first.request] ∧ next.fanOut.waiting = rest ∧
      next.fanOut.inFlight = world.fanOut.inFlight ∧ ∀ other ∈ rest, first.request < other.request
  frees : world.fanOut.waiting = [] →
    next.granted = world.granted ∧ next.fanOut.inFlight + 1 = world.fanOut.inFlight

theorem Bounded.settle_handsOver (hbounded : world.Bounded limit) {request : ℕ} {ok : Bool}
    (hstep : world.step limit (.settle request ok) = some next) : HandsOver world next := by
  obtain ⟨hrunning, hnext⟩ := Option.ite_none_right_eq_some.mp hstep
  obtain rfl := Option.some.inj hnext
  constructor
  · intro first rest hwait
    have hordered := hbounded.ordered
    rw [hwait] at hordered
    refine ⟨?_, ?_, ?_, (pairwise_cons.mp hordered).1⟩ <;>
      simp [RequestWorld.settle, BoundedFanOut.release, hwait]
  · intro hwait
    have hslots := hbounded.slots
    have hlen := length_pos_of_mem hrunning
    refine ⟨by simp [RequestWorld.settle, BoundedFanOut.release, hwait], ?_⟩
    simp only [RequestWorld.settle, BoundedFanOut.release, hwait]
    omega

/-- A stop keeps every slot, and the waiters of its signal are stopped. -/
structure Abandons (signal : ℕ) (world next : RequestWorld) : Prop where
  inFlight : next.fanOut.inFlight = world.fanOut.inFlight
  granted : next.granted = world.granted
  running : next.running = world.running
  waiting : ∀ waiter, waiter ∈ next.fanOut.waiting ↔
    waiter ∈ world.fanOut.waiting ∧ waiter.stopSignal ≠ some signal
  stopped : ∀ waiter ∈ world.fanOut.waiting, waiter.stopSignal = some signal →
    waiter.request ∈ next.stopped

theorem abort_abandons {signal : ℕ} (hstep : world.step limit (.abort signal) = some next) :
    Abandons signal world next := by
  obtain rfl := Option.some.inj hstep
  refine ⟨rfl, rfl, rfl, fun waiter => ?_, fun waiter hwaiter hsignal => ?_⟩
  · simp [RequestWorld.abort, BoundedFanOut.abandon]
  · refine mem_append_right _ (mem_map.mpr ⟨waiter, ?_, rfl⟩)
    exact mem_filter.mpr ⟨hwaiter, decide_eq_true hsignal⟩

theorem step_stopped {event : RequestEvent} (hstep : world.step limit event = some next) :
    world.stopped ⊆ next.stopped := by
  cases event with
  | request stopSignal =>
    obtain rfl := Option.some.inj hstep
    rw [RequestWorld.request]
    dsimp only
    split
    · exact List.subset_append_left _ _
    · exact List.Subset.refl _
    · exact List.Subset.refl _
  | resume request =>
    obtain ⟨-, hnext⟩ := Option.ite_none_right_eq_some.mp hstep
    exact Option.some.inj hnext ▸ List.Subset.refl _
  | settle request ok =>
    obtain ⟨-, hnext⟩ := Option.ite_none_right_eq_some.mp hstep
    exact Option.some.inj hnext ▸ List.Subset.refl _
  | abort signal => exact Option.some.inj hstep ▸ List.subset_append_left _ _

/-- A stopped request has no other place. -/
theorem Bounded.not_mem_of_stopped (hbounded : world.Bounded limit) {request : ℕ}
    (hstop : request ∈ world.stopped) :
    request ∉ world.granted ∧ request ∉ world.running ∧ request ∉ world.settled := by
  have hnodup := hbounded.placed.nodup_iff.mpr nodup_range
  have hapart := (nodup_append.mp hnodup).2.2
  refine ⟨fun hmem => ?_, fun hmem => ?_, fun hmem => ?_⟩ <;>
    exact hapart request (by simp [hmem]) request hstop rfl

end RequestWorld

/-! ### Calls -/

/-- A call that returned has the outcome of every task, and reports them in input order. -/
structure AllCall.Returned (started : AllCall V E)
    (result : Except (AllError V E) (List V)) : Prop where
  settled : ∀ outcome ∈ started.outcomes, outcome ≠ none
  values : ∀ values, result = .ok values → started.outcomes = values.map fun value =>
    some (.ok value)
  errors : ∀ error, result = .error (.items error) →
    started.outcomes = error.outcomes.map some ∧ error.errors = errorsOf error.outcomes

theorem mapM_itemResult (failure : AllError V E) (outcomes : List (FanOutOutcome V E)) :
    outcomes.mapM (itemResult failure) = .error failure ∨
      ∃ values, outcomes = values.map .ok ∧ outcomes.mapM (itemResult failure) = .ok values := by
  induction outcomes with
  | nil => exact .inr ⟨[], rfl, rfl⟩
  | cons outcome rest ih =>
    rw [mapM_cons]
    cases outcome with
    | error error => exact .inl rfl
    | ok value =>
      obtain hrest | ⟨values, rfl, hrest⟩ := ih
      · rw [hrest]
        exact .inl rfl
      · rw [hrest]
        exact .inr ⟨value :: values, rfl, rfl⟩

theorem mapM_id_eq_some {α : Type} {entries : List (Option α)} {values : List α}
    (hvals : entries.mapM id = some values) : entries = values.map some := by
  induction entries generalizing values with
  | nil =>
    cases hvals
    rfl
  | cons entry rest ih =>
    rw [mapM_cons] at hvals
    obtain ⟨value, hval, hrest⟩ := Option.bind_eq_some_iff.mp hvals
    obtain ⟨others, hothers, hcons⟩ := Option.bind_eq_some_iff.mp hrest
    cases hcons
    rw [ih hothers, map_cons, ← hval]
    rfl

theorem returned_allResult {started : AllCall V E} {outcomes : List (FanOutOutcome V E)}
    (aborted : Bool) (houtcomes : started.outcomes = outcomes.map some)
    (result : Option (Except (AllError V E) (List V))) :
    ({ started with result } : AllCall V E).Returned (allResult detail aborted outcomes) := by
  have hcases := mapM_itemResult
    (if aborted then AllError.stopped else .items (fanOutError detail outcomes)) outcomes
  refine ⟨?_, fun values hvals => ?_, fun error herr => ?_⟩
  · intro outcome hmem hnone
    rw [houtcomes, hnone] at hmem
    simp at hmem
  · obtain hfailed | ⟨others, hothers, hok⟩ := hcases
    · cases hfailed.symm.trans hvals
    · cases hok.symm.trans hvals
      rw [houtcomes, hothers, map_map]
      rfl
  · obtain hfailed | ⟨others, -, hok⟩ := hcases
    · cases aborted with
      | true => cases hfailed.symm.trans herr
      | false =>
        cases hfailed.symm.trans herr
        exact ⟨houtcomes, rfl⟩
    · cases hok.symm.trans herr

namespace FanOutWorld

variable {world next : FanOutWorld V E}

/-- The calls that returned did so behind their barrier. -/
def Calls (world : FanOutWorld V E) : Prop :=
  ∀ call started, world.all call = some started → ∀ result, started.result = some result →
    started.Returned result

theorem Calls.setCall (hcalls : world.Calls) (call : ℕ) {started : AllCall V E}
    (hstart : ∀ result, started.result = some result → started.Returned result) :
    (world.setCall call started).Calls := by
  intro other found hfound
  by_cases hsame : other = call
  · subst hsame
    obtain rfl : started = found :=
      Option.some.inj ((Function.update_self other _ world.all).symm.trans hfound)
    exact hstart
  · exact hcalls other found ((Function.update_of_ne hsame _ _).symm.trans hfound)

theorem Calls.startAll (hcalls : world.Calls) (call items : ℕ) (stopSignal : Option ℕ) :
    (world.startAll call items stopSignal).Calls := by
  refine hcalls.setCall call ?_
  split
  · rintro result ⟨⟩
    refine ⟨fun outcome hmem => absurd hmem not_mem_nil, fun values hvals => ?_,
      fun error herr => ?_⟩
    · cases hvals
    · cases herr
  · nofun

theorem step_keeps {event : FanOutEvent V E} (hcalls : world.Calls)
    (hstep : world.step limit detail event = some next) :
    next.Calls ∧ (next.slots = world.slots ∨
      ∃ event, world.slots.step limit event = some next.slots) := by
  cases event with
  | slots event =>
    obtain ⟨slots, hslots, hnext⟩ := Option.bind_eq_some_iff.mp hstep
    obtain rfl := Option.some.inj hnext
    exact ⟨hcalls, .inr ⟨event, hslots⟩⟩
  | all call items stopSignal =>
    obtain ⟨-, -, hnext⟩ := Option.bind_eq_some_iff.mp hstep
    obtain rfl := Option.some.inj hnext
    exact ⟨hcalls.startAll call items stopSignal, .inl rfl⟩
  | taskSettles call index outcome =>
    obtain ⟨started, hstart, hrest⟩ := Option.bind_eq_some_iff.mp hstep
    obtain ⟨_, hopen, hnext⟩ := Option.bind_eq_some_iff.mp hrest
    obtain rfl := Option.some.inj hnext
    refine ⟨hcalls.setCall call fun result hres => ?_, .inl rfl⟩
    have hsettled := (hcalls call started hstart result hres).settled
    cases hentry : started.outcomes[index]? with
    | none =>
      rw [hentry] at hopen
      cases hopen
    | some entry =>
      cases entry with
      | none => exact absurd rfl (hsettled none (mem_of_getElem? hentry))
      | some =>
        rw [hentry] at hopen
        cases hopen
  | allReturns call =>
    obtain ⟨started, hstart, hrest⟩ := Option.bind_eq_some_iff.mp hstep
    obtain ⟨-, -, hrest⟩ := Option.bind_eq_some_iff.mp hrest
    obtain ⟨outcomes, houtcomes, hnext⟩ := Option.bind_eq_some_iff.mp hrest
    obtain rfl := Option.some.inj hnext
    refine ⟨hcalls.setCall call fun result hres => ?_, .inl rfl⟩
    cases hres
    exact returned_allResult _ (mapM_id_eq_some houtcomes) _
  | phases id stopSignal =>
    obtain ⟨-, -, hnext⟩ := Option.bind_eq_some_iff.mp hstep
    obtain rfl := Option.some.inj hnext
    exact ⟨hcalls, .inl rfl⟩
  | phase id fanOut =>
    obtain ⟨phases, -, hrest⟩ := Option.bind_eq_some_iff.mp hstep
    obtain ⟨-, -, hrest⟩ := Option.bind_eq_some_iff.mp hrest
    split at hrest <;> obtain rfl := Option.some.inj hrest
    · exact ⟨hcalls, .inl rfl⟩
    · exact ⟨hcalls, .inl rfl⟩
    · next started call items _ _ =>
      have hkept : (world.setPhases id started).Calls := hcalls
      exact ⟨hkept.startAll call items phases.stopSignal, .inl rfl⟩
  | phaseSettles id ok =>
    obtain ⟨phases, -, hrest⟩ := Option.bind_eq_some_iff.mp hstep
    dsimp only at hrest
    split at hrest
    · obtain ⟨-, -, hnext⟩ := Option.bind_eq_some_iff.mp hrest
      obtain rfl := Option.some.inj hnext
      exact ⟨hcalls, .inl rfl⟩
    · cases hrest

/-- What holds in every reachable state. -/
theorem reachable_holds (hreach : (fanOutRuns limit detail).Reachable world) :
    world.slots.Bounded limit ∧ world.Calls := by
  refine hreach.invariant (motive := fun world => world.slots.Bounded limit ∧ world.Calls)
    ?_ ?_
  · rintro start rfl
    exact ⟨.of_init, nofun⟩
  · rintro before after ⟨hbounded, hcalls⟩ ⟨event, hstep⟩
    obtain ⟨hafter, hslots⟩ := step_keeps hcalls hstep
    obtain hsame | ⟨event, hslots⟩ := hslots
    · exact ⟨hsame ▸ hbounded, hafter⟩
    · exact ⟨hbounded.step hslots, hafter⟩

theorem later_stopped (hlater : Relation.ReflTransGen (fanOutRuns limit detail).step world next)
    (hcalls : world.Calls) : world.slots.stopped ⊆ next.slots.stopped ∧ next.Calls := by
  induction hlater with
  | refl => exact ⟨List.Subset.refl _, hcalls⟩
  | tail _ hlast ih =>
    obtain ⟨event, hstep⟩ := hlast
    obtain ⟨hafter, hslots⟩ := step_keeps ih.2 hstep
    refine ⟨List.Subset.trans ih.1 ?_, hafter⟩
    obtain hsame | ⟨event, hslots⟩ := hslots
    · exact hsame ▸ List.Subset.refl _
    · exact RequestWorld.step_stopped hslots

end FanOutWorld

/-- A request stops while it waits, and the one behind it gets the slot of a request that throws. -/
def exampleRun : List (FanOutEvent ℕ ℕ) :=
  [.slots (.request none), .slots (.request (some 0)), .slots (.request none), .slots (.resume 0),
    .slots (.abort 0), .slots (.settle 0 false), .slots (.resume 2), .slots (.settle 2 true),
    .all 0 2 none, .taskSettles 0 1 (.ok 5), .taskSettles 0 0 (.ok 4), .allReturns 0]

/-- The steps that the open requests still take. -/
def RequestWorld.work (world : RequestWorld) : ℕ :=
  3 * world.fanOut.waiting.length + 2 * world.granted.length + world.running.length

/-- While a request is open, one can take its next step, without new requests or stops: requests
never wait for each other, and all are settled after as many steps as there is work. -/
theorem fanOut_progress {world : FanOutWorld V E} (hlimit : 0 < limit)
    (hreachable : (fanOutRuns limit detail).Reachable world) (hopen : 0 < world.slots.work) :
    ∃ event next, world.slots.step limit event = some next ∧ next.stopped = world.slots.stopped ∧
      next.requests = world.slots.requests ∧ next.work < world.slots.work := by
  have hbounded := (FanOutWorld.reachable_holds hreachable).1
  cases hgranted : world.slots.granted with
  | cons request granted =>
    refine ⟨.resume request, _, if_pos (by simp [hgranted]), rfl, rfl, ?_⟩
    simp [RequestWorld.work, RequestWorld.resume, hgranted]
    omega
  | nil =>
    cases hrunning : world.slots.running with
    | cons request running =>
      refine ⟨.settle request true, _, if_pos (by simp [hrunning]), rfl, rfl, ?_⟩
      cases hwaiting : world.slots.fanOut.waiting <;>
        simp [RequestWorld.work, RequestWorld.settle, BoundedFanOut.release, hgranted, hrunning,
          hwaiting]
      omega
    | nil =>
      -- No slot is in use, so nobody waits for one.
      have hwaiting : world.slots.fanOut.waiting = [] := by_contra fun hwaiting => by
        have hslots := hbounded.slots
        rw [hbounded.busy hwaiting, hgranted, hrunning] at hslots
        exact Nat.ne_of_gt hlimit hslots
      simp [RequestWorld.work, hgranted, hrunning, hwaiting] at hopen

/-- With one slot, the second request waits for the first one. -/
theorem fanOut_progress_waiting : ∃ world : FanOutWorld ℕ ℕ,
    world.slots.fanOut.waiting = [⟨1, some 0⟩] ∧
      ∃ event next, world.slots.step 1 event = some next := by
  have hrun : (fanOutRuns 1 fun _ => "").Reachable _ := ⟨{}, rfl,
    TransitionSystem.reflTransGen_of_foldlM (fun _ event _ hstep => ⟨event, hstep⟩)
      (rfl : (exampleRun.take 2).foldlM (FanOutWorld.step 1 fun _ => "") {} = some _)⟩
  obtain ⟨event, next, hstep, -⟩ := fanOut_progress (by decide) hrun (by decide)
  refine ⟨_, ?_, event, next, hstep⟩
  rfl

end SignalProtocol.FanOut
