import SignalProtocol.Groups.Fetcher
import Mathlib.Order.MinMax

/-! # Steps of the fetcher

What each event does, so that an invariant looks at eight kinds of steps. -/

namespace SignalProtocol.Groups

open Option

namespace FetcherState

variable {options : GroupFetcherOptions} {state next : FetcherState}

def required (state : FetcherState) : ℕ := requiredOf state.record

def init (state : FetcherState) : GroupFetchState := fetchStateOf state.record

theorem current_eq (state : FetcherState) (source : GroupRecordSource) :
    (state.record.getD (newGroupReceiveRecord source)).requiredRevision = state.required ∧
      (state.record.getD (newGroupReceiveRecord source)).init = state.init := by
  rw [required, init, requiredOf, fetchStateOf]
  cases state.record <;> exact ⟨rfl, rfl⟩

theorem raiseRequired_eq (record : GroupReceiveRecord) (revision : ℕ) :
    (if record.requiredRevision < revision then { record with requiredRevision := revision }
      else record).requiredRevision = max record.requiredRevision revision ∧
    (if record.requiredRevision < revision then { record with requiredRevision := revision }
      else record).init = record.init := by
  by_cases hlt : record.requiredRevision < revision
  · rw [if_pos hlt]
    exact ⟨(Nat.max_eq_right hlt.le).symm, rfl⟩
  · rw [if_neg hlt]
    exact ⟨(Nat.max_eq_left (Nat.le_of_not_lt hlt)).symm, rfl⟩

theorem claimRecord_eq (state : FetcherState) (revision : ℕ) :
    (claimRecord state.record revision).requiredRevision = max state.required revision ∧
      (claimRecord state.record revision).init = state.init := by
  obtain ⟨hrequired, hinit⟩ := state.current_eq .thisDevice
  rw [← hrequired, ← hinit]
  exact raiseRequired_eq _ revision

theorem admitContextRecord_eq (state : FetcherState) (revision : ℕ) (sender : GroupContextSender)
    (createdAt : ℕ) :
    (admitContextRecord state.record revision sender createdAt).requiredRevision =
        max state.required revision ∧
      (admitContextRecord state.record revision sender createdAt).init = state.init := by
  obtain ⟨hrequired, hinit⟩ := state.current_eq .context
  exact ⟨congrArg (max · revision) hrequired, hinit⟩

theorem admitSyncRecord_eq (state : FetcherState) (revision : ℕ) :
    (admitSyncRecord state.record revision).requiredRevision = max state.required revision ∧
      (admitSyncRecord state.record revision).init = state.init := by
  obtain ⟨hrequired, hinit⟩ := state.current_eq .sync
  rw [← hrequired, ← hinit]
  exact raiseRequired_eq { state.record.getD (newGroupReceiveRecord .sync) with
    unverified := none } revision

theorem reachable_run {allowed : FetcherState → FetcherEvent → Prop}
    (hreach : (system options allowed).Reachable state) {events : List FetcherEvent}
    (hallow : ∀ event ∈ events, ∀ state, allowed state event)
    (hrun : state.run options events = some next) : (system options allowed).Reachable next := by
  induction events generalizing state with
  | nil =>
    cases hrun
    exact hreach
  | cons event events ih =>
    obtain ⟨hevent, hrest⟩ := List.forall_mem_cons.mp hallow
    obtain ⟨middle, hstep, htail⟩ := bind_eq_some_iff.mp hrun
    exact ih (hreach.step ⟨event, hevent state, hstep⟩) hrest htail

/-! ## Steps -/

def Bare : CallState → Prop
  | .reading _ _ none none => True
  | .reading _ _ _ _ => False
  | .starting _ _ _ => False
  | .awaiting _ _ => False
  | .answered (.fresh _) => False
  | _ => True

inductive CallMove (options : GroupFetcherOptions) (state : FetcherState) :
    CallState → CallState → Prop
  | readRecord (claim : Option GroupRevisionClaim) (round : ℕ) (revision : Option (Option ℕ)) :
      CallMove options state (.reading claim round none revision)
        (.reading claim round (some state.readNow) revision)
  | readState (claim : Option GroupRevisionClaim) (round : ℕ) (read : Option RecordRead) :
      CallMove options state (.reading claim round read none)
        (.reading claim round read (some state.revision))
  | planned (claim : Option GroupRevisionClaim) (round : ℕ) (read : RecordRead)
      (revision : Option ℕ) (target required : ℕ)
      (hdecision : decideFreshness options read.record revision claim state.now =
        .fetch target required) :
      CallMove options state (.reading claim round (some read) (some revision))
        (.starting round read ⟨target, required, claim, none⟩)
  | plannedApply (claim : Option GroupRevisionClaim) (round : ℕ) (read : RecordRead)
      (revision : Option ℕ) (target required : ℕ) (wait : GroupFreshness)
      (hdecision : decideFreshness options read.record revision claim state.now =
        .apply target required wait) :
      CallMove options state (.reading claim round (some read) (some revision))
        (.starting round read ⟨target, required, claim, some wait⟩)
  | decided (claim : Option GroupRevisionClaim) (round : ℕ) (read : RecordRead)
      (revision : Option ℕ) (freshness : GroupFreshness)
      (hdecision : decideFreshness options read.record revision claim state.now =
        .answer freshness) :
      CallMove options state (.reading claim round (some read) (some revision))
        (.answered freshness)
  | settled (plan : PlannedFetch) (fetch : ℕ) (outcome : FetchOutcome)
      (houtcome : state.outcomeOf fetch = some outcome) :
      CallMove options state (.awaiting plan fetch) (answerOf options plan outcome)
  | bare (callState next : CallState) (hnext : Bare next) : CallMove options state callState next

theorem syncResultOf_bare (outcome : FetchOutcome) : Bare (syncResultOf outcome) := by
  cases outcome with
  | notApplied => trivial
  | recorded outcome =>
    cases outcome with
    | synced head server => cases server <;> trivial
    | denied reason => trivial
    | failed => trivial

theorem advanceCall_move {callState callState' : CallState}
    (hadv : state.advanceCall options callState = some callState') :
    CallMove options state callState callState' := by
  cases callState with
  | round claim round =>
    rw [advanceCall] at hadv
    split at hadv
    · cases hadv
      exact .bare _ _ trivial
    · cases hflight : state.inFlight with
      | none =>
        rw [hflight] at hadv
        cases hadv
        exact .bare _ _ trivial
      | some fetch =>
        rw [hflight] at hadv
        cases hadv
        exact .bare _ _ trivial
  | joined claim round fetch =>
    obtain ⟨outcome, -, rfl⟩ := map_eq_some_iff.mp hadv
    exact .bare _ _ trivial
  | reading claim round read revision =>
    cases read with
    | none => cases hadv
    | some read =>
      cases revision with
      | none => cases hadv
      | some revision =>
        rw [advanceCall] at hadv
        cases hdecide : decideFreshness options read.record revision claim state.now with
        | answer freshness =>
          rw [hdecide] at hadv
          cases hadv
          exact .decided claim round read revision freshness hdecide
        | fetch target required =>
          rw [hdecide] at hadv
          cases hadv
          exact .planned claim round read revision target required hdecide
        | apply target required wait =>
          rw [hdecide] at hadv
          cases hadv
          exact .plannedApply claim round read revision target required wait hdecide
  | starting round read plan =>
    rw [advanceCall] at hadv
    split at hadv
    · cases hadv
      exact .bare _ _ trivial
    · cases hadv
  | awaiting plan fetch =>
    obtain ⟨outcome, hout, rfl⟩ := map_eq_some_iff.mp hadv
    exact .settled plan fetch outcome hout
  | failed =>
    cases hadv
    exact .bare _ _ trivial
  | syncRound =>
    rw [advanceCall] at hadv
    cases hflight : state.inFlight with
    | none =>
      rw [hflight] at hadv
      cases hadv
      exact .bare _ _ trivial
    | some fetch =>
      rw [hflight] at hadv
      cases hadv
      exact .bare _ _ trivial
  | syncStarting required =>
    obtain ⟨fetch, -, rfl⟩ := map_eq_some_iff.mp hadv
    exact .bare _ _ trivial
  | syncAwaiting fetch =>
    obtain ⟨outcome, -, rfl⟩ := map_eq_some_iff.mp hadv
    exact .bare _ _ (syncResultOf_bare outcome)
  | idle => cases hadv
  | answered freshness => cases hadv
  | syncReading => cases hadv
  | syncEnded outcome => cases hadv

inductive FetcherStep (options : GroupFetcherOptions) (state : FetcherState) :
    FetcherEvent → FetcherState → Prop
  | tick (elapsed : ℕ) :
      FetcherStep options state (.tick elapsed) { state with now := state.now + elapsed }
  | store (revision : ℕ) :
      FetcherStep options state (.store revision) { state with revision := some revision }
  | claimed (event : FetcherEvent) (revision : ℕ) (record : GroupReceiveRecord)
      (hrequired : record.requiredRevision = max state.required revision)
      (hinit : record.init = state.init) :
      FetcherStep options state event (state.withClaim revision record)
  | moved (event : FetcherEvent) (call : ℕ) (next : CallState)
      (hmove : CallMove options state (state.calls call) next) :
      FetcherStep options state event (state.setCall call next)
  | started (call round : ℕ) (read : RecordRead) (plan : PlannedFetch) (change : Bool)
      (hcall : state.calls call = .starting round read plan) (hfree : state.inFlight = none) :
      FetcherStep options state (.start call)
        ((state.startFetch plan.target plan.required change plan.wait.isNone false).setCall call
          (.awaiting plan state.nextFetch))
  | syncStarted (call required : ℕ) (hfree : state.inFlight = none) :
      FetcherStep options state (.start call)
        ((state.startFetch required required false true true).setCall call
          (.syncAwaiting state.nextFetch))
  | applied (fetch : RunningFetch) (result : Option ℕ) (hfetch : fetch ∈ state.running)
      (hstage : fetch.stage = .applying) :
      FetcherStep options state (.applyReturns fetch.id result)
        (state.setStage fetch (afterApply fetch result))
  | synced (fetch : RunningFetch) (result : Except SyncError ℕ) (hfetch : fetch ∈ state.running)
      (hstage : fetch.stage = .syncing) :
      FetcherStep options state (.syncReturns fetch.id result)
        (state.setStage fetch (.recording (syncOutcome result)))
  | recorded (fetch : RunningFetch) (outcome : RecordedOutcome) (hfetch : fetch ∈ state.running)
      (hstage : fetch.stage = .recording outcome) :
      FetcherStep options state (.recordOutcome fetch.id) (state.withOutcome fetch outcome)
  | settled (fetch : RunningFetch) (outcome : FetchOutcome) (hfetch : fetch ∈ state.running)
      (hstage : fetch.stage = .settling outcome) :
      FetcherStep options state (.settle fetch.id) (state.settleFetch fetch outcome)

theorem fetchAt_eq_some {id : ℕ} {fetch : RunningFetch} (hfetch : state.fetchAt id = some fetch) :
    fetch ∈ state.running ∧ fetch.id = id :=
  ⟨List.mem_of_find?_eq_some hfetch, by simpa using List.find?_some hfetch⟩

theorem startCall_step {call : ℕ} (hstart : state.startCall options call = some next) :
    FetcherStep options state (.start call) next := by
  rw [startCall] at hstart
  split at hstart
  · cases hstart
  · rename_i hfree
    rw [not_isSome_iff_eq_none] at hfree
    cases hcall : state.calls call with
    | starting round read plan =>
      rw [hcall] at hstart
      cases hstart
      exact .started call round read plan _ hcall hfree
    | syncStarting required =>
      rw [hcall] at hstart
      cases hstart
      exact .syncStarted call required hfree
    | _ =>
      rw [hcall] at hstart
      cases hstart

theorem perform_step {event : FetcherEvent} (hstep : state.perform options event = some next) :
    FetcherStep options state event next := by
  cases event with
  | tick elapsed =>
    cases hstep
    exact .tick elapsed
  | store revision =>
    cases hstep
    exact .store revision
  | claim revision =>
    cases hstep
    obtain ⟨hrequired, hinit⟩ := state.claimRecord_eq revision
    exact .claimed _ revision _ hrequired hinit
  | admitContext revision sender =>
    cases hstep
    obtain ⟨hrequired, hinit⟩ := state.admitContextRecord_eq revision sender state.now
    exact .claimed _ revision _ hrequired hinit
  | admitSync revision =>
    cases hstep
    obtain ⟨hrequired, hinit⟩ := state.admitSyncRecord_eq revision
    exact .claimed _ revision _ hrequired hinit
  | ensureFresh call claim =>
    rw [perform] at hstep
    split at hstep
    · cases hstep
      exact .moved _ call _ (.bare _ _ trivial)
    · cases hstep
  | sync call =>
    rw [perform] at hstep
    split at hstep
    · cases hstep
      exact .moved _ call _ (.bare _ _ trivial)
    · cases hstep
  | readRecord call =>
    obtain ⟨callState, hread, rfl⟩ := map_eq_some_iff.mp hstep
    refine .moved _ call _ ?_
    cases hcall : state.calls call with
    | reading claim round read revision =>
      rw [hcall] at hread
      cases read with
      | none =>
        cases hread
        exact .readRecord claim round revision
      | some read => cases hread
    | syncReading =>
      rw [hcall] at hread
      cases hread
      exact .bare _ _ trivial
    | _ =>
      rw [hcall] at hread
      cases hread
  | readState call =>
    obtain ⟨callState, hread, rfl⟩ := map_eq_some_iff.mp hstep
    refine .moved _ call _ ?_
    cases hcall : state.calls call with
    | reading claim round read revision =>
      rw [hcall] at hread
      cases revision with
      | none =>
        cases hread
        exact .readState claim round read
      | some revision => cases hread
    | _ =>
      rw [hcall] at hread
      cases hread
  | advance call =>
    obtain ⟨callState, hadv, rfl⟩ := map_eq_some_iff.mp hstep
    exact .moved _ call _ (advanceCall_move hadv)
  | timeOut call =>
    obtain ⟨callState, htimeOut, rfl⟩ := map_eq_some_iff.mp hstep
    refine .moved _ call _ ?_
    cases hcall : state.calls call with
    | joined claim round fetch =>
      rw [hcall] at htimeOut
      cases htimeOut
      exact .bare _ _ trivial
    | awaiting plan fetch =>
      rw [hcall] at htimeOut
      cases htimeOut
      exact .bare _ _ trivial
    | _ =>
      rw [hcall] at htimeOut
      cases htimeOut
  | start call => exact startCall_step hstep
  | applyReturns id result =>
    obtain ⟨fetch, hfound, hreturns⟩ := bind_eq_some_iff.mp hstep
    obtain ⟨hfetch, rfl⟩ := fetchAt_eq_some hfound
    split at hreturns
    · cases hreturns
      exact .applied fetch result hfetch ‹_›
    · cases hreturns
  | syncReturns id result =>
    obtain ⟨fetch, hfound, hreturns⟩ := bind_eq_some_iff.mp hstep
    obtain ⟨hfetch, rfl⟩ := fetchAt_eq_some hfound
    split at hreturns
    · cases hreturns
      exact .synced fetch result hfetch ‹_›
    · cases hreturns
  | recordOutcome id =>
    obtain ⟨fetch, hfound, hrecs⟩ := bind_eq_some_iff.mp hstep
    obtain ⟨hfetch, rfl⟩ := fetchAt_eq_some hfound
    split at hrecs
    · rename_i outcome hstage
      cases hrecs
      exact .recorded fetch outcome hfetch hstage
    · cases hrecs
  | settle id =>
    obtain ⟨fetch, hfound, hsettles⟩ := bind_eq_some_iff.mp hstep
    obtain ⟨hfetch, rfl⟩ := fetchAt_eq_some hfound
    split at hsettles
    · rename_i outcome hstage
      cases hsettles
      exact .settled fetch outcome hfetch hstage
    · cases hsettles

end FetcherState

/-! ## Claims and fetches

One fetch runs at a time, no claim that is raised while it runs is lost by its outcome, and a denial
holds only while nothing above what it answered was claimed. -/

open List

variable {fetch : RunningFetch} {revision : ℕ}

namespace FetcherState

variable {options : GroupFetcherOptions} {state next : FetcherState} {event : FetcherEvent}

def Single (state : FetcherState) : Prop :=
  (state.running = [] ∧ state.inFlight = none) ∨
    ∃ fetch, state.running = [fetch] ∧ state.inFlight = some fetch.id

section

variable (hsingle : state.Single)

include hsingle

theorem Single.of_mem (hfetch : fetch ∈ state.running) :
    state.running = [fetch] ∧ state.inFlight = some fetch.id := by
  rcases hsingle with ⟨hnone, -⟩ | ⟨other, hrunning, hflight⟩
  · rw [hnone] at hfetch
    cases hfetch
  · rw [hrunning, mem_singleton] at hfetch
    subst hfetch
    exact ⟨hrunning, hflight⟩

theorem Single.of_free (hfree : state.inFlight = none) : state.running = [] := by
  rcases hsingle with ⟨hnone, -⟩ | ⟨fetch, -, hflight⟩
  · exact hnone
  · rw [hflight] at hfree
    cases hfree

theorem Single.length_le : state.running.length ≤ 1 := by
  rcases hsingle with ⟨hnone, -⟩ | ⟨fetch, hrunning, -⟩
  · rw [hnone]
    exact Nat.zero_le 1
  · rw [hrunning, length_singleton]

theorem Single.map {running : List RunningFetch} {change : RunningFetch → RunningFetch}
    (hrunning : running = state.running.map change) (hid : ∀ fetch, (change fetch).id = fetch.id)
    {next : FetcherState} (hnext : next.running = running)
    (hflight : next.inFlight = state.inFlight) : next.Single := by
  rcases hsingle with ⟨hnone, hfree⟩ | ⟨fetch, hone, hheld⟩
  · exact .inl ⟨by rw [hnext, hrunning, hnone, map_nil], hflight.trans hfree⟩
  · refine .inr ⟨change fetch, by rw [hnext, hrunning, hone, map_singleton], ?_⟩
    rw [hflight, hheld, hid]

theorem Single.setStage (fetch : RunningFetch) (stage : FetchStage) :
    (state.setStage fetch stage).Single := by
  refine hsingle.map rfl (fun other => ?_) rfl rfl
  by_cases hsame : other.id = fetch.id
  · rw [if_pos hsame]
  · rw [if_neg hsame]

theorem Single.startFetch (hfree : state.inFlight = none)
    (target required : ℕ) (change serverCall manual : Bool) :
    (state.startFetch target required change serverCall manual).Single := by
  rw [FetcherState.startFetch, hsingle.of_free hfree]
  exact .inr ⟨_, rfl, rfl⟩

theorem Single.step (hstep : FetcherStep options state event next) : next.Single := by
  cases hstep with
  | tick elapsed => exact hsingle
  | store revision => exact hsingle
  | claimed event revision record hrequired hinit =>
    refine hsingle.map rfl (fun fetch => ?_) rfl rfl
    show (state.raiseInFlight fetch revision).id = fetch.id
    rw [raiseInFlight]
    split <;> rfl
  | moved event call callState hmove => exact hsingle
  | started call round read plan change hcall hfree =>
    exact hsingle.startFetch hfree plan.target plan.required change plan.wait.isNone false
  | syncStarted call required hfree => exact hsingle.startFetch hfree required required false true true
  | applied fetch result hfetch hstage => exact hsingle.setStage fetch _
  | synced fetch result hfetch hstage => exact hsingle.setStage fetch _
  | recorded fetch outcome hfetch hstage => exact hsingle.setStage fetch _
  | settled fetch outcome hfetch hstage =>
    left
    refine ⟨?_, rfl⟩
    rw [settleFetch, (hsingle.of_mem hfetch).1]
    simp

theorem Single.running_setStage (hfetch : fetch ∈ state.running)
    (stage : FetchStage) : (state.setStage fetch stage).running = [{ fetch with stage }] := by
  rw [FetcherState.setStage, (hsingle.of_mem hfetch).1]
  simp

end

theorem withClaim_required {record : GroupReceiveRecord}
    (hrequired : record.requiredRevision = max state.required revision) :
    (state.withClaim revision record).required = max state.required revision := hrequired

theorem withClaim_init {record : GroupReceiveRecord}
    (hinit : record.init = state.init) : (state.withClaim revision record).init = state.init := hinit

def requiredAfter (state : FetcherState) (fetch : RunningFetch) : RecordedOutcome → ℕ
  | .synced head true => max head (fetch.raised.getD head)
  | _ => state.required

theorem withOutcome_required (fetch : RunningFetch) (outcome : RecordedOutcome) :
    (state.withOutcome fetch outcome).required = state.requiredAfter fetch outcome := by
  obtain ⟨hrequired, -⟩ := state.current_eq .thisDevice
  show (recordOutcome state.record fetch.target outcome fetch.serverCall fetch.required
    fetch.raised state.now).requiredRevision = _
  unfold recordOutcome
  cases outcome with
  | synced head server => cases server <;> cases fetch.serverCall <;> first | rfl | exact hrequired
  | denied reason => exact hrequired
  | failed => exact hrequired

theorem withOutcome_unbudgeted (hserver : fetch.serverCall = false) (head : ℕ) (server : Bool) :
    (state.withOutcome fetch (.synced head server)).init = state.init := by
  obtain ⟨-, hinit⟩ := state.current_eq .thisDevice
  show (recordOutcome state.record fetch.target (.synced head server) fetch.serverCall
    fetch.required fetch.raised state.now).init = _
  rw [recordOutcome, hserver]
  exact hinit

def claimsAfter (state : FetcherState) (target : ℕ) : List ℕ :=
  let claims := if state.WindowOpen then state.init.fetchedClaims else []
  if target ∈ claims then claims else claims ++ [target]

theorem windowClaims_eq (state : FetcherState) (target : ℕ) :
    windowClaims (state.record.getD (newGroupReceiveRecord .thisDevice)) target state.now =
      state.claimsAfter target := by
  obtain ⟨-, hinit⟩ := state.current_eq .thisDevice
  rw [windowClaims, claimsAfter, hinit]
  rfl

def initAfter (state : FetcherState) (fetch : RunningFetch) : RecordedOutcome → GroupFetchState
  | .synced head _ => {
      attempts := 0
      nextAttemptAt := state.now + groupFetchWindowMs
      head := some head
      fetchedClaims := state.claimsAfter fetch.target }
  | .denied reason => {
      attempts := state.init.attempts + 1
      nextAttemptAt := state.now + groupFetchBackoffMs (state.init.attempts + 1)
      fetchedClaims := state.claimsAfter fetch.target
      denied := some ⟨max fetch.target fetch.required, reason⟩ }
  | .failed => {
      attempts := state.init.attempts + 1
      nextAttemptAt := state.now + groupFetchBackoffMs (state.init.attempts + 1)
      fetchedClaims := state.claimsAfter fetch.target
      denied := state.init.denied }

theorem withOutcome_init (hserver : fetch.serverCall = true) (outcome : RecordedOutcome) :
    (state.withOutcome fetch outcome).init = state.initAfter fetch outcome := by
  obtain ⟨-, hinit⟩ := state.current_eq .thisDevice
  show (recordOutcome state.record fetch.target outcome fetch.serverCall fetch.required
    fetch.raised state.now).init = _
  unfold recordOutcome
  rw [hserver]
  cases outcome with
  | synced head server =>
    rw [initAfter, ← windowClaims_eq]
    rfl
  | denied reason =>
    rw [initAfter, ← windowClaims_eq, ← hinit]
  | failed =>
    rw [initAfter, ← windowClaims_eq, ← hinit]

def denialAfter (state : FetcherState) (fetch : RunningFetch) :
    RecordedOutcome → Option DenialTrace
  | .synced _ _ => if fetch.serverCall then none else state.trace.denial
  | .denied _ => some ⟨fetch.target, fetch.required, fetch.claimed⟩
  | .failed => state.trace.denial

theorem withOutcome_denial (fetch : RunningFetch) (outcome : RecordedOutcome) :
    (state.withOutcome fetch outcome).trace.denial = state.denialAfter fetch outcome := by
  cases outcome <;> rfl

/-! ## Claims and denials -/

def CallsServer : FetchStage → Prop
  | .applying => False
  | .syncing => True
  | .recording (.synced _ server) => server = true
  | .recording _ => True
  | .settling _ => False

structure ClaimsKept (state : FetcherState) : Prop where
  single : state.Single
  serverCall : ∀ fetch ∈ state.running, CallsServer fetch.stage → fetch.serverCall = true
  claimed : ∀ fetch ∈ state.running, ∀ claim ∈ fetch.claimed, claim ≤ state.required
  raised : ∀ fetch ∈ state.running, ∀ claim ∈ fetch.claimed, ∃ raised,
    fetch.raised = some raised ∧ claim ≤ raised
  denial : ∀ denied, state.init.denied = some denied → ∃ denial, state.trace.denial = some denial ∧
    denied.atRevision = max denial.target denial.required
  denialClaimed : ∀ denial, state.trace.denial = some denial → ∀ claim ∈ denial.claimed,
    claim ≤ state.required

theorem claimsKept_initial (now : ℕ) (revision : Option ℕ) : (initial now revision).ClaimsKept where
  single := .inl ⟨rfl, rfl⟩
  serverCall := nofun
  claimed := nofun
  raised := nofun
  denial := nofun
  denialClaimed := nofun

theorem ClaimsKept.claim {record : GroupReceiveRecord} (hkept : state.ClaimsKept)
    (hrequired : record.requiredRevision = max state.required revision)
    (hinit : record.init = state.init) (hsingle : (state.withClaim revision record).Single) :
    (state.withClaim revision record).ClaimsKept := by
  have hraise (fetch : RunningFetch) (hfetch : fetch ∈ state.running) :
      (state.raiseInFlight fetch revision) =
        { fetch with raised := some (max (fetch.raised.getD revision) revision) } :=
    if_pos (hkept.single.of_mem hfetch).2
  refine ⟨hsingle, ?_, ?_, ?_, ?_, ?_⟩
  · intro raised hmem hcalls
    obtain ⟨fetch, hfetch, rfl⟩ := mem_map.mp hmem
    rw [hraise fetch hfetch] at hcalls ⊢
    exact hkept.serverCall fetch hfetch hcalls
  · intro raised hmem claim hclaim
    obtain ⟨fetch, hfetch, rfl⟩ := mem_map.mp hmem
    rw [withClaim_required hrequired]
    rcases mem_cons.mp hclaim with rfl | hprev
    · exact le_max_right _ _
    · exact le_max_of_le_left (hkept.claimed fetch hfetch claim hprev)
  · intro raised hmem claim hclaim
    obtain ⟨fetch, hfetch, rfl⟩ := mem_map.mp hmem
    rw [hraise fetch hfetch]
    refine ⟨_, rfl, ?_⟩
    rcases mem_cons.mp hclaim with rfl | hprev
    · exact le_max_right _ _
    · obtain ⟨raised, hraised, hle⟩ := hkept.raised fetch hfetch claim hprev
      rw [hraised]
      exact le_max_of_le_left hle
  · intro denied hdenied
    rw [withClaim_init hinit] at hdenied
    obtain ⟨denial, hdenial, hat⟩ := hkept.denial denied hdenied
    refine ⟨{ denial with claimed := revision :: denial.claimed }, ?_, hat⟩
    rw [withClaim, hdenial]
    rfl
  · intro denial hdenial claim hclaim
    obtain ⟨denial, hprev, rfl⟩ := Option.map_eq_some_iff.mp hdenial
    rw [withClaim_required hrequired]
    rcases mem_cons.mp hclaim with rfl | hclaim
    · exact le_max_right _ _
    · exact le_max_of_le_left (hkept.denialClaimed denial hprev claim hclaim)

theorem ClaimsKept.start (hkept : state.ClaimsKept) (hfree : state.inFlight = none)
    (target required : ℕ) (change serverCall manual : Bool) :
    (state.startFetch target required change serverCall manual).ClaimsKept := by
  have hnone := hkept.single.of_free hfree
  have hrunning : ∀ fetch ∈ (state.startFetch target required change serverCall manual).running,
      fetch.claimed = [] ∧ (CallsServer fetch.stage → fetch.serverCall = true) := by
    rw [startFetch, hnone]
    intro fetch hfetch
    rw [nil_append, mem_singleton] at hfetch
    subst hfetch
    refine ⟨rfl, fun hcalls => ?_⟩
    cases serverCall with
    | true => rfl
    | false => cases change <;> exact hcalls.elim
  refine ⟨hkept.single.startFetch hfree _ _ _ _ _, ?_, ?_, ?_, hkept.denial, hkept.denialClaimed⟩
  · exact fun fetch hfetch => (hrunning fetch hfetch).2
  · intro fetch hfetch claim hclaim
    rw [(hrunning fetch hfetch).1] at hclaim
    cases hclaim
  · intro fetch hfetch claim hclaim
    rw [(hrunning fetch hfetch).1] at hclaim
    cases hclaim

theorem ClaimsKept.progress {stage : FetchStage} (hkept : state.ClaimsKept)
    (hfetch : fetch ∈ state.running) (hserver : CallsServer stage → fetch.serverCall = true) :
    (state.setStage fetch stage).ClaimsKept := by
  have hrunning := hkept.single.running_setStage hfetch stage
  refine ⟨hkept.single.setStage fetch stage, ?_, ?_, ?_, hkept.denial, hkept.denialClaimed⟩
  · rw [hrunning]
    exact forall_mem_singleton.mpr hserver
  · rw [hrunning]
    exact forall_mem_singleton.mpr (hkept.claimed fetch hfetch)
  · rw [hrunning]
    exact forall_mem_singleton.mpr (hkept.raised fetch hfetch)

theorem afterApply_callsServer {result : Option ℕ}
    (hcalls : CallsServer (afterApply fetch result)) : fetch.serverCall = true := by
  have hsync (hcalls : CallsServer (if fetch.serverCall then .syncing else .settling .notApplied)) :
      fetch.serverCall = true := by
    cases hserver : fetch.serverCall with
    | true => rfl
    | false =>
      rw [hserver] at hcalls
      exact hcalls.elim
  cases result with
  | none => exact hsync hcalls
  | some head =>
    rw [afterApply] at hcalls
    by_cases hreached : fetch.target ≤ head
    · rw [if_pos hreached] at hcalls
      cases hcalls
    · rw [if_neg hreached] at hcalls
      exact hsync hcalls

theorem ClaimsKept.outcome {outcome : RecordedOutcome} (hkept : state.ClaimsKept)
    (hfetch : fetch ∈ state.running) (hstage : fetch.stage = .recording outcome) :
    (state.withOutcome fetch outcome).ClaimsKept := by
  have hrunning : (state.withOutcome fetch outcome).running =
      [{ fetch with stage := .settling (.recorded outcome) }] :=
    hkept.single.running_setStage hfetch _
  have hcalls := hkept.serverCall fetch hfetch
  rw [hstage] at hcalls
  have hclaimed : ∀ claim ∈ fetch.claimed, claim ≤ (state.withOutcome fetch outcome).required := by
    intro claim hclaim
    rw [withOutcome_required]
    obtain ⟨raised, hraised, hle⟩ := hkept.raised fetch hfetch claim hclaim
    have hrequired := hkept.claimed fetch hfetch claim hclaim
    cases outcome with
    | synced head server =>
      cases server with
      | true =>
        rw [requiredAfter, hraised]
        exact le_max_of_le_right hle
      | false => exact hrequired
    | denied reason => exact hrequired
    | failed => exact hrequired
  refine ⟨hkept.single.setStage fetch _, ?_, ?_, ?_, ?_, ?_⟩
  · rw [hrunning]
    exact forall_mem_singleton.mpr nofun
  · rw [hrunning]
    exact forall_mem_singleton.mpr hclaimed
  · rw [hrunning]
    exact forall_mem_singleton.mpr (hkept.raised fetch hfetch)
  · intro denied hdenied
    cases outcome with
    | synced head server =>
      cases hserver : fetch.serverCall with
      | true =>
        rw [withOutcome_init hserver] at hdenied
        cases hdenied
      | false =>
        rw [withOutcome_unbudgeted hserver] at hdenied
        obtain ⟨denial, hdenial, hat⟩ := hkept.denial denied hdenied
        refine ⟨denial, ?_, hat⟩
        rw [withOutcome_denial, denialAfter, ← hdenial]
        exact if_neg (hserver ▸ Bool.false_ne_true)
    | denied reason =>
      rw [withOutcome_init (hcalls trivial)] at hdenied
      cases hdenied
      exact ⟨_, rfl, rfl⟩
    | failed =>
      rw [withOutcome_init (hcalls trivial)] at hdenied
      exact hkept.denial denied hdenied
  · intro denial hdenial
    cases outcome with
    | synced head server =>
      cases hserver : fetch.serverCall with
      | true =>
        rw [withOutcome_denial, denialAfter] at hdenial
        simp only [hserver, if_true] at hdenial
        cases hdenial
      | false =>
        -- Without a server call the required revision stays.
        have hhead : server = false := by
          cases server with
          | false => rfl
          | true => exact absurd (hcalls rfl) (by rw [hserver]; exact Bool.false_ne_true)
        subst hhead
        rw [withOutcome_denial, denialAfter] at hdenial
        simp only [hserver, Bool.false_eq_true, if_false] at hdenial
        rw [withOutcome_required]
        exact hkept.denialClaimed denial hdenial
    | denied reason =>
      cases hdenial
      exact hclaimed
    | failed =>
      rw [withOutcome_required]
      exact hkept.denialClaimed denial hdenial

theorem ClaimsKept.step (hkept : state.ClaimsKept)
    (hstep : FetcherStep options state event next) : next.ClaimsKept := by
  have hsingle := hkept.single.step hstep
  cases hstep with
  | tick elapsed => exact ⟨hsingle, hkept.2, hkept.3, hkept.4, hkept.5, hkept.6⟩
  | store revision => exact ⟨hsingle, hkept.2, hkept.3, hkept.4, hkept.5, hkept.6⟩
  | claimed event revision record hrequired hinit => exact hkept.claim hrequired hinit hsingle
  | moved event call callState hmove => exact ⟨hsingle, hkept.2, hkept.3, hkept.4, hkept.5, hkept.6⟩
  | started call round read plan change hcall hfree =>
    have hstart := hkept.start hfree plan.target plan.required change plan.wait.isNone false
    exact ⟨hsingle, hstart.2, hstart.3, hstart.4, hstart.5, hstart.6⟩
  | syncStarted call required hfree =>
    have hstart := hkept.start hfree required required false true true
    exact ⟨hsingle, hstart.2, hstart.3, hstart.4, hstart.5, hstart.6⟩
  | applied fetch result hfetch hstage => exact hkept.progress hfetch afterApply_callsServer
  | synced fetch result hfetch hstage =>
    refine hkept.progress hfetch fun _ => ?_
    have hcalls := hkept.serverCall fetch hfetch
    rw [hstage] at hcalls
    exact hcalls trivial
  | recorded fetch outcome hfetch hstage => exact hkept.outcome hfetch hstage
  | settled fetch outcome hfetch hstage =>
    have hkeep {other : RunningFetch} (hother : other ∈ (state.settleFetch fetch outcome).running) :
        other ∈ state.running := (mem_filter.mp hother).1
    exact ⟨hsingle, fun other hother => hkept.serverCall other (hkeep hother),
      fun other hother => hkept.claimed other (hkeep hother),
      fun other hother => hkept.raised other (hkeep hother), hkept.denial, hkept.denialClaimed⟩

end FetcherState

end SignalProtocol.Groups
