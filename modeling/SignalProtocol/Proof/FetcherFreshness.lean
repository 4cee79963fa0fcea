import SignalProtocol.Proof.FetcherWindow

/-! # Freshness

A call answers that the group is fresh when the state reached its claim, or when the server was
asked for this claim in the window that is open. -/

namespace SignalProtocol.Groups

open List

variable {callState : CallState} {revision : Option ℕ} {fetch : RunningFetch} {target now : ℕ}
  {server change serverCall manual : Bool} {window : ℕ}

theorem windowDecision_eq_fresh {options : GroupFetcherOptions} {init : GroupFetchState}
    {claim : Option GroupRevisionClaim} {required fresh : ℕ}
    (hfresh : windowDecision options init revision claim target required now =
      .answer (.fresh fresh)) :
    now < init.nextAttemptAt ∧ target ∈ init.fetchedClaims ∧ init.head.isSome := by
  unfold windowDecision at hfresh
  by_cases hopen : now < init.nextAttemptAt
  · rw [if_pos hopen] at hfresh
    by_cases hmem : target ∈ init.fetchedClaims
    · simp only [hmem, if_true] at hfresh
      split at hfresh
      · rename_i held head hhead
        exact ⟨hopen, hmem, by rw [hhead]; rfl⟩
      · cases hfresh
    · simp only [hmem, if_false] at hfresh
      split at hfresh
      · split at hfresh <;> cases hfresh
      · cases hfresh
  · rw [if_neg hopen] at hfresh
    cases hfresh

/-- A fresh answer is for a claim that the state reached, or one of the claims of a window with a
head. -/
theorem decideFreshness_eq_fresh {options : GroupFetcherOptions}
    {record : Option GroupReceiveRecord} {claim : Option GroupRevisionClaim} {fresh : ℕ}
    (hfresh : decideFreshness options record revision claim now = .answer (.fresh fresh)) :
    (∃ held, revision = some held ∧ targetOf claim (requiredOf record) ≤ held) ∨
      now < (fetchStateOf record).nextAttemptAt ∧
        targetOf claim (requiredOf record) ∈ (fetchStateOf record).fetchedClaims ∧
        (fetchStateOf record).head.isSome := by
  unfold decideFreshness at hfresh
  split at hfresh
  · cases hfresh
  · cases revision with
    | none => exact .inr (windowDecision_eq_fresh hfresh)
    | some revision =>
      simp only at hfresh
      split at hfresh
      · rename_i hreached
        exact .inl ⟨revision, rfl, hreached⟩
      · exact .inr (windowDecision_eq_fresh hfresh)

theorem decideFreshness_eq_apply {options : GroupFetcherOptions}
    {record : Option GroupReceiveRecord} {wait : GroupFreshness}
    {claim : Option GroupRevisionClaim} {required : ℕ}
    (happly : decideFreshness options record revision claim now = .apply target required wait) :
    target = targetOf claim required ∧ ∀ fresh, wait ≠ .fresh fresh := by
  have hwin {init : GroupFetchState} {revision : Option ℕ} {target' required' : ℕ}
      (happly : windowDecision options init revision claim target' required' now =
        .apply target required wait) :
      target = target' ∧ required = required' ∧ ∀ fresh, wait ≠ .fresh fresh := by
    unfold windowDecision at happly
    split at happly
    · simp only at happly
      split at happly
      · split at happly
        · split at happly <;> cases happly
        · cases happly
      · split at happly
        · split at happly
          · cases happly
            exact ⟨rfl, rfl, fun _ => nofun⟩
          · cases happly
        · cases happly
    · cases happly
  unfold decideFreshness at happly
  split at happly
  · cases happly
  · cases revision with
    | none =>
      obtain ⟨rfl, rfl, hwait⟩ := hwin happly
      exact ⟨rfl, hwait⟩
    | some revision =>
      simp only at happly
      split at happly
      · cases happly
      · obtain ⟨rfl, rfl, hwait⟩ := hwin happly
        exact ⟨rfl, hwait⟩

namespace FetcherState

variable {options : GroupFetcherOptions} {state next : FetcherState} {event : FetcherEvent}

/-- The stored state of the group reached a revision. -/
def Holds (state : FetcherState) (target : ℕ) : Prop :=
  ∃ revision, state.revision = some revision ∧ target ≤ revision

/-- The stored revision never falls, and a sync or a change returns a state that is stored. -/
def StoreContract (state : FetcherState) : FetcherEvent → Prop
  | .store revision => ∀ held, state.revision = some held → held ≤ revision
  | .applyReturns _ (some head) => state.Holds head
  | .syncReturns _ (.ok head) => state.Holds head
  | _ => True

def AskedIn (state : FetcherState) (window claim : ℕ) : Prop :=
  ∃ sync ∈ state.trace.syncs, sync.window = window ∧ sync.target = claim

def Answered (state : FetcherState) (window claim : ℕ) : Prop :=
  state.Holds claim ∨ state.AskedIn window claim

/-- A budgeted outcome that reaches a head in an open window finds no other claim there that is
above the state and whose own fetch reached no head. -/
def NoneUnanswered (state : FetcherState) : FetcherEvent → Prop
  | .recordOutcome id => ∀ fetch ∈ state.running, fetch.id = id → fetch.serverCall = true →
      ∀ head server, fetch.stage = .recording (.synced head server) → state.WindowOpen →
        ∀ claim ∈ (fetchStateOf state.record).fetchedClaims,
          claim = fetch.target ∨ state.Answered state.trace.window claim
  | _ => True

/-- Why a call may answer that the group is fresh: the state reached its claim, or a sync for this
claim succeeded, in the open window of the record that it read or as the fetch of this call, and
the state reached the head of that sync. -/
def FreshJustified (state : FetcherState) : CallState → Prop
  | .reading claim _ (some read) _ =>
    state.Holds (targetOf claim (requiredOf read.record)) ∨
      state.now < (fetchStateOf read.record).nextAttemptAt ∧
        ∃ sync ∈ state.trace.syncs, sync.window = read.window ∧
          sync.target = targetOf claim (requiredOf read.record) ∧ state.Holds sync.head
  | .awaiting plan fetch =>
    state.Holds (targetOf plan.claim plan.required) ∨
      ∃ sync ∈ state.trace.syncs, sync.fetch = fetch ∧
        sync.target = targetOf plan.claim plan.required ∧ state.Holds sync.head
  | _ => False

def HeadAnswered (state : FetcherState) (init : GroupFetchState) (window : ℕ) : Prop :=
  init.head.isSome → ∀ claim ∈ init.fetchedClaims, state.Answered window claim

def HeadStored (state : FetcherState) (target head : ℕ) (server : Bool) : Prop :=
  state.Holds head ∧ (server = false → target ≤ head)

def OutcomeStored (state : FetcherState) (id target : ℕ) (outcome : FetchOutcome) : Prop :=
  ∀ head server, outcome = .recorded (.synced head server) →
    state.HeadStored target head server ∧ (server = true → ∃ sync ∈ state.trace.syncs,
      sync.fetch = id ∧ sync.target = target ∧ sync.head = head)

def StageStored (state : FetcherState) (fetch : RunningFetch) : Prop :=
  match fetch.stage with
  | .recording (.synced head server) => state.HeadStored fetch.target head server
  | .settling outcome => state.OutcomeStored fetch.id fetch.target outcome
  | _ => True

def CallStored (state : FetcherState) : CallState → Prop
  | .reading _ _ read revision =>
    (∀ record, read = some record → state.HeadAnswered (fetchStateOf record.record) record.window) ∧
    ∀ held, revision = some (some held) → state.Holds held
  | .starting _ _ plan => plan.target = targetOf plan.claim plan.required ∧
      ∀ fresh, plan.wait ≠ some (.fresh fresh)
  | .awaiting plan fetch => (plan.target = targetOf plan.claim plan.required ∧
      ∀ fresh, plan.wait ≠ some (.fresh fresh)) ∧ fetch < state.nextFetch ∧
        (∀ running ∈ state.running, running.id = fetch → running.target = plan.target) ∧
        ∀ settled ∈ state.settled, settled.id = fetch → settled.target = plan.target
  | _ => True

structure FreshKept (state : FetcherState) : Prop where
  syncs : ∀ sync ∈ state.trace.syncs, state.Holds sync.head
  current : state.HeadAnswered (fetchStateOf state.record) state.trace.window
  calls : ∀ call, state.CallStored (state.calls call)
  running : ∀ fetch ∈ state.running, fetch.id < state.nextFetch ∧ state.StageStored fetch
  settled : ∀ settled ∈ state.settled, settled.id < state.nextFetch ∧
    state.OutcomeStored settled.id settled.target settled.outcome

theorem freshKept_initial (now : ℕ) (revision : Option ℕ) : (initial now revision).FreshKept where
  syncs := nofun
  current := nofun
  calls _ := trivial
  running := nofun
  settled := nofun

structure Later (state next : FetcherState) : Prop where
  holds : ∀ target, state.Holds target → next.Holds target
  syncs : ∀ sync ∈ state.trace.syncs, sync ∈ next.trace.syncs

theorem Later.of_eq (hrev : next.revision = state.revision)
    (hsyncs : next.trace.syncs = state.trace.syncs) : Later state next :=
  ⟨fun _ hholds => by rwa [Holds, hrev], fun _ hsync => hsyncs ▸ hsync⟩

section

variable (hlater : Later state next)

include hlater

theorem Later.answered {claim : ℕ}
    (hanswered : state.Answered window claim) : next.Answered window claim := by
  rcases hanswered with hholds | ⟨sync, hsync, hasked⟩
  · exact .inl (hlater.holds claim hholds)
  · exact .inr ⟨sync, hlater.syncs sync hsync, hasked⟩

theorem Later.headAnswered {init : GroupFetchState}
    (hhead : state.HeadAnswered init window) : next.HeadAnswered init window :=
  fun hsome claim hclaim => hlater.answered (hhead hsome claim hclaim)

theorem Later.headStored {head : ℕ}
    (hstored : state.HeadStored target head server) : next.HeadStored target head server :=
  ⟨hlater.holds head hstored.1, hstored.2⟩

theorem Later.outcomeStored {id : ℕ} {outcome : FetchOutcome}
    (hstored : state.OutcomeStored id target outcome) : next.OutcomeStored id target outcome := by
  intro head server hsynced
  obtain ⟨hhead, hserver⟩ := hstored head server hsynced
  refine ⟨hlater.headStored hhead, fun hcalled => ?_⟩
  obtain ⟨sync, hsync, hfields⟩ := hserver hcalled
  exact ⟨sync, hlater.syncs sync hsync, hfields⟩

theorem Later.stageStored (hstored : state.StageStored fetch) : next.StageStored fetch := by
  unfold StageStored at hstored ⊢
  cases hstage : fetch.stage with
  | applying => trivial
  | syncing => trivial
  | recording outcome =>
    rw [hstage] at hstored
    cases outcome with
    | synced head server => exact hlater.headStored hstored
    | denied reason => trivial
    | failed => trivial
  | settling outcome =>
    rw [hstage] at hstored
    exact hlater.outcomeStored hstored

theorem Later.callStored (hnextFetch : state.nextFetch ≤ next.nextFetch)
    (hrunning : ∀ fetch ∈ next.running, state.nextFetch ≤ fetch.id ∨
      ∃ fetch' ∈ state.running, fetch'.id = fetch.id ∧ fetch'.target = fetch.target)
    (hsettled : ∀ settled ∈ next.settled, settled ∈ state.settled ∨
      ∃ fetch ∈ state.running, fetch.id = settled.id ∧ fetch.target = settled.target)
    (hstored : state.CallStored callState) : next.CallStored callState := by
  cases callState with
  | reading claim round read revision =>
    exact ⟨fun record hread => hlater.headAnswered (hstored.1 record hread),
      fun held hheld => hlater.holds held (hstored.2 held hheld)⟩
  | starting round read plan => exact hstored
  | awaiting plan fetch =>
    obtain ⟨hplan, hid, hrun, hset⟩ := hstored
    refine ⟨hplan, hid.trans_le hnextFetch, fun other hother hsame => ?_,
      fun other hother hsame => ?_⟩
    · rcases hrunning other hother with hnew | ⟨fetch', hfetch', hid', htarget'⟩
      · omega
      · rw [← htarget']
        exact hrun fetch' hfetch' (hid'.trans hsame)
    · rcases hsettled other hother with hold | ⟨fetch', hfetch', hid', htarget'⟩
      · exact hset other hold hsame
      · rw [← htarget']
        exact hrun fetch' hfetch' (hid'.trans hsame)
  | _ => trivial

end

theorem FreshKept.move {call : ℕ} (hkept : state.FreshKept)
    (hcall : state.CallStored callState) : (state.setCall call callState).FreshKept := by
  have hlater : Later state (state.setCall call callState) := .of_eq rfl rfl
  have hstored {other : CallState} (hother : state.CallStored other) :
      (state.setCall call callState).CallStored other :=
    hlater.callStored le_rfl (fun fetch hfetch => .inr ⟨fetch, hfetch, rfl, rfl⟩)
      (fun settled hsettled => .inl hsettled) hother
  exact ⟨hkept.syncs, hkept.current,
    forall_update (fun other => hstored (hkept.calls other)) (hstored hcall), hkept.running,
    hkept.settled⟩

theorem Bare.callStored (hbare : Bare callState) : state.CallStored callState := by
  cases callState with
  | reading claim round read revision =>
    cases read with
    | some read => exact hbare.elim
    | none =>
      cases revision with
      | some revision => exact hbare.elim
      | none => exact ⟨nofun, nofun⟩
  | starting round read plan => exact hbare.elim
  | awaiting plan fetch => exact hbare.elim
  | _ => trivial

theorem CallMove.callStored {callState' : CallState}
    (hmove : CallMove options state callState callState') (hkept : state.FreshKept)
    (hbefore : state.CallStored callState) : state.CallStored callState' := by
  cases hmove with
  | readRecord claim round revision =>
    refine ⟨fun record hread => ?_, hbefore.2⟩
    cases hread
    exact hkept.current
  | readState claim round read => exact ⟨hbefore.1, fun held hheld => ⟨held, by simpa using hheld, le_rfl⟩⟩
  | planned claim round read revision target required hdecide =>
    exact ⟨(decideFreshness_eq_fetch hdecide).1, fun _ => nofun⟩
  | plannedApply claim round read revision target required wait hdecide =>
    obtain ⟨htarget, hwait⟩ := decideFreshness_eq_apply hdecide
    exact ⟨htarget, fun fresh hsome => hwait fresh (Option.some.inj hsome)⟩
  | decided claim round read revision freshness hdecide => trivial
  | settled plan fetch outcome hout =>
    cases outcome with
    | notApplied => trivial
    | recorded outcome => cases outcome <;> trivial
  | bare callState next hnext => exact hnext.callStored

section

variable (hkept : state.FreshKept)

include hkept

variable {revision : ℕ}

theorem FreshKept.store (hcontract : ∀ held, state.revision = some held → held ≤ revision) :
    FreshKept { state with revision := some revision } := by
  have hlater : Later state { state with revision := some revision } := by
    refine ⟨fun target hholds => ?_, fun _ hsync => hsync⟩
    obtain ⟨held, hheld, hle⟩ := hholds
    exact ⟨revision, rfl, hle.trans (hcontract held hheld)⟩
  exact ⟨fun sync hsync => hlater.holds _ (hkept.syncs sync hsync),
    hlater.headAnswered hkept.current, fun call => hlater.callStored le_rfl
      (fun fetch hfetch => .inr ⟨fetch, hfetch, rfl, rfl⟩) (fun _ hsettled => .inl hsettled)
      (hkept.calls call),
    fun fetch hfetch => ⟨(hkept.running fetch hfetch).1,
      hlater.stageStored (hkept.running fetch hfetch).2⟩,
    fun settled hsettled => ⟨(hkept.settled settled hsettled).1,
      hlater.outcomeStored (hkept.settled settled hsettled).2⟩⟩

theorem FreshKept.ofRunning (hlater : Later state next) (hcalls : next.calls = state.calls)
    (hnextFetch : next.nextFetch = state.nextFetch) (hsettled : next.settled = state.settled)
    (hsyncs : ∀ sync ∈ next.trace.syncs, next.Holds sync.head)
    (hcur : next.HeadAnswered (fetchStateOf next.record) next.trace.window)
    (hrunning : ∀ fetch ∈ next.running, next.StageStored fetch ∧
      ∃ fetch' ∈ state.running, fetch'.id = fetch.id ∧ fetch'.target = fetch.target) :
    next.FreshKept := by
  refine ⟨hsyncs, hcur, fun call => ?_, fun fetch hfetch => ?_, fun settled hmem => ?_⟩
  · rw [hcalls]
    refine hlater.callStored hnextFetch.ge (fun fetch hfetch => .inr (hrunning fetch hfetch).2)
      (fun settled hmem => .inl (hsettled ▸ hmem)) (hkept.calls call)
  · obtain ⟨hstage, fetch', hfetch', hid, -⟩ := hrunning fetch hfetch
    rw [hnextFetch, ← hid]
    exact ⟨(hkept.running fetch' hfetch').1, hstage⟩
  · rw [hsettled] at hmem
    rw [hnextFetch]
    exact ⟨(hkept.settled settled hmem).1, hlater.outcomeStored (hkept.settled settled hmem).2⟩

theorem FreshKept.claim {record : GroupReceiveRecord}
    (hinit : record.init = state.init) : (state.withClaim revision record).FreshKept := by
  have hlater : Later state (state.withClaim revision record) := .of_eq rfl rfl
  refine hkept.ofRunning hlater rfl rfl rfl hkept.syncs ?_ fun raised hmem => ?_
  · have hsame : fetchStateOf (some record) = fetchStateOf state.record := hinit
    show HeadAnswered _ (fetchStateOf (some record)) state.trace.window
    rw [hsame]
    exact hkept.current
  · obtain ⟨fetch, hfetch, rfl⟩ := mem_map.mp hmem
    have hstored := hlater.stageStored (hkept.running fetch hfetch).2
    rw [raiseInFlight]
    split
    · exact ⟨hstored, fetch, hfetch, rfl, rfl⟩
    · exact ⟨hstored, fetch, hfetch, rfl, rfl⟩

theorem FreshKept.start {required : ℕ} :
    (state.startFetch target required change serverCall manual).FreshKept := by
  have hlater : Later state (state.startFetch target required change serverCall manual) :=
    .of_eq rfl rfl
  refine ⟨hkept.syncs, hkept.current, fun call => ?_, fun fetch hfetch => ?_, fun settled hmem => ?_⟩
  · refine hlater.callStored (Nat.le_succ _) (fun fetch hfetch => ?_)
      (fun settled hmem => .inl hmem) (hkept.calls call)
    rcases mem_append.mp hfetch with hold | hnew
    · exact .inr ⟨fetch, hold, rfl, rfl⟩
    · rw [mem_singleton.mp hnew]
      exact .inl le_rfl
  · rcases mem_append.mp hfetch with hold | hnew
    · obtain ⟨hid, hstage⟩ := hkept.running fetch hold
      exact ⟨hid.trans (Nat.lt_succ_self _), hlater.stageStored hstage⟩
    · rw [mem_singleton.mp hnew]
      refine ⟨Nat.lt_succ_self _, ?_⟩
      cases change with
      | true => trivial
      | false =>
        cases serverCall with
        | true => trivial
        | false => exact nofun
  · obtain ⟨hid, hout⟩ := hkept.settled settled hmem
    exact ⟨hid.trans (Nat.lt_succ_self _), hlater.outcomeStored hout⟩

theorem FreshKept.await {plan : PlannedFetch}
    (hplan : plan.target = targetOf plan.claim plan.required)
    (hwait : ∀ fresh, plan.wait ≠ some (.fresh fresh)) :
    (state.startFetch plan.target plan.required change serverCall manual).CallStored
      (.awaiting plan state.nextFetch) := by
  refine ⟨⟨hplan, hwait⟩, Nat.lt_succ_self _, fun fetch hfetch hsame => ?_,
    fun settled hmem hsame => ?_⟩
  · rcases mem_append.mp hfetch with hold | hnew
    · exact absurd hsame (hkept.running fetch hold).1.ne
    · rw [mem_singleton.mp hnew]
  · exact absurd hsame (hkept.settled settled hmem).1.ne

theorem FreshKept.progress {stage : FetchStage}
    (hsingle : state.Single) (hfetch : fetch ∈ state.running)
    (hstage : state.StageStored { fetch with stage }) : (state.setStage fetch stage).FreshKept := by
  have hlater : Later state (state.setStage fetch stage) := .of_eq rfl rfl
  refine hkept.ofRunning hlater rfl rfl rfl hkept.syncs hkept.current ?_
  rw [hsingle.running_setStage hfetch stage]
  exact forall_mem_singleton.mpr ⟨hlater.stageStored hstage, fetch, hfetch, rfl, rfl⟩

end

theorem afterApply_stored {result : Option ℕ}
    (hcontract : ∀ head, result = some head → state.Holds head) :
    state.StageStored { fetch with stage := afterApply fetch result } := by
  have hnoChange : state.StageStored { fetch with
      stage := if fetch.serverCall then .syncing else .settling .notApplied } := by
    cases hserver : fetch.serverCall with
    | true => trivial
    | false => exact nofun
  cases result with
  | none => exact hnoChange
  | some head =>
    rw [afterApply]
    by_cases hreached : fetch.target ≤ head
    · rw [if_pos hreached]
      exact ⟨hcontract head rfl, fun _ => hreached⟩
    · rw [if_neg hreached]
      exact hnoChange

theorem syncOutcome_stored {result : Except SyncError ℕ}
    (hcontract : ∀ head, result = .ok head → state.Holds head) :
    state.StageStored { fetch with stage := .recording (syncOutcome result) } := by
  cases result with
  | ok head => exact ⟨hcontract head rfl, nofun⟩
  | error error =>
    rw [syncOutcome]
    cases groupFetchDenial error <;> trivial

theorem FreshKept.settle {outcome : FetchOutcome} (hkept : state.FreshKept)
    (hfetch : fetch ∈ state.running) (hstage : fetch.stage = .settling outcome) :
    (state.settleFetch fetch outcome).FreshKept := by
  have hlater : Later state (state.settleFetch fetch outcome) := .of_eq rfl rfl
  obtain ⟨hid, hstored⟩ := hkept.running fetch hfetch
  rw [StageStored, hstage] at hstored
  have hkeep {other : RunningFetch} (hother : other ∈ (state.settleFetch fetch outcome).running) :
      other ∈ state.running := (mem_filter.mp hother).1
  refine ⟨hkept.syncs, hkept.current, fun call => ?_, fun other hother => ?_, fun settled hmem => ?_⟩
  · refine hlater.callStored le_rfl (fun other hother => .inr ⟨other, hkeep hother, rfl, rfl⟩)
      (fun settled hmem => ?_) (hkept.calls call)
    rcases mem_append.mp hmem with hold | hnew
    · exact .inl hold
    · rw [mem_singleton.mp hnew]
      exact .inr ⟨fetch, hfetch, rfl, rfl⟩
  · obtain ⟨hid, hother⟩ := hkept.running other (hkeep hother)
    exact ⟨hid, hlater.stageStored hother⟩
  · rcases mem_append.mp hmem with hold | hnew
    · exact ⟨(hkept.settled settled hold).1, hlater.outcomeStored (hkept.settled settled hold).2⟩
    · rw [mem_singleton.mp hnew]
      exact ⟨hid, hlater.outcomeStored hstored⟩

theorem mem_of_mem_claimsAfter {claim : ℕ} (hclaim : claim ∈ state.claimsAfter target) :
    claim = target ∨ state.WindowOpen ∧ claim ∈ state.init.fetchedClaims := by
  have hwin (hmem : claim ∈ if state.WindowOpen then state.init.fetchedClaims else []) :
      state.WindowOpen ∧ claim ∈ state.init.fetchedClaims := by
    by_cases hopen : state.WindowOpen
    · rw [if_pos hopen] at hmem
      exact ⟨hopen, hmem⟩
    · rw [if_neg hopen] at hmem
      cases hmem
  unfold claimsAfter at hclaim
  simp only at hclaim
  by_cases htarget : target ∈ if state.WindowOpen then state.init.fetchedClaims else []
  · rw [if_pos htarget] at hclaim
    exact .inr (hwin hclaim)
  · rw [if_neg htarget] at hclaim
    rcases mem_append.mp hclaim with hold | hnew
    · exact .inr (hwin hold)
    · exact .inl (mem_singleton.mp hnew)

theorem withOutcome_later (fetch : RunningFetch) (outcome : RecordedOutcome) :
    Later state (state.withOutcome fetch outcome) := by
  refine ⟨fun _ hholds => hholds, fun sync hsync => ?_⟩
  cases outcome with
  | synced head server =>
    cases server with
    | true => exact mem_append_left _ hsync
    | false => exact hsync
  | denied reason => exact hsync
  | failed => exact hsync

theorem withOutcome_window_of_open (fetch : RunningFetch) (outcome : RecordedOutcome)
    (hopen : state.WindowOpen) :
    (state.withOutcome fetch outcome).trace.window = state.trace.window :=
  if_neg fun hopens => hopens.2 hopen

theorem withOutcome_window_unbudgeted (outcome : RecordedOutcome)
    (hserver : fetch.serverCall = false) :
    (state.withOutcome fetch outcome).trace.window = state.trace.window :=
  if_neg fun hopens => absurd hopens.1 (hserver ▸ Bool.false_ne_true)

theorem withOutcome_sync (fetch : RunningFetch) (head : ℕ) :
    (⟨fetch.id, fetch.target, head,
      (state.withOutcome fetch (.synced head true)).trace.window⟩ : SyncCall) ∈
      (state.withOutcome fetch (.synced head true)).trace.syncs :=
  mem_append_right _ (mem_singleton_self _)

theorem FreshKept.synced {head : ℕ} (hkept : state.FreshKept) (hclaims : state.ClaimsKept)
    (hfetch : fetch ∈ state.running) (hstage : fetch.stage = .recording (.synced head server))
    (hanswered : state.NoneUnanswered (.recordOutcome fetch.id)) :
    (state.withOutcome fetch (.synced head server)).FreshKept := by
  have hlater := state.withOutcome_later fetch (.synced head server)
  obtain ⟨-, hstored⟩ := hkept.running fetch hfetch
  rw [StageStored, hstage] at hstored
  have hrunning : (state.withOutcome fetch (.synced head server)).running =
      [{ fetch with stage := .settling (.recorded (.synced head server)) }] :=
    hclaims.single.running_setStage hfetch _
  refine hkept.ofRunning hlater rfl rfl rfl ?_ ?_ ?_
  · intro sync hsync
    cases server with
    | false => exact hlater.holds _ (hkept.syncs sync hsync)
    | true =>
      rcases mem_append.mp hsync with hold | hnew
      · exact hlater.holds _ (hkept.syncs sync hold)
      · rw [mem_singleton.mp hnew]
        exact hlater.holds _ hstored.1
  · cases hserver : fetch.serverCall with
    | false =>
      -- The window stays as it is.
      have hinit : fetchStateOf (state.withOutcome fetch (.synced head server)).record =
          fetchStateOf state.record := withOutcome_unbudgeted hserver head server
      rw [hinit, withOutcome_window_unbudgeted _ hserver]
      exact hlater.headAnswered hkept.current
    | true =>
      intro _ claim hclaim
      have hmem : claim ∈ state.claimsAfter fetch.target := by
        rw [← withOutcome_fetchedClaims hserver (.synced head server)]
        exact hclaim
      have htarget : (state.withOutcome fetch (.synced head server)).Answered
          (state.withOutcome fetch (.synced head server)).trace.window fetch.target := by
        cases server with
        | true => exact .inr ⟨_, state.withOutcome_sync fetch head, rfl, rfl⟩
        | false =>
          obtain ⟨revision, hrev, hle⟩ := hstored.1
          exact .inl ⟨revision, hrev, (hstored.2 rfl).trans hle⟩
      rcases mem_of_mem_claimsAfter hmem with rfl | ⟨hopen, hold⟩
      · exact htarget
      · rcases hanswered fetch hfetch rfl hserver head server hstage hopen claim hold with
          rfl | hother
        · exact htarget
        · rw [withOutcome_window_of_open _ _ hopen]
          exact hlater.answered hother
  · rw [hrunning]
    refine forall_mem_singleton.mpr ⟨?_, fetch, hfetch, rfl, rfl⟩
    rintro head' server' ⟨⟩
    refine ⟨hlater.headStored hstored, ?_⟩
    rintro rfl
    exact ⟨_, state.withOutcome_sync fetch head, rfl, rfl, rfl⟩

theorem FreshKept.outcome {outcome : RecordedOutcome}
    (hkept : state.FreshKept) (hclaims : state.ClaimsKept) (hfetch : fetch ∈ state.running)
    (hstage : fetch.stage = .recording outcome)
    (hanswered : state.NoneUnanswered (.recordOutcome fetch.id)) :
    (state.withOutcome fetch outcome).FreshKept := by
  have hlater := state.withOutcome_later fetch outcome
  have hcalls := hclaims.serverCall fetch hfetch
  rw [hstage] at hcalls
  have hrunning : (state.withOutcome fetch outcome).running =
      [{ fetch with stage := .settling (.recorded outcome) }] :=
    hclaims.single.running_setStage hfetch _
  cases outcome with
  | synced head server => exact hkept.synced hclaims hfetch hstage hanswered
  | denied reason =>
    refine hkept.ofRunning hlater rfl rfl rfl hkept.syncs ?_ ?_
    · have hinit : (state.withOutcome fetch (.denied reason)).init = _ :=
        withOutcome_init (hcalls trivial) (.denied reason)
      intro hhead
      rw [← init, hinit] at hhead
      cases hhead
    · rw [hrunning]
      refine forall_mem_singleton.mpr ⟨?_, fetch, hfetch, rfl, rfl⟩
      rintro head server ⟨⟩
  | failed =>
    refine hkept.ofRunning hlater rfl rfl rfl hkept.syncs ?_ ?_
    · have hinit : (state.withOutcome fetch .failed).init = _ :=
        withOutcome_init (hcalls trivial) .failed
      intro hhead
      rw [← init, hinit] at hhead
      cases hhead
    · rw [hrunning]
      refine forall_mem_singleton.mpr ⟨?_, fetch, hfetch, rfl, rfl⟩
      rintro head server ⟨⟩

theorem FreshKept.step (hkept : state.FreshKept) (hclaims : state.ClaimsKept)
    (hcontract : state.StoreContract event) (hanswered : state.NoneUnanswered event)
    (hstep : FetcherStep options state event next) : next.FreshKept := by
  cases hstep with
  | tick elapsed =>
    have hlater : Later state { state with now := state.now + elapsed } := .of_eq rfl rfl
    refine hkept.ofRunning hlater rfl rfl rfl hkept.syncs hkept.current fun fetch hfetch => ?_
    exact ⟨(hkept.running fetch hfetch).2, fetch, hfetch, rfl, rfl⟩
  | store revision => exact hkept.store hcontract
  | claimed event revision record hrequired hinit => exact hkept.claim hinit
  | moved event call callState hmove =>
    exact hkept.move (hmove.callStored hkept (hkept.calls call))
  | started call round read plan change hcall hfree =>
    have hplan := hkept.calls call
    rw [hcall] at hplan
    exact hkept.start.move (hkept.await hplan.1 hplan.2)
  | syncStarted call required hfree => exact hkept.start.move trivial
  | applied fetch result hfetch hstage =>
    refine hkept.progress hclaims.single hfetch (afterApply_stored ?_)
    rintro head rfl
    exact hcontract
  | synced fetch result hfetch hstage =>
    refine hkept.progress hclaims.single hfetch (syncOutcome_stored ?_)
    rintro head rfl
    exact hcontract
  | recorded fetch outcome hfetch hstage => exact hkept.outcome hclaims hfetch hstage hanswered
  | settled fetch outcome hfetch hstage => exact hkept.settle hfetch hstage

theorem freshKept_reachable
    (hreach : (system options fun state event =>
      state.StoreContract event ∧ state.NoneUnanswered event).Reachable state) :
    state.FreshKept := by
  have hkept : state.ClaimsKept ∧ state.FreshKept := by
    apply hreach.invariant
    · rintro start ⟨now, revision, rfl⟩
      exact ⟨claimsKept_initial now revision, freshKept_initial now revision⟩
    · rintro before after ⟨hclaims, hfresh⟩ ⟨event, ⟨hcontract, hanswered⟩, hstep⟩
      have hstep := perform_step hstep
      exact ⟨hclaims.step hstep, hfresh.step hclaims hcontract hanswered hstep⟩
  exact hkept.2

theorem outcomeOf_eq_some {fetch : ℕ} {outcome : FetchOutcome}
    (hout : state.outcomeOf fetch = some outcome) :
    ∃ settled ∈ state.settled, settled.id = fetch ∧ settled.outcome = outcome := by
  obtain ⟨settled, hfound, rfl⟩ := Option.map_eq_some_iff.mp hout
  exact ⟨settled, mem_of_find?_eq_some hfound, by simpa using find?_some hfound, rfl⟩

theorem CallMove.freshJustified {fresh : ℕ}
    (hmove : CallMove options state callState (.answered (.fresh fresh)))
    (hkept : state.FreshKept) (hstored : state.CallStored callState) :
    state.FreshJustified callState := by
  generalize hanswer : CallState.answered (.fresh fresh) = answer at hmove
  cases hmove with
  | readRecord claim round revision => cases hanswer
  | readState claim round read => cases hanswer
  | planned claim round read revision target required hdecide => cases hanswer
  | plannedApply claim round read revision target required wait hdecide => cases hanswer
  | bare callState next hnext =>
    subst hanswer
    exact hnext.elim
  | decided claim round read revision freshness hdecide =>
    cases hanswer
    rcases decideFreshness_eq_fresh hdecide with ⟨held, rfl, hreached⟩ | ⟨hopen, hmem, hhead⟩
    · obtain ⟨stored, hrev, hle⟩ := hstored.2 held rfl
      exact .inl ⟨stored, hrev, hreached.trans hle⟩
    · rcases hstored.1 read rfl hhead _ hmem with hholds | ⟨sync, hsync, hwin, htarget⟩
      · exact .inl hholds
      · exact .inr ⟨hopen, sync, hsync, hwin, htarget, hkept.syncs sync hsync⟩
  | settled plan fetch outcome hout =>
    obtain ⟨⟨hplan, hwait⟩, -, -, htargets⟩ := hstored
    obtain ⟨settled, hsettled, hid, rfl⟩ := outcomeOf_eq_some hout
    have htarget := htargets settled hsettled hid
    cases hkind : settled.outcome with
    | notApplied =>
      rw [hkind] at hanswer
      cases hsome : plan.wait with
      | none =>
        rw [answerOf, hsome] at hanswer
        cases hanswer
      | some wait =>
        rw [answerOf, hsome] at hanswer
        cases hanswer
        exact absurd hsome (hwait fresh)
    | recorded outcome =>
      cases outcome with
      | denied reason =>
        rw [hkind] at hanswer
        cases hanswer
      | failed =>
        rw [hkind] at hanswer
        cases hanswer
      | synced head server =>
        obtain ⟨⟨⟨revision, hrev, hle⟩, hcarried⟩, hsynced⟩ :=
          (hkept.settled settled hsettled).2 head server hkind
        cases server with
        | false =>
          left
          rw [← hplan, ← htarget]
          exact ⟨revision, hrev, (hcarried rfl).trans hle⟩
        | true =>
          obtain ⟨sync, hsync, hfetch, hasked, -⟩ := hsynced rfl
          right
          refine ⟨sync, hsync, hfetch.trans hid, ?_, hkept.syncs sync hsync⟩
          rw [hasked, htarget, hplan]

def carriedChange : List FetcherEvent :=
  [.ensureFresh 2 (some ⟨6, some []⟩), .advance 2, .readRecord 2, .readState 2, .advance 2,
    .start 2, .store 6, .applyReturns 1 (some 6), .recordOutcome 1, .settle 1]

/-- A call for revision 10, up to its decision. -/
def claimedAgain : List FetcherEvent :=
  [.ensureFresh 3 (some exampleClaim), .advance 3, .readRecord 3, .readState 3]

end FetcherState

end SignalProtocol.Groups
