import Mathlib.Data.List.Nodup
import Mathlib.Data.List.Perm.Subperm
import SignalProtocol.Proof.FetcherClaims

/-! # The fetch budget of a window

A call decides on a record that it read before. -/

namespace SignalProtocol.Groups

open List

variable {callState : CallState} {revision : Option ℕ} {fetch : RunningFetch} {target : ℕ}

variable {change : Bool} {callState' : CallState} {allowed : FetcherState → FetcherEvent → Prop}
  {property : RecordRead → Prop} {now : ℕ}

theorem windowDecision_eq_fetch {options : GroupFetcherOptions} {init : GroupFetchState}
    {claim : Option GroupRevisionClaim} {required : ℕ} {target' required' : ℕ}
    (hfetch : windowDecision options init revision claim target required now =
      .fetch target' required') :
    target' = target ∧ required' = required ∧ (now < init.nextAttemptAt →
      target ∉ init.fetchedClaims ∧ init.fetchedClaims.length < groupFetchClaimsPerWindow) := by
  unfold windowDecision at hfetch
  by_cases hopen : now < init.nextAttemptAt
  · rw [if_pos hopen] at hfetch
    by_cases hmem : target ∈ init.fetchedClaims
    · simp only [hmem, if_true] at hfetch
      split at hfetch
      · split at hfetch <;> cases hfetch
      · cases hfetch
    · simp only [hmem, if_false] at hfetch
      by_cases hfull : groupFetchClaimsPerWindow ≤ init.fetchedClaims.length
      · rw [if_pos hfull] at hfetch
        split at hfetch <;> cases hfetch
      · rw [if_neg hfull] at hfetch
        cases hfetch
        exact ⟨rfl, rfl, fun _ => ⟨hmem, Nat.lt_of_not_le hfull⟩⟩
  · rw [if_neg hopen] at hfetch
    cases hfetch
    exact ⟨rfl, rfl, fun h => absurd h hopen⟩

theorem decideFreshness_eq_fetch {options : GroupFetcherOptions}
    {record : Option GroupReceiveRecord} {claim : Option GroupRevisionClaim} {required : ℕ}
    (hfetch : decideFreshness options record revision claim now = .fetch target required) :
    target = targetOf claim required ∧ (now < (fetchStateOf record).nextAttemptAt →
      target ∉ (fetchStateOf record).fetchedClaims ∧
        (fetchStateOf record).fetchedClaims.length < groupFetchClaimsPerWindow) := by
  unfold decideFreshness at hfetch
  split at hfetch
  · cases hfetch
  · cases revision with
    | none =>
      obtain ⟨rfl, rfl, hwin⟩ := windowDecision_eq_fetch hfetch
      exact ⟨rfl, hwin⟩
    | some revision =>
      simp only at hfetch
      split at hfetch
      · cases hfetch
      · obtain ⟨rfl, rfl, hwin⟩ := windowDecision_eq_fetch hfetch
        exact ⟨rfl, hwin⟩

namespace FetcherState

variable {options : GroupFetcherOptions} {state next : FetcherState} {event : FetcherEvent}

variable (plan : PlannedFetch)

/-- No budgeted fetch recorded its outcome between the read of a decision and the start of its
fetch. -/
def CurrentRead (state : FetcherState) : FetcherEvent → Prop
  | .start call => ∀ round read plan, state.calls call = .starting round read plan →
      plan.wait = none → read.outcomes = state.trace.outcomes
  | _ => True

def ReadHas (property : RecordRead → Prop) : CallState → Prop
  | .reading _ _ (some read) _ => property read
  | .starting _ read _ => property read
  | _ => True

def PlanHas (property : RecordRead → PlannedFetch → Prop) : CallState → Prop
  | .starting _ read plan => property read plan
  | _ => True

theorem Bare.readHas (hbare : Bare callState)
    (property : RecordRead → Prop) : ReadHas property callState := by
  cases callState with
  | reading claim round read revision =>
    cases read with
    | none => trivial
    | some read => exact hbare.elim
  | starting round read plan => exact hbare.elim
  | _ => trivial

theorem Bare.planHas (hbare : Bare callState)
    (property : RecordRead → PlannedFetch → Prop) : PlanHas property callState := by
  cases callState with
  | starting round read plan => exact hbare.elim
  | _ => trivial

theorem answerOf_readHas (outcome : FetchOutcome)
    (property : RecordRead → Prop) : ReadHas property (answerOf options plan outcome) := by
  cases outcome with
  | notApplied => trivial
  | recorded outcome => cases outcome <;> trivial

theorem answerOf_planHas (outcome : FetchOutcome) (property : RecordRead → PlannedFetch → Prop) :
    PlanHas property (answerOf options plan outcome) := by
  cases outcome with
  | notApplied => trivial
  | recorded outcome => cases outcome <;> trivial

theorem CallMove.readHas
    (hmove : CallMove options state callState callState') (hbefore : ReadHas property callState)
    (hnow : property state.readNow) : ReadHas property callState' := by
  cases hmove with
  | readRecord claim round revision => exact hnow
  | readState claim round read =>
    cases read with
    | none => trivial
    | some read => exact hbefore
  | planned claim round read revision target required hdecide => exact hbefore
  | plannedApply claim round read revision target required wait hdecide => exact hbefore
  | decided claim round read revision freshness hdecide => trivial
  | settled plan fetch outcome hout => exact answerOf_readHas plan outcome property
  | bare callState next hnext => exact hnext.readHas property

theorem forall_update {calls : ℕ → CallState} {property : CallState → Prop} {call : ℕ}
    (hcalls : ∀ call, property (calls call)) (hnew : property callState) :
    ∀ other, property (Function.update calls call callState other) := by
  intro other
  by_cases hsame : other = call
  · subst hsame
    rw [Function.update_self]
    exact hnew
  · rw [Function.update_of_ne hsame]
    exact hcalls other

/-! ## The budget -/

def Unrecorded (fetch : RunningFetch) : Prop :=
  fetch.serverCall = true ∧ ∀ outcome, fetch.stage ≠ .settling outcome

def ReadCurrent (state : FetcherState) (read : RecordRead) : Prop :=
  read.outcomes ≤ state.trace.outcomes ∧
    (read.outcomes = state.trace.outcomes → fetchStateOf read.record = state.init)

def PlanAllowed (state : FetcherState) (read : RecordRead) (plan : PlannedFetch) : Prop :=
  plan.wait = none → state.now < (fetchStateOf read.record).nextAttemptAt →
    plan.target ∉ (fetchStateOf read.record).fetchedClaims ∧
      (fetchStateOf read.record).fetchedClaims.length < groupFetchClaimsPerWindow

structure BudgetKept (state : FetcherState) : Prop where
  reads : ∀ call, ReadHas state.ReadCurrent (state.calls call)
  plans : ∀ call, PlanHas state.PlanAllowed (state.calls call)
  distinct : state.trace.started.Nodup
  bounded : state.trace.started.length ≤ groupFetchClaimsPerWindow
  fetched : state.WindowOpen → ∀ target ∈ state.trace.started,
    target ∈ state.init.fetchedClaims ∨
      ∃ fetch ∈ state.running, Unrecorded fetch ∧ fetch.target = target

theorem budgetKept_initial (now : ℕ) (revision : Option ℕ) : (initial now revision).BudgetKept where
  reads _ := trivial
  plans _ := trivial
  distinct := nodup_nil
  bounded := Nat.zero_le _
  fetched := nofun

theorem readNow_current (state : FetcherState) : state.ReadCurrent state.readNow :=
  ⟨le_rfl, fun _ => rfl⟩

theorem CallMove.planAllowed (hmove : CallMove options state callState callState')
    (hbefore : PlanHas state.PlanAllowed callState) : PlanHas state.PlanAllowed callState' := by
  cases hmove with
  | readRecord claim round revision => trivial
  | readState claim round read => trivial
  | planned claim round read revision target required hdecide =>
    exact fun _ => (decideFreshness_eq_fetch hdecide).2
  | plannedApply claim round read revision target required wait hdecide => exact nofun
  | decided claim round read revision freshness hdecide => trivial
  | settled plan fetch outcome hout => exact answerOf_planHas plan outcome _
  | bare callState next hnext => exact hnext.planHas _

theorem PlanHas.imp {property property' : RecordRead → PlannedFetch → Prop}
    (hplan : PlanHas property callState) (himp : ∀ read plan, property read plan →
      property' read plan) : PlanHas property' callState := by
  cases callState with
  | starting round read plan => exact himp read plan hplan
  | _ => trivial

theorem ReadHas.imp {property' : RecordRead → Prop} (hread : ReadHas property callState)
    (himp : ∀ read, property read → property' read) : ReadHas property' callState := by
  cases callState with
  | reading claim round read revision =>
    cases read with
    | none => trivial
    | some read => exact himp read hread
  | starting round read plan => exact himp read hread
  | _ => trivial

section

variable (hkept : state.BudgetKept)

include hkept

theorem BudgetKept.tick (elapsed : ℕ) : BudgetKept { state with now := state.now + elapsed } := by
  refine ⟨hkept.reads, fun call => (hkept.plans call).imp fun read plan hplan hwait hopen => ?_,
    hkept.distinct, hkept.bounded, fun hopen => ?_⟩
  · exact hplan hwait (lt_of_le_of_lt (Nat.le_add_right _ _) hopen)
  · exact hkept.fetched (lt_of_le_of_lt (Nat.le_add_right _ _) hopen)

/-- A step that changes the running fetches, but neither their targets nor whether they are
recorded. -/
theorem BudgetKept.ofRunning {running : List RunningFetch}
    (hnow : next.now = state.now) (hcalls : next.calls = state.calls)
    (hinit : next.init = state.init) (houtcomes : next.trace.outcomes = state.trace.outcomes)
    (hstart : next.trace.started = state.trace.started) (hrunning : next.running = running)
    (hunrecorded : ∀ fetch ∈ state.running, Unrecorded fetch → ∃ fetch' ∈ running,
      Unrecorded fetch' ∧ fetch'.target = fetch.target) : next.BudgetKept := by
  have hnext : next.nextAttemptAt = state.nextAttemptAt := congrArg GroupFetchState.nextAttemptAt hinit
  refine ⟨fun call => ?_, fun call => ?_, ?_, ?_, ?_⟩
  · rw [hcalls]
    refine (hkept.reads call).imp fun read hread => ?_
    rw [ReadCurrent, houtcomes, hinit]
    exact hread
  · rw [hcalls]
    refine (hkept.plans call).imp fun read plan hplan => ?_
    rw [PlanAllowed, hnow]
    exact hplan
  · rw [hstart]
    exact hkept.distinct
  · rw [hstart]
    exact hkept.bounded
  · rw [WindowOpen, hnow, hnext, hstart, hinit]
    intro hopen target htarget
    rcases hkept.fetched hopen target htarget with hclaim | ⟨fetch, hfetch, hunrec, rfl⟩
    · exact .inl hclaim
    · obtain ⟨fetch', hfetch', hunrec', htarget'⟩ := hunrecorded fetch hfetch hunrec
      exact .inr ⟨fetch', hrunning ▸ hfetch', hunrec', htarget'⟩

theorem BudgetKept.claim {revision : ℕ} {record : GroupReceiveRecord}
    (hinit : record.init = state.init) : (state.withClaim revision record).BudgetKept := by
  refine hkept.ofRunning rfl rfl (withClaim_init hinit) rfl rfl rfl fun fetch hfetch hunrec => ?_
  refine ⟨_, mem_map_of_mem hfetch, ?_, ?_⟩
  · rw [Unrecorded, raiseInFlight]
    split <;> exact hunrec
  · rw [raiseInFlight]
    split <;> rfl

theorem BudgetKept.progress {stage : FetchStage}
    (hsingle : state.Single) (hfetch : fetch ∈ state.running)
    (hstage : fetch.serverCall = true → ∀ outcome, stage ≠ .settling outcome) :
    (state.setStage fetch stage).BudgetKept := by
  refine hkept.ofRunning rfl rfl rfl rfl rfl (hsingle.running_setStage hfetch stage) ?_
  rw [(hsingle.of_mem hfetch).1]
  refine forall_mem_singleton.mpr fun hunrec => ?_
  exact ⟨_, mem_singleton_self _, ⟨hunrec.1, hstage hunrec.1⟩, rfl⟩

theorem BudgetKept.move {call : ℕ} (hread : ReadHas state.ReadCurrent callState)
    (hplan : PlanHas state.PlanAllowed callState) : (state.setCall call callState).BudgetKept :=
  ⟨forall_update hkept.reads hread, forall_update hkept.plans hplan, hkept.distinct, hkept.bounded,
    hkept.fetched⟩

variable {required : ℕ}

theorem BudgetKept.startUnbudgeted {serverCall manual : Bool} (hsingle : state.Single)
    (hfree : state.inFlight = none) (hmanual : manual = true ∨ ¬ serverCall = true) :
    (state.startFetch target required change serverCall manual).BudgetKept := by
  refine hkept.ofRunning rfl rfl rfl rfl (if_pos hmanual) rfl ?_
  rw [hsingle.of_free hfree]
  exact nofun

theorem BudgetKept.start (hsingle : state.Single) (hfree : state.inFlight = none)
    (hallow : state.WindowOpen → target ∉ state.init.fetchedClaims ∧
      state.init.fetchedClaims.length < groupFetchClaimsPerWindow) :
    (state.startFetch target required change true false).BudgetKept := by
  have hstart : (state.startFetch target required change true false).trace.started =
      if state.WindowOpen then state.trace.started ++ [target] else [target] := by
    rw [startFetch]
    simp
  have hrunning : (state.startFetch target required change true false).running = [{
      id := state.nextFetch
      target
      required
      raised := none
      serverCall := true
      stage := if change then .applying else .syncing
      manual := false
      claimed := [] }] := by
    rw [startFetch, hsingle.of_free hfree]
    rfl
  by_cases hopen : state.WindowOpen
  · obtain ⟨hnew, hroom⟩ := hallow hopen
    rw [if_pos hopen] at hstart
    have hclaim : state.trace.started ⊆ state.init.fetchedClaims := fun other hother => by
      rcases hkept.fetched hopen other hother with hclaim | ⟨fetch, hfetch, -⟩
      · exact hclaim
      · rw [hsingle.of_free hfree] at hfetch
        cases hfetch
    have hlen := (List.subperm_of_subset hkept.distinct hclaim).length_le
    refine ⟨hkept.reads, hkept.plans, ?_, ?_, ?_⟩
    · rw [hstart, nodup_append_comm]
      exact nodup_cons.mpr ⟨fun hmem => hnew (hclaim hmem), hkept.distinct⟩
    · rw [hstart, length_append, length_singleton]
      omega
    · rw [hstart, hrunning]
      intro _ other hother
      rcases mem_append.mp hother with hprev | hlast
      · exact .inl (hclaim hprev)
      · rw [mem_singleton] at hlast
        subst hlast
        refine .inr ⟨_, mem_singleton_self _, ⟨rfl, fun outcome => ?_⟩, rfl⟩
        cases change <;> rintro ⟨⟩
  · rw [if_neg hopen] at hstart
    refine ⟨hkept.reads, hkept.plans, ?_, ?_, fun hopen' => absurd hopen' hopen⟩
    · rw [hstart]
      exact nodup_singleton _
    · rw [hstart]
      exact (by decide : 1 ≤ groupFetchClaimsPerWindow)

end

theorem mem_claimsAfter (state : FetcherState) (target : ℕ) : target ∈ state.claimsAfter target := by
  unfold claimsAfter
  simp only
  by_cases hmem : target ∈ if state.WindowOpen then state.init.fetchedClaims else []
  · rw [if_pos hmem]
    exact hmem
  · rw [if_neg hmem]
    exact mem_append_right _ (mem_singleton_self _)

theorem mem_claimsAfter_of_open {other : ℕ} (hopen : state.WindowOpen)
    (hother : other ∈ state.init.fetchedClaims) : other ∈ state.claimsAfter target := by
  rw [claimsAfter, if_pos hopen]
  split
  · exact hother
  · exact mem_append_left _ hother

theorem withOutcome_fetchedClaims (hserver : fetch.serverCall = true) (outcome : RecordedOutcome) :
    (state.withOutcome fetch outcome).init.fetchedClaims = state.claimsAfter fetch.target := by
  rw [withOutcome_init hserver]
  cases outcome <;> rfl

/-- The outcome of a budgeted fetch: its claim joins the claims of the window, or opens one. -/
theorem BudgetKept.outcome {outcome : RecordedOutcome}
    (hkept : state.BudgetKept) (hclaims : state.ClaimsKept) (hfetch : fetch ∈ state.running)
    (hserver : fetch.serverCall = true) : (state.withOutcome fetch outcome).BudgetKept := by
  have houtcomes : (state.withOutcome fetch outcome).trace.outcomes = state.trace.outcomes + 1 :=
    if_pos hserver
  have hstart : (state.withOutcome fetch outcome).trace.started =
      if ¬ (fetch.serverCall = true ∧ ¬ state.WindowOpen) then state.trace.started
      else if fetch.manual then [] else [fetch.target] := rfl
  have hreads : ∀ call, ReadHas (state.withOutcome fetch outcome).ReadCurrent
      ((state.withOutcome fetch outcome).calls call) := fun call => by
    refine (hkept.reads call).imp fun read hread => ⟨?_, fun hsame => ?_⟩
    · rw [houtcomes]
      exact hread.1.trans (Nat.le_succ _)
    · rw [houtcomes] at hsame
      have hle := hread.1
      omega
  have hplans : ∀ call, PlanHas (state.withOutcome fetch outcome).PlanAllowed
      ((state.withOutcome fetch outcome).calls call) := hkept.plans
  by_cases hopen : state.WindowOpen
  · rw [if_pos (fun hclosed => hclosed.2 hopen)] at hstart
    refine ⟨hreads, hplans, hstart ▸ hkept.distinct, hstart ▸ hkept.bounded, ?_⟩
    rw [hstart, withOutcome_fetchedClaims hserver]
    intro _ target htarget
    left
    rcases hkept.fetched hopen target htarget with hclaim | ⟨other, hother, -, rfl⟩
    · exact mem_claimsAfter_of_open hopen hclaim
    · rw [(hclaims.single.of_mem hfetch).1, mem_singleton] at hother
      subst hother
      exact state.mem_claimsAfter _
  · rw [if_neg (not_not.mpr ⟨hserver, hopen⟩)] at hstart
    cases hmanual : fetch.manual with
    | true =>
      rw [hmanual, if_pos rfl] at hstart
      refine ⟨hreads, hplans, hstart ▸ nodup_nil, hstart ▸ Nat.zero_le _, ?_⟩
      rw [hstart]
      exact fun _ => nofun
    | false =>
      rw [hmanual, if_neg Bool.false_ne_true] at hstart
      refine ⟨hreads, hplans, hstart ▸ nodup_singleton _,
        hstart ▸ (by decide : 1 ≤ groupFetchClaimsPerWindow), ?_⟩
      rw [hstart, withOutcome_fetchedClaims hserver]
      exact fun _ => forall_mem_singleton.mpr (.inl (state.mem_claimsAfter _))

theorem BudgetKept.outcomeUnbudgeted {head : ℕ} {server : Bool}
    (hkept : state.BudgetKept) (hclaims : state.ClaimsKept) (hfetch : fetch ∈ state.running)
    (hserver : fetch.serverCall = false) :
    (state.withOutcome fetch (.synced head server)).BudgetKept := by
  have hnot : ¬ fetch.serverCall = true := by
    rw [hserver]
    exact Bool.false_ne_true
  refine hkept.ofRunning rfl rfl (withOutcome_unbudgeted hserver head server) (if_neg hnot)
    (if_pos fun hopens => hnot hopens.1) (hclaims.single.running_setStage hfetch _) ?_
  rw [(hclaims.single.of_mem hfetch).1]
  exact forall_mem_singleton.mpr fun hunrec => absurd hunrec.1 hnot

theorem afterApply_ne_settling (hserver : fetch.serverCall = true)
    (result : Option ℕ) (outcome : FetchOutcome) : afterApply fetch result ≠ .settling outcome := by
  cases result with
  | none =>
    rw [afterApply, if_pos hserver]
    rintro ⟨⟩
  | some head =>
    rw [afterApply, if_pos hserver]
    split <;> rintro ⟨⟩

theorem BudgetKept.step (hkept : state.BudgetKept) (hclaims : state.ClaimsKept)
    (hcur : state.CurrentRead event) (hstep : FetcherStep options state event next) :
    next.BudgetKept := by
  cases hstep with
  | tick elapsed => exact hkept.tick elapsed
  | store revision => exact ⟨hkept.1, hkept.2, hkept.3, hkept.4, hkept.5⟩
  | claimed event revision record hrequired hinit => exact hkept.claim hinit
  | moved event call callState hmove =>
    exact hkept.move (hmove.readHas (hkept.reads call) state.readNow_current)
      (hmove.planAllowed (hkept.plans call))
  | started call round read plan change hcall hfree =>
    refine BudgetKept.move ?_ trivial trivial
    cases hwait : plan.wait with
    | some wait =>
      exact hkept.startUnbudgeted hclaims.single hfree (.inr Bool.false_ne_true)
    | none =>
      have hread := hkept.reads call
      have hplan := hkept.plans call
      rw [hcall] at hread hplan
      have hsame := hread.2 (hcur round read plan hcall hwait)
      refine hkept.start hclaims.single hfree fun hopen => ?_
      rw [← hsame]
      refine hplan hwait ?_
      rw [hsame]
      exact hopen
  | syncStarted call required hfree =>
    exact (hkept.startUnbudgeted hclaims.single hfree (.inl rfl)).move trivial trivial
  | applied fetch result hfetch hstage =>
    exact hkept.progress hclaims.single hfetch fun hserver outcome =>
      afterApply_ne_settling hserver result outcome
  | synced fetch result hfetch hstage =>
    exact hkept.progress hclaims.single hfetch fun _ _ => nofun
  | recorded fetch outcome hfetch hstage =>
    have hcalls := hclaims.serverCall fetch hfetch
    rw [hstage] at hcalls
    cases hserver : fetch.serverCall with
    | true => exact hkept.outcome hclaims hfetch hserver
    | false =>
      cases outcome with
      | synced head server => exact hkept.outcomeUnbudgeted hclaims hfetch hserver
      | denied reason => exact absurd (hcalls trivial) (hserver ▸ Bool.false_ne_true)
      | failed => exact absurd (hcalls trivial) (hserver ▸ Bool.false_ne_true)
  | settled fetch outcome hfetch hstage =>
    refine hkept.ofRunning rfl rfl rfl rfl rfl rfl ?_
    rw [(hclaims.single.of_mem hfetch).1]
    exact forall_mem_singleton.mpr fun hunrec => absurd hstage (hunrec.2 outcome)

theorem groupReceiveStatus_denied {record : Option GroupReceiveRecord}
    (hdenied : groupReceiveStatus record revision = .denied) :
    ∃ denied, (fetchStateOf record).denied = some denied ∧
      requiredOf record ≤ denied.atRevision := by
  unfold groupReceiveStatus at hdenied
  cases record with
  | none => cases revision <;> simp at hdenied
  | some record =>
    cases hlast : record.init.denied with
    | none =>
      cases revision with
      | none => simp [hlast] at hdenied
      | some revision =>
        simp only [Option.bind_some, hlast, Option.any_none, Bool.false_eq_true, if_false]
          at hdenied
        split at hdenied <;> cases hdenied
    | some denied =>
      refine ⟨denied, hlast, ?_⟩
      by_contra hlt
      have hnot : ¬ record.requiredRevision ≤ denied.atRevision := hlt
      cases revision with
      | none => simp [hlast, hnot] at hdenied
      | some revision =>
        simp only [Option.bind_some, hlast, Option.any_some, Option.map_some,
          Option.getD_some, hnot, decide_false, Bool.false_eq_true, if_false] at hdenied
        split at hdenied <;> cases hdenied

theorem claimsKept_reachable
    (hreach : (system options allowed).Reachable state) : state.ClaimsKept := by
  apply hreach.invariant
  · rintro start ⟨now, revision, rfl⟩
    exact claimsKept_initial now revision
  · rintro before after hkept ⟨event, -, hstep⟩
    exact hkept.step (perform_step hstep)

/-- A claim that was recorded while a fetch ran is not lost by its outcome; a denial is in force
only while nothing above what it answered was claimed since its fetch started; and one fetch runs at
a time. -/
theorem claims_not_lost (hreach : (system options allowed).Reachable state) :
    (∀ fetch ∈ state.running, ∀ claim ∈ fetch.claimed, claim ≤ requiredOf state.record) ∧
      (groupReceiveStatus state.record state.revision = .denied →
        ∃ denied denial, (fetchStateOf state.record).denied = some denied ∧
          state.trace.denial = some denial ∧
          denied.atRevision = max denial.target denial.required ∧
          ∀ claim ∈ denial.claimed, claim ≤ max denial.target denial.required) ∧
      state.running.length ≤ 1 := by
  have hkept := claimsKept_reachable hreach
  refine ⟨hkept.claimed, fun hstatus => ?_, hkept.single.length_le⟩
  obtain ⟨denied, hdenied, hforce⟩ := groupReceiveStatus_denied hstatus
  obtain ⟨denial, hdenial, hat⟩ := hkept.denial denied hdenied
  refine ⟨denied, denial, hdenied, hdenial, hat, fun claim hclaim => ?_⟩
  rw [← hat]
  exact (hkept.denialClaimed denial hdenial claim hclaim).trans hforce

def exampleOptions : GroupFetcherOptions := ⟨true, 10000⟩

def exampleClaim : GroupRevisionClaim := ⟨10, none⟩

/-- One call, up to the start of its fetch. -/
def fetchPlanned : List FetcherEvent :=
  [.claim 10, .ensureFresh 1 (some exampleClaim), .advance 1, .readRecord 1, .readState 1,
    .advance 1]

def fetchFails : List FetcherEvent :=
  [.start 1, .syncReturns 0 (.error ⟨false, "offline"⟩), .recordOutcome 0, .settle 0]

def staleRead : List FetcherEvent :=
  [.ensureFresh 0 (some exampleClaim), .advance 0, .readRecord 0] ++ fetchPlanned ++ fetchFails ++
    [.readState 0, .advance 0, .start 0]

end FetcherState

end SignalProtocol.Groups
