import SignalProtocol.Library.SkippedKeys
import SignalProtocol.Proof.SpqrAgreement

/-! # Trimming of held keys

The receive chain of an epoch next to a chain that keeps every skipped index: both serve the same
requests with the same keys, and the trimmed store stays small. -/

namespace SignalProtocol.Spqr

open Braid Results List OrderedMap

variable {index : ℕ}

/-- A call that asks for the key of an index. -/
inductive KeyCall where
  | derive (epoch index : ℕ)
  | tryGet (epoch index : ℕ)

namespace KeyCall

def epoch : KeyCall → ℕ
  | derive epoch _ => epoch
  | tryGet epoch _ => epoch

def request : KeyCall → SkippedKeys.Request
  | derive _ index => .receive index
  | tryGet _ index => .kept index

variable (crypto : SpqrCrypto)

def run : KeyCall → SpqrM (Option Bytes)
  | derive epoch index => deriveSPQRReceiveKey crypto index epoch
  | tryGet epoch index => tryGetSkippedSPQRKey epoch index

/-- The state after a sequence of calls, whatever each of them returns. -/
def after (calls : List KeyCall) (state : SPQRState) : SPQRState :=
  calls.foldl (fun state call => finalState (call.run crypto state)) state

/-- The key that a call hands out. -/
def keyOf (call : KeyCall) (state : SPQRState) : Option Bytes :=
  (valueOf? (call.run crypto state)).join

/-- The indexes of an epoch that a sequence of calls hands out a key for, in order. -/
def servedIn (epoch : ℕ) : List KeyCall → SPQRState → List ℕ
  | [], _ => []
  | call :: calls, state =>
    if call.epoch = epoch ∧ (call.keyOf crypto state).isSome then
      call.request.index :: servedIn epoch calls (finalState (call.run crypto state))
    else servedIn epoch calls (finalState (call.run crypto state))

end KeyCall

/-- The names of the keys that a state holds for an epoch. -/
def heldNames (state : SPQRState) (epoch : ℕ) : List (ℕ × ℕ) :=
  state.skippedKeys.keys.filter fun name => name.1 = epoch

def SPQRState.keyLimits (state : SPQRState) : SkippedKeys.Limits where
  window := state.resolvedLimits.maxOutOfOrderKeys
  jump := state.resolvedLimits.maxMessageJump
  last := maxIndex

/-! ## Calls that fail, and calls for other epochs -/

section

variable {crypto : SpqrCrypto}
  {state : SPQRState}

theorem receiveChainFor_get? {epoch : ℕ} {chains : EpochChains}
    (hcheck : receiveChainFor state index epoch = .ok chains) :
    state.kdfChains.get? epoch = some chains := by
  simp only [receiveChainFor, throw_eq_error, pure_eq_ok] at hcheck
  split at hcheck
  · cases hcheck
  split at hcheck
  · cases hcheck
  split at hcheck
  · cases hcheck
  cases hget : state.kdfChains.get? epoch with
  | none =>
    rw [hget] at hcheck
    cases hcheck
  | some found =>
    rw [hget] at hcheck
    dsimp only at hcheck
    split at hcheck
    · cases hcheck
    · cases hcheck
      rfl

theorem receiveChainFor_limits {epoch : ℕ} {chains found : EpochChains}
    (hget : state.kdfChains.get? epoch = some chains)
    (hcheck : receiveChainFor state index epoch = .ok found) :
    index ≤ chains.receive.counter + state.resolvedLimits.maxMessageJump ∧ index ≤ maxIndex := by
  simp only [receiveChainFor, hget, throw_eq_error, pure_eq_ok] at hcheck
  split at hcheck
  · cases hcheck
  split at hcheck
  · cases hcheck
  split at hcheck
  · cases hcheck
  split at hcheck
  · cases hcheck
  · rename_i hidx _ hjump
    exact ⟨not_lt.mp hjump, not_lt.mp hidx⟩

theorem walkReceiveChain_names {infoString : String} {maxOOOKeys epoch : ℕ} {rounds : List ℕ}
    {first walk : ReceiveWalk} (hfst : ∀ entry ∈ first.pendingSkipped, entry.1.1 = epoch)
    (hwalk : rounds.foldlM (walkReceiveChain crypto infoString maxOOOKeys epoch index) first =
      .ok walk) : ∀ entry ∈ walk.pendingSkipped, entry.1.1 = epoch := by
  refine foldlM_keeps (fun walk : ReceiveWalk => ∀ entry ∈ walk.pendingSkipped, entry.1.1 = epoch)
    (fun walk currentN next _ hnames hstep => ?_) hfst hwalk
  rw [walkReceiveChain, bind_eq_ok_iff] at hstep
  obtain ⟨result, -, hstep⟩ := hstep
  split at hstep
  · cases hstep
    exact hnames
  split at hstep
  · cases hstep
    exact hnames
  · cases hstep
    intro entry hentry
    rcases mem_append.mp hentry with hprev | hlast
    · exact hnames entry hprev
    · rw [mem_singleton.mp hlast]

variable (crypto) in
theorem stepReceiveChain_commits (index epoch : ℕ) (state : SPQRState) :
    (∃ error, stepReceiveChain crypto index epoch state = .error error state) ∨
      ∃ chains walk key, state.kdfChains.get? epoch = some chains ∧
        (∀ entry ∈ walk.pendingSkipped, entry.1.1 = epoch) ∧
        stepReceiveChain crypto index epoch state =
          .ok key (commitReceive state chains walk index epoch) := by
  rw [stepReceiveChain, get_bind]
  cases hcheck : receiveChainFor state index epoch with
  | error error => exact .inl ⟨error, by rw [fromResult_error_bind]⟩
  | ok chains =>
    rw [fromResult_ok_bind]
    cases hwalk : (List.range' (chains.receive.counter + 1) (index - chains.receive.counter)).foldlM
        (walkReceiveChain crypto state.resolvedInfoStrings.chainNext
          state.resolvedLimits.maxOutOfOrderKeys epoch index)
        ⟨chains.receive.chainKey, none, []⟩ with
    | error error => exact .inl ⟨error, by rw [fromResult_error_bind]⟩
    | ok walk =>
      rw [fromResult_ok_bind]
      cases walk.messageKey with
      | none => exact .inl ⟨_, rfl⟩
      | some messageKey =>
        exact .inr ⟨chains, walk, messageKey, receiveChainFor_get? hcheck,
          walkReceiveChain_names (by simp) hwalk, rfl⟩

variable (crypto) in
/-- What a call can do: nothing, consume a held key, or commit a walk of its epoch. -/
theorem deriveSPQRReceiveKey_commits (index epoch : ℕ) (state : SPQRState) :
    (∃ error, deriveSPQRReceiveKey crypto index epoch state = .error error state) ∨
      deriveSPQRReceiveKey crypto index epoch state = .ok none state ∨
      (∃ key, deriveSPQRReceiveKey crypto index epoch state =
        .ok (some key) { state with skippedKeys := state.skippedKeys.erase (epoch, index) }) ∨
      ∃ chains walk key, state.kdfChains.get? epoch = some chains ∧
        (∀ entry ∈ walk.pendingSkipped, entry.1.1 = epoch) ∧
        deriveSPQRReceiveKey crypto index epoch state =
          .ok (some key) (commitReceive state chains walk index epoch) := by
  rw [deriveSPQRReceiveKey]
  by_cases hroot : state.rootKey = []
  · exact .inl ⟨_, by rw [bind_apply_error (validateSPQRState_error hroot)]⟩
  rw [bind_apply_ok (validateSPQRState_ok hroot), get_bind]
  split
  · split
    · exact .inl ⟨_, rfl⟩
    · cases state.skippedKeys.get? (epoch, index) with
      | some storedKey => exact .inr (.inr (.inl ⟨storedKey, rfl⟩))
      | none =>
        dsimp only
        rcases stepReceiveChain_commits crypto index epoch state with
          ⟨error, herr⟩ | ⟨chains, walk, key, hget, hnames, hok⟩
        · exact .inl ⟨error, by rw [bind_apply_error herr]⟩
        · exact .inr (.inr (.inr ⟨chains, walk, key, hget, hnames, by
            rw [bind_apply_ok hok]
            rfl⟩))
  · exact .inr (.inl rfl)

theorem onlyReceive_erase (epoch index : ℕ) (state : SPQRState) :
    OnlyReceive epoch state
      { state with skippedKeys := state.skippedKeys.erase (epoch, index) } := by
  refine ⟨rfl, fun _ _ => rfl, fun _ => rfl, fun name hname => ?_⟩
  dsimp only
  rw [get?_erase, if_neg]
  rintro rfl
  exact hname rfl

theorem tryGetSkippedSPQRKey_cases (epoch index : ℕ) (state : SPQRState) :
    tryGetSkippedSPQRKey epoch index state = .ok none state ∨
      ∃ key, tryGetSkippedSPQRKey epoch index state =
        .ok (some key) { state with skippedKeys := state.skippedKeys.erase (epoch, index) } := by
  rw [tryGetSkippedSPQRKey, get_bind]
  cases state.skippedKeys.get? (epoch, index) with
  | none => exact .inl rfl
  | some key =>
    dsimp only
    split
    · exact .inl rfl
    · exact .inr ⟨key, rfl⟩

variable (call : KeyCall)
  (state : SPQRState)

theorem KeyCall.run_failsClean :
    FailsClean state (call.run crypto state) := by
  cases call with
  | derive epoch index =>
    rw [run]
    rcases deriveSPQRReceiveKey_commits crypto index epoch state with
      ⟨error, hres⟩ | hres | ⟨key, hres⟩ | ⟨chains, walk, key, -, -, hres⟩
    · rw [hres]
      exact failsClean_error
    · rw [hres]
      exact failsClean_ok
    · rw [hres]
      exact failsClean_ok
    · rw [hres]
      exact failsClean_ok
  | tryGet epoch index =>
    rw [run]
    rcases tryGetSkippedSPQRKey_cases epoch index state with hres | ⟨key, hres⟩
    · rw [hres]
      exact failsClean_ok
    · rw [hres]
      exact failsClean_ok

variable (crypto) in
theorem KeyCall.run_onlyReceive :
    OnlyReceive call.epoch state (finalState (call.run crypto state)) := by
  cases call with
  | derive epoch index =>
    rw [run, KeyCall.epoch]
    rcases deriveSPQRReceiveKey_commits crypto index epoch state with
      ⟨error, hres⟩ | hres | ⟨key, hres⟩ | ⟨chains, walk, key, hget, hnames, hres⟩
    · rw [hres]
      exact .refl _ _
    · rw [hres]
      exact .refl _ _
    · rw [hres]
      exact onlyReceive_erase epoch index state
    · rw [hres]
      exact commitReceive_onlyReceive hget hnames
  | tryGet epoch index =>
    rw [run, KeyCall.epoch]
    rcases tryGetSkippedSPQRKey_cases epoch index state with hres | ⟨key, hres⟩
    · rw [hres]
      exact .refl _ _
    · rw [hres]
      exact onlyReceive_erase epoch index state

end

theorem mem_heldNames {state : SPQRState} {epoch : ℕ} {name : ℕ × ℕ} :
    name ∈ heldNames state epoch ↔
      (∃ key, state.skippedKeys.get? name = some key) ∧ name.1 = epoch := by
  rw [heldNames, mem_filter, mem_keys_iff, decide_eq_true_iff]

theorem heldNames_nodup (state : SPQRState) (epoch : ℕ) : (heldNames state epoch).Nodup :=
  state.skippedKeys.keys_nodup.filter _

theorem heldNames_length_le {state next : SPQRState} {epoch : ℕ}
    (hsubset : ∀ name, name.1 = epoch → (next.skippedKeys.get? name).isSome →
      (state.skippedKeys.get? name).isSome) :
    (heldNames next epoch).length ≤ (heldNames state epoch).length := by
  refine (List.subperm_of_subset (heldNames_nodup next epoch) fun name hname => ?_).length_le
  obtain ⟨hheld, hepoch⟩ := mem_heldNames.mp hname
  exact mem_heldNames.mpr ⟨Option.isSome_iff_exists.mp
    (hsubset name hepoch (Option.isSome_iff_exists.mpr hheld)), hepoch⟩

theorem trimEpochSkippedKeys_few {state : SPQRState} {epoch : ℕ} {chains : EpochChains}
    (hget : state.kdfChains.get? epoch = some chains)
    (hbelow : ∀ index key, state.skippedKeys.get? (epoch, index) = some key →
      index < chains.receive.counter) :
    (heldNames (trimEpochSkippedKeys epoch state) epoch).length <
      skippedKeyTrimSize state.resolvedLimits.maxOutOfOrderKeys := by
  rw [trimEpochSkippedKeys, hget]
  dsimp only
  split
  · rename_i hfew
    exact hfew
  set window := state.resolvedLimits.maxOutOfOrderKeys
  have hsubset : heldNames { state with
      skippedKeys := state.skippedKeys.filterKeys fun name =>
        ¬ (name.1 = epoch ∧ name.2 + window < chains.receive.counter) } epoch ⊆
      (List.range' (chains.receive.counter - window) window).map (epoch, ·) := by
    intro name hname
    obtain ⟨⟨key, hkey⟩, rfl⟩ := mem_heldNames.mp hname
    rw [get?_filterKeys] at hkey
    split at hkey
    swap
    · cases hkey
    rename_i hkept
    have hupper := hbelow name.2 key hkey
    have hlower : ¬ name.2 + window < chains.receive.counter := by simpa using hkept
    exact mem_map.mpr ⟨name.2, mem_range'_1.mpr ⟨by omega, by omega⟩, rfl⟩
  have hle := (List.subperm_of_subset (heldNames_nodup _ epoch) hsubset).length_le
  rw [length_map, length_range'] at hle
  rw [skippedKeyTrimSize]
  omega

/-! ## The chain that keeps every index -/

/-- The receive chain of an epoch, the held keys of which are skipped keys of a chain that trims
nothing, and all of them that are within the window. -/
structure Holds (crypto : SpqrCrypto) (infoString : String) (start : Bytes) (epoch : ℕ)
    (chain : SkippedKeys.Chain) (state : SPQRState) (chains : EpochChains) : Prop where
  receives : ReceivesFrom crypto infoString start epoch
    (fun index => index ∈ chain.skipped ∨ chain.position < index) state chains
  counter_eq : chains.receive.counter = chain.position
  skipped : ∀ index key, state.skippedKeys.get? (epoch, index) = some key → index ∈ chain.skipped
  few : (heldNames state epoch).length < skippedKeyTrimSize state.resolvedLimits.maxOutOfOrderKeys

structure Usable (epoch : ℕ) (state : SPQRState) : Prop where
  rootKey_ne : state.rootKey ≠ []
  complete : isSpqrBootstrapComplete state = true
  epoch_le : epoch ≤ state.epoch
  retained : state.epoch ≤ epoch + 1

section

variable {crypto : SpqrCrypto} {infoString : String} {start : Bytes} {epoch : ℕ}
  {chain : SkippedKeys.Chain} {state next : SPQRState} {chains : EpochChains}

theorem Usable.of_onlyReceive {other : ℕ} (husable : Usable epoch state)
    (honly : OnlyReceive other state next) : Usable epoch next := by
  rw [honly.rest]
  exact ⟨husable.rootKey_ne, husable.complete, husable.epoch_le, husable.retained⟩

theorem keyLimits_of_onlyReceive {other : ℕ} (honly : OnlyReceive other state next) :
    next.keyLimits = state.keyLimits := by
  rw [honly.rest]
  rfl

theorem Holds.of_other (hholds : Holds crypto infoString start epoch chain state chains)
    {other : ℕ} (hother : other ≠ epoch) (honly : OnlyReceive other state next) :
    Holds crypto infoString start epoch chain next chains := by
  have hskip : ∀ index, next.skippedKeys.get? (epoch, index) =
      state.skippedKeys.get? (epoch, index) := fun index =>
    honly.skipped_of_ne (epoch, index) hother.symm
  have hlimits : next.resolvedLimits = state.resolvedLimits := by
    rw [honly.rest]
    rfl
  refine ⟨⟨?_, ?_, hholds.receives.chainKey, fun index key hkey => ?_, fun index hidx hle hheld =>
    ?_⟩, hholds.counter_eq, fun index key hkey => ?_, ?_⟩
  · rw [honly.rest]
    exact hholds.receives.info_eq
  · rw [honly.chains_of_ne epoch hother.symm]
    exact hholds.receives.get
  · rw [hskip] at hkey
    exact hholds.receives.held index key hkey
  · rw [hskip]
    rw [hlimits] at hheld
    exact hholds.receives.available index hidx hle hheld
  · rw [hskip] at hkey
    exact hholds.skipped index key hkey
  · rw [hlimits]
    refine (heldNames_length_le fun name hname hheld => ?_).trans_lt hholds.few
    rwa [honly.skipped_of_ne name (by rw [hname]; exact hother.symm)] at hheld

theorem ReceivesFrom.mono {wanted wanted' : ℕ → Prop}
    (hrecv : ReceivesFrom crypto infoString start epoch wanted state chains)
    (hwanted : ∀ index, wanted' index → wanted index) :
    ReceivesFrom crypto infoString start epoch wanted' state chains :=
  { hrecv with available := fun index hidx =>
      hrecv.available index (hwanted index hidx) }

theorem wanted_serve {other : ℕ}
    (hother : other ∈ (chain.serve index).skipped ∨ (chain.serve index).position < other) :
    (other ∈ chain.skipped ∨ chain.position < other) ∧ other ≠ index := by
  rcases hother with hskip | hahead
  · obtain ⟨hne, hskip | ⟨hlower, -⟩⟩ := SkippedKeys.Chain.mem_skipped_serve.mp hskip
    · exact ⟨.inl hskip, hne⟩
    · exact ⟨.inr hlower, hne⟩
  · have hpos : (chain.serve index).position = max chain.position index := rfl
    rw [hpos] at hahead
    exact ⟨.inr (by omega), by omega⟩

section

variable (hholds : Holds crypto infoString start epoch chain state chains)

include hholds

theorem Holds.erase (hskip : index ∈ chain.skipped) :
    Holds crypto infoString start epoch (chain.serve index)
      { state with skippedKeys := state.skippedKeys.erase (epoch, index) } chains := by
  have hpos : (chain.serve index).position = chain.position :=
    max_eq_left (chain.bounds index hskip).2
  refine ⟨(hholds.receives.erase index).2.mono fun other => wanted_serve,
    hholds.counter_eq.trans hpos.symm, fun other key hkey => ?_, ?_⟩
  · dsimp only at hkey
    rw [get?_erase] at hkey
    split at hkey
    · cases hkey
    · rename_i hne
      refine SkippedKeys.Chain.mem_skipped_serve.mpr ⟨fun heq => hne (by rw [heq]), .inl ?_⟩
      exact hholds.skipped other key hkey
  · refine (heldNames_length_le fun name _ hheld => ?_).trans_lt hholds.few
    dsimp only at hheld
    rw [get?_erase] at hheld
    split at hheld
    · cases hheld
    · exact hheld

theorem Holds.commit {walk : ReceiveWalk} (hahead : chains.receive.counter < index)
    (hwalked : Walked crypto infoString start state.resolvedLimits.maxOutOfOrderKeys epoch
      chains.receive.counter index index walk) :
    Holds crypto infoString start epoch (chain.serve index)
      (commitReceive state chains walk index epoch)
      { chains with receive := ⟨walk.chainKey, index⟩ } := by
  have hpos : (chain.serve index).position = index :=
    max_eq_right (hholds.counter_eq ▸ hahead.le)
  have hstored : ∀ other key,
      (storeWalk state chains walk index epoch).skippedKeys.get? (epoch, other) = some key →
      other ∈ (chain.serve index).skipped ∧ other < index := by
    intro other key hkey
    rw [storeWalk_get? hwalked] at hkey
    split at hkey
    · rename_i hnew
      obtain ⟨-, hlower, hupper, -⟩ := hnew
      refine ⟨SkippedKeys.Chain.mem_skipped_serve.mpr ⟨hupper.ne, .inr ⟨?_, hupper⟩⟩, hupper⟩
      rw [← hholds.counter_eq]
      exact hlower
    · rcases keptSkippedKeys_get? state chains index epoch (epoch, other) with hkept | ⟨hnone, -⟩
      · have hskip := hholds.skipped other key (hkept.symm.trans hkey)
        have hbefore : other < index := by
          have hbounds := chain.bounds other hskip
          have hcounter := hholds.counter_eq
          omega
        exact ⟨SkippedKeys.Chain.mem_skipped_serve.mpr ⟨hbefore.ne, .inl hskip⟩, hbefore⟩
      · cases hnone.symm.trans hkey
  have hget : (storeWalk state chains walk index epoch).kdfChains.get? epoch =
      some { chains with receive := ⟨walk.chainKey, index⟩ } := get?_set_self _ _ _
  refine ⟨(hholds.receives.commit_receives hahead hwalked).mono fun other => wanted_serve,
    hpos.symm, fun other key hkey => ?_, ?_⟩
  · rcases trimEpochSkippedKeys_get? epoch (storeWalk state chains walk index epoch)
      (epoch, other) with hsame | ⟨hnone, -⟩
    · exact (hstored other key (hsame.symm.trans hkey)).1
    · cases hnone.symm.trans hkey
  · have hlimits : (commitReceive state chains walk index epoch).resolvedLimits =
        (storeWalk state chains walk index epoch).resolvedLimits := by
      rw [commitReceive_rest]
      rfl
    rw [hlimits]
    exact trimEpochSkippedKeys_few hget fun other key hkey => (hstored other key hkey).2

theorem Holds.isBelowTrimHorizon (index : ℕ) : isBelowTrimHorizon state epoch index =
      decide (index + state.keyLimits.window < chain.position) := by
  rw [Spqr.isBelowTrimHorizon, hholds.receives.get, ← hholds.counter_eq]
  rfl

theorem Holds.get?_eq_none_iff (hwin : chain.position ≤ index + state.keyLimits.window) :
    state.skippedKeys.get? (epoch, index) = none ↔ index ∉ chain.skipped := by
  constructor
  · intro hnone hskip
    have hle := (chain.bounds index hskip).2
    have havailable := hholds.receives.available index (.inl hskip)
      (hholds.counter_eq ▸ hle) (hholds.counter_eq ▸ hwin)
    cases hnone.symm.trans havailable
  · intro hskip
    by_contra hheld
    obtain ⟨key, hkey⟩ := Option.ne_none_iff_exists'.mp hheld
    exact hskip (hholds.skipped index key hkey)

end

/-- The outcome of a call, next to the request on the chain that trims nothing. -/
def Serves (crypto : SpqrCrypto) (infoString : String) (start : Bytes) (epoch : ℕ)
    (chain : SkippedKeys.Chain) (state : SPQRState) (call : KeyCall) : Prop :=
  (∃ chains, Holds crypto infoString start epoch (chain.next state.keyLimits call.request)
    (finalState (call.run crypto state)) chains) ∧
  call.keyOf crypto state = if chain.Serves state.keyLimits call.request then
    some (messageKeyAt crypto infoString start call.request.index) else none

theorem Serves.refused {call : KeyCall}
    (hholds : Holds crypto infoString start epoch chain state chains)
    (hrefuse : ¬ chain.Serves state.keyLimits call.request)
    (hres : (∃ error, call.run crypto state = .error error state) ∨
      call.run crypto state = .ok none state) :
    Serves crypto infoString start epoch chain state call := by
  have hnext : chain.next state.keyLimits call.request = chain := if_neg hrefuse
  rw [Serves, hnext, if_neg hrefuse, KeyCall.keyOf]
  rcases hres with ⟨error, herr⟩ | hnone
  · rw [herr]
    exact ⟨⟨chains, hholds⟩, rfl⟩
  · rw [hnone]
    exact ⟨⟨chains, hholds⟩, rfl⟩

theorem Serves.served {call : KeyCall} {final : SPQRState}
    (hserves : chain.Serves state.keyLimits call.request)
    (hres : call.run crypto state =
      .ok (some (messageKeyAt crypto infoString start call.request.index)) final)
    (hholds : Holds crypto infoString start epoch (chain.serve call.request.index) final chains) :
    Serves crypto infoString start epoch chain state call := by
  have hnext : chain.next state.keyLimits call.request = chain.serve call.request.index :=
    if_pos hserves
  rw [Serves, hnext, if_pos hserves, KeyCall.keyOf, hres]
  exact ⟨⟨chains, hholds⟩, rfl⟩

theorem Holds.tryGet (hholds : Holds crypto infoString start epoch chain state chains)
    (index : ℕ) : Serves crypto infoString start epoch chain state (.tryGet epoch index) := by
  have hserves : chain.Serves state.keyLimits (.kept index) ↔
      chain.position ≤ index + state.keyLimits.window ∧ index ∈ chain.skipped := by
    simp [SkippedKeys.Chain.Serves, SkippedKeys.Request.index, SkippedKeys.Request.steps]
  have hrun : KeyCall.run crypto (.tryGet epoch index) state =
      tryGetSkippedSPQRKey epoch index state := rfl
  rw [tryGetSkippedSPQRKey, get_bind] at hrun
  cases hheld : state.skippedKeys.get? (epoch, index) with
  | none =>
    refine .refused hholds (fun hserved => ?_) (.inr ?_)
    · obtain ⟨hwin, hskip⟩ := hserves.mp hserved
      exact (hholds.get?_eq_none_iff hwin).mp hheld hskip
    · rw [hrun, hheld]
      rfl
  | some key =>
    have hskip := hholds.skipped index key hheld
    have hkey := hholds.receives.held index key hheld
    rw [hheld, hholds.isBelowTrimHorizon] at hrun
    by_cases hwin : chain.position ≤ index + state.keyLimits.window
    · refine .served (hserves.mpr ⟨hwin, hskip⟩) ?_ (hholds.erase hskip)
      rw [hrun]
      dsimp only
      rw [decide_eq_false (not_lt.mpr hwin), if_neg (by simp), hkey]
      rfl
    · refine .refused hholds (fun hserved => hwin (hserves.mp hserved).1) (.inr ?_)
      rw [hrun]
      dsimp only
      rw [decide_eq_true (not_le.mp hwin), if_pos rfl]
      rfl

theorem Holds.derive (hlaw : crypto.braid.Lawful) (hstart : start.length = 32)
    (hholds : Holds crypto infoString start epoch chain state chains)
    (husable : Usable epoch state) (index : ℕ) :
    Serves crypto infoString start epoch chain state (.derive epoch index) := by
  have hserves : chain.Serves state.keyLimits (.receive index) ↔
      chain.position ≤ index + state.keyLimits.window ∧ (index ∈ chain.skipped ∨
        chain.position < index ∧ index ≤ chain.position + state.keyLimits.jump ∧
          index ≤ maxIndex) := by
    simp [SkippedKeys.Chain.Serves, SkippedKeys.Request.index, SkippedKeys.Request.steps,
      SPQRState.keyLimits]
  have hrun : KeyCall.run crypto (.derive epoch index) state =
      deriveSPQRReceiveKey crypto index epoch state := rfl
  rw [deriveSPQRReceiveKey, bind_apply_ok (validateSPQRState_ok husable.rootKey_ne), get_bind,
    if_pos husable.complete, hholds.isBelowTrimHorizon] at hrun
  by_cases hwin : chain.position ≤ index + state.keyLimits.window
  swap
  · refine .refused hholds (fun hserved => hwin (hserves.mp hserved).1) (.inl ?_)
    rw [hrun, decide_eq_true (not_le.mp hwin), if_pos rfl]
    exact ⟨_, rfl⟩
  rw [decide_eq_false (not_lt.mpr hwin), if_neg (by simp)] at hrun
  cases hheld : state.skippedKeys.get? (epoch, index) with
  | some key =>
    have hskip := hholds.skipped index key hheld
    refine .served (hserves.mpr ⟨hwin, .inl hskip⟩) ?_ (hholds.erase hskip)
    rw [hrun, hheld, hholds.receives.held index key hheld]
    rfl
  | none =>
    have hnotSkipped := (hholds.get?_eq_none_iff hwin).mp hheld
    rw [hheld] at hrun
    dsimp only at hrun
    rcases stepReceiveChain_cases hholds.receives index with
      ⟨error, herr⟩ | ⟨hcheck, hahead⟩
    · rw [bind_apply_error herr] at hrun
      refine .refused hholds (fun hserved => ?_) (.inl ⟨error, hrun⟩)
      obtain ⟨hahead, hjump, hlast⟩ := (hserves.mp hserved).2.resolve_left hnotSkipped
      rw [← hholds.counter_eq] at hahead hjump
      obtain ⟨walk, -, hok⟩ := stepReceiveChain_ok hlaw hstart hholds.receives
        (receiveChainFor_ok hholds.receives husable.epoch_le husable.retained hlast hjump) hahead
      cases herr.symm.trans hok
    · obtain ⟨walk, hwalked, hok⟩ :=
        stepReceiveChain_ok hlaw hstart hholds.receives hcheck hahead
      rw [bind_apply_ok hok] at hrun
      obtain ⟨hjump, hlast⟩ := receiveChainFor_limits hholds.receives.get hcheck
      refine .served (hserves.mpr ⟨hwin, .inr ?_⟩) hrun (hholds.commit hahead hwalked)
      rw [← hholds.counter_eq]
      exact ⟨hahead, hjump, hlast⟩

theorem Holds.call (hlaw : crypto.braid.Lawful) (hstart : start.length = 32)
    (hholds : Holds crypto infoString start epoch chain state chains)
    (husable : Usable epoch state) {call : KeyCall} (hepoch : call.epoch = epoch) :
    Serves crypto infoString start epoch chain state call := by
  cases call with
  | derive other index =>
    obtain rfl : other = epoch := hepoch
    exact hholds.derive hlaw hstart husable index
  | tryGet other index =>
    obtain rfl : other = epoch := hepoch
    exact hholds.tryGet index

/-- The requests of the calls for one epoch. -/
def KeyCall.requestsIn (epoch : ℕ) (calls : List KeyCall) : List SkippedKeys.Request :=
  (calls.filter fun call => call.epoch = epoch).map KeyCall.request

theorem Holds.after (hlaw : crypto.braid.Lawful) (hstart : start.length = 32)
    (hholds : Holds crypto infoString start epoch chain state chains)
    (husable : Usable epoch state) (calls : List KeyCall) :
    (∃ chains', Holds crypto infoString start epoch
      (chain.after state.keyLimits (KeyCall.requestsIn epoch calls))
      (KeyCall.after crypto calls state) chains') ∧
    Usable epoch (KeyCall.after crypto calls state) ∧
    (KeyCall.after crypto calls state).keyLimits = state.keyLimits ∧
    KeyCall.servedIn crypto epoch calls state =
      chain.served state.keyLimits (KeyCall.requestsIn epoch calls) := by
  induction calls generalizing chain state chains with
  | nil => exact ⟨⟨chains, hholds⟩, husable, rfl, rfl⟩
  | cons call calls ih =>
    have honly := KeyCall.run_onlyReceive crypto call state
    have hlimits := keyLimits_of_onlyReceive honly
    have hlater := husable.of_onlyReceive honly
    by_cases hepoch : call.epoch = epoch
    · obtain ⟨⟨chains', hnext⟩, hkey⟩ := hholds.call hlaw hstart husable hepoch
      obtain ⟨hholds', husable', hlimits', hserved⟩ := ih hnext hlater
      have hrequests : KeyCall.requestsIn epoch (call :: calls) =
          call.request :: KeyCall.requestsIn epoch calls := by
        simp [KeyCall.requestsIn, hepoch]
      rw [hlimits] at hholds' hserved
      rw [hrequests]
      refine ⟨hholds', husable', hlimits'.trans hlimits, ?_⟩
      rw [KeyCall.servedIn, SkippedKeys.Chain.served, hkey, hserved]
      by_cases hserves : chain.Serves state.keyLimits call.request
      · rw [if_pos hserves, if_pos hserves, if_pos ⟨hepoch, rfl⟩]
      · rw [if_neg hserves, if_neg hserves, if_neg (by simp)]
    · obtain ⟨hholds', husable', hlimits', hserved⟩ := ih (hholds.of_other hepoch honly) hlater
      have hrequests : KeyCall.requestsIn epoch (call :: calls) =
          KeyCall.requestsIn epoch calls := by
        simp [KeyCall.requestsIn, hepoch]
      rw [hlimits] at hholds' hserved
      rw [hrequests]
      refine ⟨hholds', husable', hlimits'.trans hlimits, ?_⟩
      rw [KeyCall.servedIn, if_neg fun hserves => hepoch hserves.1, hserved]

/-- An epoch that has just been added: its receive chain is at its start, and no key of it is
held. -/
structure FreshEpoch (start : Bytes) (epoch : ℕ) (state : SPQRState) : Prop where
  usable : Usable epoch state
  start_length : start.length = 32
  chain : ∃ send, state.kdfChains.get? epoch = some ⟨send, ⟨start, 0⟩⟩
  not_held : ∀ index, state.skippedKeys.get? (epoch, index) = none

theorem FreshEpoch.holds (crypto : SpqrCrypto) (hfresh : FreshEpoch start epoch state) :
    ∃ chains, Holds crypto state.resolvedInfoStrings.chainNext start epoch .fresh state chains := by
  obtain ⟨send, hget⟩ := hfresh.chain
  refine ⟨_, ⟨rfl, hget, rfl, fun index key hkey => ?_, fun index hidx hle => ?_⟩, rfl,
    fun index key hkey => ?_, ?_⟩
  · cases (hfresh.not_held index).symm.trans hkey
  · rcases hidx with hskip | hahead
    · cases hskip
    · exact absurd hle (not_le.mpr hahead)
  · cases (hfresh.not_held index).symm.trans hkey
  · have hnone : heldNames state epoch = [] := by
      refine eq_nil_iff_forall_not_mem.mpr fun name hname => ?_
      obtain ⟨⟨key, hkey⟩, rfl⟩ := mem_heldNames.mp hname
      cases (hfresh.not_held name.2).symm.trans hkey
    rw [hnone]
    exact Nat.succ_pos _

end

/-- The calls for the keys of an epoch answer as a chain that trims nothing does: a call hands out
the key of an index exactly when the index has not been served, is not below the window and is
within the jump and index limits. -/
theorem spqr_skipped_keys_window {crypto : SpqrCrypto} (hlawful : crypto.braid.Lawful)
    {start : Bytes} {epoch : ℕ} {state : SPQRState} (hfresh : FreshEpoch start epoch state)
    (calls : List KeyCall) :
    (∀ call : KeyCall, call.epoch = epoch → call.keyOf crypto (KeyCall.after crypto calls state) =
      if (SkippedKeys.Chain.fresh.after state.keyLimits (KeyCall.requestsIn epoch calls)).Serves
          state.keyLimits call.request then
        some (messageKeyAt crypto state.resolvedInfoStrings.chainNext start call.request.index)
      else none) ∧
    (∀ index, ((KeyCall.derive epoch index).keyOf crypto
        (KeyCall.after crypto calls state)).isSome ↔
      0 < index ∧ index ≤ maxIndex ∧ index ∉ KeyCall.servedIn crypto epoch calls state ∧
        receiveCounter (KeyCall.after crypto calls state) epoch ≤
          index + state.resolvedLimits.maxOutOfOrderKeys ∧
        index ≤ receiveCounter (KeyCall.after crypto calls state) epoch +
          state.resolvedLimits.maxMessageJump) ∧
    (KeyCall.servedIn crypto epoch calls state).Nodup ∧
    (heldNames (KeyCall.after crypto calls state) epoch).length <
      skippedKeyTrimSize state.resolvedLimits.maxOutOfOrderKeys ∧
    ∀ (call : KeyCall) error final, call.run crypto (KeyCall.after crypto calls state) =
      .error error final → final = KeyCall.after crypto calls state := by
  obtain ⟨chains, hholds⟩ := hfresh.holds crypto
  obtain ⟨⟨chains', hafter⟩, husable, hlimits, hserved⟩ :=
    hholds.after hlawful hfresh.start_length hfresh.usable calls
  have hkey : ∀ call : KeyCall, call.epoch = epoch →
      call.keyOf crypto (KeyCall.after crypto calls state) =
      if (SkippedKeys.Chain.fresh.after state.keyLimits (KeyCall.requestsIn epoch calls)).Serves
          state.keyLimits call.request then
        some (messageKeyAt crypto state.resolvedInfoStrings.chainNext start call.request.index)
      else none := by
    intro call hepoch
    obtain ⟨-, hkey⟩ := hafter.call hlawful hfresh.start_length husable hepoch
    rwa [hlimits] at hkey
  refine ⟨hkey, fun index => ?_, ?_, ?_, fun call error final => call.run_failsClean _ error final⟩
  · have hcounter : receiveCounter (KeyCall.after crypto calls state) epoch =
        (SkippedKeys.Chain.fresh.after state.keyLimits
          (KeyCall.requestsIn epoch calls)).position := by
      rw [receiveCounter, hafter.receives.get]
      exact hafter.counter_eq
    rw [hkey _ rfl, hcounter, hserved]
    refine Iff.trans ?_ (SkippedKeys.Chain.serves_receive_iff state.keyLimits
      (KeyCall.requestsIn epoch calls) index)
    split <;> simpa
  · rw [hserved]
    exact SkippedKeys.Chain.served_nodup _ _
  · have hwindow : (KeyCall.after crypto calls state).resolvedLimits.maxOutOfOrderKeys =
        state.resolvedLimits.maxOutOfOrderKeys := congrArg SkippedKeys.Limits.window hlimits
    rw [← hwindow]
    exact hafter.few

/-- A direct-mode state in a given epoch, with the chain of epoch 0 at its start and the widest
jump that a stored state may have. -/
def wideState (epoch : ℕ) (status : VersionStatus) : SPQRState where
  rootKey := plainSecret
  epoch := epoch
  sendEpoch := some 0
  kdfChains := OrderedMap.empty.set 0 ⟨⟨plainSecret, 0⟩, ⟨plainSecret, 0⟩⟩
  skippedKeys := ∅
  direction := .a2b
  sckaState := ⟨epoch, none, some (List.replicate mlkem768PublicKeySize 7)⟩
  mode := .direct
  versionNegotiation := some status
  limits := some ⟨1000000, 2000⟩

theorem wideState_fresh : FreshEpoch plainSecret 0 (wideState 0 .complete) where
  usable := ⟨by decide, by decide, by decide, by decide⟩
  start_length := rfl
  chain := ⟨⟨plainSecret, 0⟩, rfl⟩
  not_held _ := rfl

theorem spqr_skipped_keys_window_wide :
    (KeyCall.servedIn plainSpqrCrypto 0 [.derive 0 3, .tryGet 0 1, .derive 0 1]
      (wideState 0 .complete)).Nodup :=
  (spqr_skipped_keys_window plainSpqrCrypto_lawful wideState_fresh
    [.derive 0 3, .tryGet 0 1, .derive 0 1]).2.2.1

/-- No key for an index past the last one, though it is within the jump limit; nor for index 0;
nor for a chain two epochs back; nor before the bootstrap is complete. -/
theorem spqr_limits_refuse :
    (1000001 ∉ KeyCall.servedIn plainSpqrCrypto 0 [.derive 0 1] (wideState 0 .complete) ∧
      receiveCounter (KeyCall.after plainSpqrCrypto [.derive 0 1] (wideState 0 .complete)) 0 = 1 ∧
      (wideState 0 .complete).resolvedLimits.maxMessageJump = 1000000 ∧
      (KeyCall.derive 0 1000001).keyOf plainSpqrCrypto
        (KeyCall.after plainSpqrCrypto [.derive 0 1] (wideState 0 .complete)) = none) ∧
    (KeyCall.derive 0 0).keyOf plainSpqrCrypto (wideState 0 .complete) = none ∧
    (KeyCall.derive 0 1).keyOf plainSpqrCrypto (wideState 2 .complete) = none ∧
    (KeyCall.derive 0 1).keyOf plainSpqrCrypto (wideState 0 .negotiating) = none := by
  decide

end SignalProtocol.Spqr
