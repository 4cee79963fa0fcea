import SignalProtocol.Library.Loops
import SignalProtocol.Spqr.Ratchet

/-! # Message keys of a chain

The keys of a chain as a function of its first chain key, and what the two derivation functions
do to a state whose chains follow it. -/

namespace SignalProtocol.Spqr

open Braid Results List OrderedMap

variable {walk : ReceiveWalk} {index : ℕ} {maxOOOKeys first : ℕ}

theorem validateSPQRState_ok {state : SPQRState} (hroot : state.rootKey ≠ []) :
    validateSPQRState state = .ok ⟨⟩ state := by
  rw [validateSPQRState, get_bind, if_neg hroot]
  rfl

theorem validateSPQRState_error {state : SPQRState} (hroot : state.rootKey = []) :
    validateSPQRState state = .error (.encryption .invalidState "Missing SPQR root key") state := by
  rw [validateSPQRState, get_bind, if_pos hroot]
  rfl

section

variable (crypto : SpqrCrypto) (infoString : String)

def chainBlock (chainKey : Bytes) (index : ℕ) : Bytes :=
  crypto.braid.hkdf chainKey (List.replicate 32 0) (uint32Bytes index ++ stringToBytes infoString) 64

def chainKeyAt (start : Bytes) : ℕ → Bytes
  | 0 => start
  | index + 1 => (chainBlock crypto infoString (chainKeyAt start index) (index + 1)).take 32

/-- The message key at an index; indexes start at one. -/
def messageKeyAt (start : Bytes) (index : ℕ) : Bytes :=
  ((chainBlock crypto infoString (chainKeyAt crypto infoString start (index - 1)) index).drop
    32).take 32

end

section

variable {crypto : SpqrCrypto} {infoString : String} {start : Bytes}
  (hlaw : crypto.braid.Lawful) (hstart : start.length = 32)

include hlaw hstart

theorem chainKeyAt_length (index : ℕ) : (chainKeyAt crypto infoString start index).length = 32 := by
  cases index with
  | zero => exact hstart
  | succ index =>
    rw [chainKeyAt, length_take, chainBlock, hlaw.hkdf_length]
    rfl

theorem kdfChainKeySPQR_ok (hidx : index + 1 ≤ 0xffffffff) :
    kdfChainKeySPQR crypto (chainKeyAt crypto infoString start index) (index + 1) infoString =
      .ok ⟨chainKeyAt crypto infoString start (index + 1),
        messageKeyAt crypto infoString start (index + 1)⟩ := by
  rw [kdfChainKeySPQR, if_neg (not_not.mpr (chainKeyAt_length hlaw hstart index)),
    if_neg (not_lt.mpr hidx)]
  rfl

/-- After the rounds up to `current`, the walk stands at the chain key of `current` and holds
exactly the keys that are still above the trim horizon. -/
structure Walked (crypto : SpqrCrypto) (infoString : String) (start : Bytes)
    (maxOOOKeys epoch first index current : ℕ) (walk : ReceiveWalk) : Prop where
  chainKey : walk.chainKey = chainKeyAt crypto infoString start current
  messageKey : walk.messageKey =
    if first < index ∧ current = index then some (messageKeyAt crypto infoString start index)
    else none
  pending : ∀ entry, entry ∈ walk.pendingSkipped ↔ ∃ skipped, first < skipped ∧
    skipped ≤ current ∧ skipped < index ∧ index ≤ skipped + maxOOOKeys ∧
    entry = ((epoch, skipped), messageKeyAt crypto infoString start skipped)

/-- One round: the last key is returned, the others are held or dropped. -/
theorem walkReceiveChain_ok {epoch current : ℕ}
    (hwalked : Walked crypto infoString start maxOOOKeys epoch first index current walk)
    (hfst : first ≤ current) (hcur : current < index) (hidx : index ≤ maxIndex) :
    ∃ next, walkReceiveChain crypto infoString maxOOOKeys epoch index walk (current + 1) =
        .ok next ∧
      Walked crypto infoString start maxOOOKeys epoch first index (current + 1) next := by
  have hbound : current + 1 ≤ 0xffffffff := by
    simp only [maxIndex] at hidx
    omega
  have hnoKey : walk.messageKey = none := by
    rw [hwalked.messageKey, if_neg (by omega)]
  rw [walkReceiveChain, hwalked.chainKey, kdfChainKeySPQR_ok hlaw hstart hbound, ok_bind]
  by_cases hlast : current + 1 = index
  · refine ⟨_, by rw [if_pos hlast]; rfl, rfl, ?_, ?_⟩
    · rw [if_pos ⟨by omega, hlast⟩, hlast]
    · intro entry
      rw [hwalked.pending]
      constructor
      · rintro ⟨skipped, hlower, hupper, hrest⟩
        exact ⟨skipped, hlower, by omega, hrest⟩
      · rintro ⟨skipped, hlower, hupper, hbefore, hrest⟩
        exact ⟨skipped, hlower, by omega, hbefore, hrest⟩
  by_cases hdropped : current + 1 + maxOOOKeys < index
  · refine ⟨_, by rw [if_neg hlast, if_pos hdropped]; rfl, rfl, ?_, ?_⟩
    · rw [if_neg (by omega), hnoKey]
    · intro entry
      rw [hwalked.pending]
      constructor
      · rintro ⟨skipped, hlower, hupper, hrest⟩
        exact ⟨skipped, hlower, by omega, hrest⟩
      · rintro ⟨skipped, hlower, hupper, hbefore, hheld, hrest⟩
        exact ⟨skipped, hlower, by omega, hbefore, hheld, hrest⟩
  · refine ⟨_, by rw [if_neg hlast, if_neg hdropped]; rfl, rfl, ?_, ?_⟩
    · rw [if_neg (by omega), hnoKey]
    · intro entry
      rw [mem_append, hwalked.pending, mem_singleton]
      constructor
      · rintro (⟨skipped, hlower, hupper, hrest⟩ | rfl)
        · exact ⟨skipped, hlower, by omega, hrest⟩
        · exact ⟨current + 1, by omega, le_rfl, by omega, by omega, rfl⟩
      · rintro ⟨skipped, hlower, hupper, hbefore, hheld, rfl⟩
        rcases Nat.lt_or_eq_of_le hupper with hprev | rfl
        · exact .inl ⟨skipped, hlower, by omega, hbefore, hheld, rfl⟩
        · exact .inr rfl

variable (infoString) in
theorem walkReceiveChain_loop (maxOOOKeys epoch first : ℕ) (hidx : index ≤ maxIndex) :
    ∃ walk, (List.range' (first + 1) (index - first)).foldlM
        (walkReceiveChain crypto infoString maxOOOKeys epoch index)
        ⟨chainKeyAt crypto infoString start first, none, []⟩ = .ok walk ∧
      Walked crypto infoString start maxOOOKeys epoch first index (max first index) walk := by
  have hinit : Walked crypto infoString start maxOOOKeys epoch first index first
      ⟨chainKeyAt crypto infoString start first, none, []⟩ := by
    refine ⟨rfl, ?_, fun entry => ?_⟩
    · rw [if_neg (by omega)]
    · constructor
      · intro hentry
        cases hentry
      · rintro ⟨skipped, hlower, hupper, -⟩
        omega
  obtain ⟨walk, hwalk, hwalked⟩ := Loops.foldlM_range'_ok
    (motive := fun next walk =>
      Walked crypto infoString start maxOOOKeys epoch first index (next - 1) walk)
    (walkReceiveChain crypto infoString maxOOOKeys epoch index) (first + 1) (index - first)
    ⟨chainKeyAt crypto infoString start first, none, []⟩ hinit (by
      intro next walk hlower hupper hwalked
      obtain ⟨current, rfl⟩ := Nat.exists_eq_add_of_le' (Nat.le_trans (Nat.succ_pos first) hlower)
      exact walkReceiveChain_ok hlaw hstart hwalked (by omega) (by omega) hidx)
  refine ⟨walk, hwalk, ?_⟩
  rwa [show first + 1 + (index - first) - 1 = max first index by omega] at hwalked

end

/-! ## Receiving -/

structure OnlyReceive (epoch : ℕ) (state next : SPQRState) : Prop where
  rest : next = { state with kdfChains := next.kdfChains, skippedKeys := next.skippedKeys }
  chains_of_ne : ∀ other ≠ epoch, next.kdfChains.get? other = state.kdfChains.get? other
  send : ∀ other, (next.kdfChains.get? other).map EpochChains.send =
    (state.kdfChains.get? other).map EpochChains.send
  skipped_of_ne : ∀ name, name.1 ≠ epoch → next.skippedKeys.get? name = state.skippedKeys.get? name

theorem OnlyReceive.refl (epoch : ℕ) (state : SPQRState) : OnlyReceive epoch state state :=
  ⟨rfl, fun _ _ => rfl, fun _ => rfl, fun _ _ => rfl⟩

/-- The receive chain of an epoch follows the chain from `start`, every held key is a key of that
chain, and every wanted key that is neither ahead nor trimmed is held. -/
structure ReceivesFrom (crypto : SpqrCrypto) (infoString : String) (start : Bytes) (epoch : ℕ)
    (wanted : ℕ → Prop) (state : SPQRState) (chains : EpochChains) : Prop where
  info_eq : state.resolvedInfoStrings.chainNext = infoString
  get : state.kdfChains.get? epoch = some chains
  chainKey : chains.receive.chainKey = chainKeyAt crypto infoString start chains.receive.counter
  held : ∀ index key, state.skippedKeys.get? (epoch, index) = some key →
    key = messageKeyAt crypto infoString start index
  available : ∀ index, wanted index → index ≤ chains.receive.counter →
    chains.receive.counter ≤ index + state.resolvedLimits.maxOutOfOrderKeys →
    state.skippedKeys.get? (epoch, index) = some (messageKeyAt crypto infoString start index)

theorem trimEpochSkippedKeys_get? (epoch : ℕ) (state : SPQRState) (name : ℕ × ℕ) :
    (trimEpochSkippedKeys epoch state).skippedKeys.get? name = state.skippedKeys.get? name ∨
      (trimEpochSkippedKeys epoch state).skippedKeys.get? name = none ∧
        ∃ chains, state.kdfChains.get? epoch = some chains ∧ name.1 = epoch ∧
          name.2 + state.resolvedLimits.maxOutOfOrderKeys < chains.receive.counter := by
  rw [trimEpochSkippedKeys]
  cases hchains : state.kdfChains.get? epoch with
  | none => exact .inl rfl
  | some chains =>
    dsimp only
    split
    · exact .inl rfl
    · by_cases hbelow : name.1 = epoch ∧
          name.2 + state.resolvedLimits.maxOutOfOrderKeys < chains.receive.counter
      · exact .inr ⟨by simp [get?_filterKeys, hbelow], chains, rfl, hbelow⟩
      · exact .inl (by simp only [get?_filterKeys, hbelow]; simp)

theorem trimEpochSkippedKeys_rest (epoch : ℕ) (state : SPQRState) :
    trimEpochSkippedKeys epoch state =
      { state with skippedKeys := (trimEpochSkippedKeys epoch state).skippedKeys } := by
  rw [trimEpochSkippedKeys]
  cases state.kdfChains.get? epoch with
  | none => rfl
  | some chains =>
    dsimp only
    split <;> rfl

section

variable {crypto : SpqrCrypto} {infoString : String} {start : Bytes} {epoch : ℕ}
  {wanted : ℕ → Prop} {state : SPQRState} {chains : EpochChains}

theorem ReceivesFrom.erase (hrecv : ReceivesFrom crypto infoString start epoch wanted state
    chains) (index : ℕ) :
    OnlyReceive epoch state
        { state with skippedKeys := state.skippedKeys.erase (epoch, index) } ∧
      ReceivesFrom crypto infoString start epoch (fun other => wanted other ∧ other ≠ index)
        { state with skippedKeys := state.skippedKeys.erase (epoch, index) } chains := by
  refine ⟨⟨rfl, fun _ _ => rfl, fun _ => rfl, fun name hname => ?_⟩, hrecv.info_eq,
    hrecv.get, hrecv.chainKey, fun other key hkey => ?_,
    fun other hother hle hheld => ?_⟩
  · dsimp only
    rw [get?_erase, if_neg]
    rintro rfl
    exact hname rfl
  · dsimp only at hkey
    rw [get?_erase] at hkey
    split at hkey
    · cases hkey
    · exact hrecv.held other key hkey
  · dsimp only
    rw [get?_erase, if_neg (by simpa using hother.2)]
    exact hrecv.available other hother.1 hle hheld

theorem Walked.mem_names
    (hwalked : Walked crypto infoString start maxOOOKeys epoch first index index walk)
    (name : ℕ × ℕ) : name ∈ walk.pendingSkipped.map Prod.fst ↔
      name.1 = epoch ∧ first < name.2 ∧ name.2 < index ∧ index ≤ name.2 + maxOOOKeys := by
  rw [mem_map]
  constructor
  · rintro ⟨entry, hentry, hname⟩
    obtain ⟨skipped, hlower, -, hupper, hheld, rfl⟩ := (hwalked.pending entry).mp hentry
    rw [← hname]
    exact ⟨rfl, hlower, hupper, hheld⟩
  · rintro ⟨hepoch, hlower, hupper, hheld⟩
    refine ⟨(name, messageKeyAt crypto infoString start name.2), (hwalked.pending _).mpr
      ⟨name.2, hlower, hupper.le, hupper, hheld, ?_⟩, rfl⟩
    rw [← hepoch]

theorem keptSkippedKeys_get? (state : SPQRState) (chains : EpochChains) (index epoch : ℕ)
    (name : ℕ × ℕ) :
    (keptSkippedKeys state chains index epoch).get? name = state.skippedKeys.get? name ∨
      (keptSkippedKeys state chains index epoch).get? name = none ∧ name.1 = epoch ∧
        chains.receive.counter + state.resolvedLimits.maxOutOfOrderKeys < index := by
  rw [keptSkippedKeys]
  split
  · rename_i hclears
    by_cases hname : name.1 = epoch
    · exact .inr ⟨by simp [get?_filterKeys, hname], hname, hclears⟩
    · exact .inl (by simp [get?_filterKeys, hname])
  · exact .inl rfl

theorem storeWalk_get?
    (hwalked : Walked crypto infoString start state.resolvedLimits.maxOutOfOrderKeys epoch
      chains.receive.counter index index walk) (name : ℕ × ℕ) :
    (storeWalk state chains walk index epoch).skippedKeys.get? name =
      if name.1 = epoch ∧ chains.receive.counter < name.2 ∧ name.2 < index ∧
          index ≤ name.2 + state.resolvedLimits.maxOutOfOrderKeys then
        some (messageKeyAt crypto infoString start name.2)
      else (keptSkippedKeys state chains index epoch).get? name := by
  have hvals : ∀ entry ∈ walk.pendingSkipped,
      entry.2 = messageKeyAt crypto infoString start entry.1.2 := by
    intro entry hentry
    obtain ⟨skipped, -, -, -, -, rfl⟩ := (hwalked.pending entry).mp hentry
    rfl
  refine (get?_foldl_set
    (fun name : ℕ × ℕ => messageKeyAt crypto infoString start name.2) walk.pendingSkipped _
    hvals name).trans ?_
  simp only [hwalked.mem_names]

theorem commitReceive_rest (state : SPQRState) (chains : EpochChains) (walk : ReceiveWalk)
    (index epoch : ℕ) : commitReceive state chains walk index epoch = { state with
      kdfChains := state.kdfChains.set epoch { chains with receive := ⟨walk.chainKey, index⟩ }
      skippedKeys := (commitReceive state chains walk index epoch).skippedKeys } :=
  trimEpochSkippedKeys_rest epoch _

theorem commitReceive_onlyReceive (hget : state.kdfChains.get? epoch = some chains)
    (hnames : ∀ entry ∈ walk.pendingSkipped, entry.1.1 = epoch) :
    OnlyReceive epoch state (commitReceive state chains walk index epoch) := by
  refine ⟨?_, fun other hother => ?_, fun other => ?_, fun name hname => ?_⟩
  · conv_lhs => rw [commitReceive_rest]
    rw [show (commitReceive state chains walk index epoch).kdfChains = state.kdfChains.set epoch
      { chains with receive := ⟨walk.chainKey, index⟩ } by rw [commitReceive_rest]]
  · rw [commitReceive_rest]
    exact get?_set_of_ne _ _ hother
  · rw [commitReceive_rest]
    dsimp only
    rw [get?_set]
    split
    · rename_i heq
      rw [heq, hget]
      rfl
    · rfl
  · have hstored : (storeWalk state chains walk index epoch).skippedKeys.get? name =
        state.skippedKeys.get? name := by
      have hnew : (storeWalk state chains walk index epoch).skippedKeys.get? name =
          (keptSkippedKeys state chains index epoch).get? name :=
        get?_foldl_set_of_ne _ _ fun entry hentry heq =>
          hname (by rw [heq, hnames entry hentry])
      rw [hnew]
      exact (keptSkippedKeys_get? state chains index epoch name).resolve_right
        fun hcleared => hname hcleared.2.1
    rcases trimEpochSkippedKeys_get? epoch (storeWalk state chains walk index epoch) name with
      hsame | ⟨-, -, -, hepoch, -⟩
    · exact hsame.trans hstored
    · exact absurd hepoch hname

section

variable (hrecv : ReceivesFrom crypto infoString start epoch wanted state chains)

include hrecv

theorem ReceivesFrom.commit_onlyReceive
    (hwalked : Walked crypto infoString start state.resolvedLimits.maxOutOfOrderKeys epoch
      chains.receive.counter index index walk) :
    OnlyReceive epoch state (commitReceive state chains walk index epoch) := by
  refine commitReceive_onlyReceive hrecv.get fun entry hentry => ?_
  obtain ⟨skipped, -, -, -, -, rfl⟩ := (hwalked.pending entry).mp hentry
  rfl

theorem ReceivesFrom.commit_receives (hidx : chains.receive.counter < index)
    (hwalked : Walked crypto infoString start state.resolvedLimits.maxOutOfOrderKeys epoch
      chains.receive.counter index index walk) :
    ReceivesFrom crypto infoString start epoch (fun other => wanted other ∧ other ≠ index)
      (commitReceive state chains walk index epoch)
      { chains with receive := ⟨walk.chainKey, index⟩ } := by
  have hlimits : (commitReceive state chains walk index epoch).resolvedLimits =
      state.resolvedLimits := by
    rw [commitReceive_rest]
    rfl
  have htrim := trimEpochSkippedKeys_get? epoch (storeWalk state chains walk index epoch)
  refine ⟨?_, ?_, hwalked.chainKey, fun other key hkey => ?_, fun other hother hle hheld => ?_⟩
  · rw [commitReceive_rest]
    exact hrecv.info_eq
  · rw [commitReceive_rest]
    exact get?_set_self _ _ _
  · rcases htrim (epoch, other) with hsame | ⟨hnone, -⟩
    · have hstored := hsame.symm.trans hkey
      rw [storeWalk_get? hwalked] at hstored
      split at hstored
      · cases hstored
        rfl
      · rcases keptSkippedKeys_get? state chains index epoch (epoch, other) with hkept | ⟨hnone, -⟩
        · exact hrecv.held other key (hkept.symm.trans hstored)
        · cases hnone.symm.trans hstored
    · cases hnone.symm.trans hkey
  · rw [hlimits] at hheld
    dsimp only at hle hheld
    have hstored : (storeWalk state chains walk index epoch).skippedKeys.get? (epoch, other) =
        some (messageKeyAt crypto infoString start other) := by
      rw [storeWalk_get? hwalked]
      split
      · rfl
      · have hbefore : other ≤ chains.receive.counter := by
          by_contra hafter
          rename_i hnotNew
          exact hnotNew ⟨rfl, by omega, by omega, hheld⟩
        rw [(keptSkippedKeys_get? state chains index epoch (epoch, other)).resolve_right
          fun hcleared => by omega]
        exact hrecv.available other hother.1 hbefore (by omega)
    rcases htrim (epoch, other) with hsame | ⟨-, trimmed, hget, -, hbelow⟩
    · exact hsame.trans hstored
    · have htrimmed : (storeWalk state chains walk index epoch).kdfChains.get? epoch =
          some { chains with receive := ⟨walk.chainKey, index⟩ } := get?_set_self _ _ _
      cases hget.symm.trans htrimmed
      exact absurd hbelow (not_lt.mpr hheld)

theorem receiveChainFor_eq {found : EpochChains}
    (hfound : receiveChainFor state index epoch = .ok found) :
    found = chains ∧ index ≤ maxIndex := by
  simp only [receiveChainFor, hrecv.get, throw_eq_error, pure_eq_ok] at hfound
  split at hfound
  · cases hfound
  split at hfound
  · cases hfound
  split at hfound
  · cases hfound
  split at hfound
  · cases hfound
  · rename_i hidx _ _
    cases hfound
    exact ⟨rfl, not_lt.mp hidx⟩

theorem receiveChainFor_ok (hepoch : epoch ≤ state.epoch) (holdest : state.epoch ≤ epoch + 1)
    (hidx : index ≤ maxIndex)
    (hjump : index ≤ chains.receive.counter + state.resolvedLimits.maxMessageJump) :
    receiveChainFor state index epoch = .ok chains := by
  have hkept : ¬ epoch < state.epoch - epochsToKeepPriorToSendEpoch := by
    simp only [epochsToKeepPriorToSendEpoch]
    omega
  simp only [receiveChainFor, hrecv.get]
  rw [if_neg (not_lt.mpr hepoch), if_neg (not_lt.mpr hidx), if_neg hkept, if_neg (not_lt.mpr hjump)]
  rfl

end

variable (hlaw : crypto.braid.Lawful) (hstart : start.length = 32)

include hlaw hstart

theorem stepReceiveChain_ok (hrecv : ReceivesFrom crypto infoString start epoch wanted state
    chains) (hcheck : receiveChainFor state index epoch = .ok chains)
    (hahead : chains.receive.counter < index) :
    ∃ walk, Walked crypto infoString start state.resolvedLimits.maxOutOfOrderKeys epoch
        chains.receive.counter index index walk ∧
      stepReceiveChain crypto index epoch state =
        .ok (messageKeyAt crypto infoString start index)
          (commitReceive state chains walk index epoch) := by
  obtain ⟨walk, hwalk, hwalked⟩ := walkReceiveChain_loop infoString hlaw hstart
    state.resolvedLimits.maxOutOfOrderKeys epoch chains.receive.counter
    (receiveChainFor_eq hrecv hcheck).2
  rw [Nat.max_eq_right hahead.le] at hwalked
  have hkey := hwalked.messageKey
  rw [if_pos ⟨hahead, rfl⟩] at hkey
  refine ⟨walk, hwalked, ?_⟩
  rw [stepReceiveChain, get_bind, hcheck, fromResult_ok_bind, hrecv.info_eq,
    hrecv.chainKey, hwalk, fromResult_ok_bind, hkey]
  rfl

section

variable (hrecv : ReceivesFrom crypto infoString start epoch wanted state chains)

include hrecv

omit hlaw hstart in
theorem stepReceiveChain_cases (index : ℕ) :
    (∃ error, stepReceiveChain crypto index epoch state = .error error state) ∨
      receiveChainFor state index epoch = .ok chains ∧ chains.receive.counter < index := by
  cases hcheck : receiveChainFor state index epoch with
  | error error =>
    refine .inl ⟨error, ?_⟩
    rw [stepReceiveChain, get_bind, hcheck, fromResult_error_bind]
  | ok found =>
    obtain ⟨rfl, hidx⟩ := receiveChainFor_eq hrecv hcheck
    by_cases hahead : found.receive.counter < index
    · exact .inr ⟨rfl, hahead⟩
    · refine .inl ⟨.encryption .decryptionFailed
        s!"Failed to derive message key for epoch {epoch}, index {index}", ?_⟩
      have hcount : index - found.receive.counter = 0 := by omega
      rw [stepReceiveChain, get_bind, hcheck, fromResult_ok_bind, hcount, List.range'_zero]
      rfl

/-- Whatever the outcome, a receive keeps the chain and every wanted key but the requested one. -/
theorem deriveSPQRReceiveKey_keeps (hroot : state.rootKey ≠ []) (index : ℕ) :
    OnlyReceive epoch state (finalState (deriveSPQRReceiveKey crypto index epoch state)) ∧
      ∃ chains', (chains'.receive.counter = chains.receive.counter ∨
          chains'.receive.counter = index) ∧
        ReceivesFrom crypto infoString start epoch (fun other => wanted other ∧ other ≠ index)
          (finalState (deriveSPQRReceiveKey crypto index epoch state)) chains' := by
  have hsame : OnlyReceive epoch state state ∧
      ∃ chains', (chains'.receive.counter = chains.receive.counter ∨
          chains'.receive.counter = index) ∧
        ReceivesFrom crypto infoString start epoch (fun other => wanted other ∧ other ≠ index)
          state chains' :=
    ⟨.refl _ _, chains, .inl rfl, hrecv.info_eq, hrecv.get, hrecv.chainKey,
      hrecv.held, fun other hother => hrecv.available other hother.1⟩
  rw [deriveSPQRReceiveKey, bind_apply_ok (validateSPQRState_ok hroot), get_bind]
  split
  · split
    · exact hsame
    · cases hheld : state.skippedKeys.get? (epoch, index) with
      | some storedKey =>
        obtain ⟨honly, hafter⟩ := hrecv.erase index
        exact ⟨honly, chains, .inl rfl, hafter⟩
      | none =>
        rcases stepReceiveChain_cases hrecv index with
          ⟨error, herr⟩ | ⟨hcheck, hahead⟩
        · dsimp only
          rw [bind_apply_error herr]
          exact hsame
        · obtain ⟨walk, hwalked, hok⟩ :=
            stepReceiveChain_ok hlaw hstart hrecv hcheck hahead
          dsimp only
          rw [bind_apply_ok hok]
          exact ⟨hrecv.commit_onlyReceive hwalked,
            _, .inr rfl, hrecv.commit_receives hahead hwalked⟩
  · exact hsame

theorem deriveSPQRReceiveKey_ok (hroot : state.rootKey ≠ [])
    (hcompl : isSpqrBootstrapComplete state = true) (hwanted : wanted index)
    (hepoch : epoch ≤ state.epoch) (holdest : state.epoch ≤ epoch + 1) (hidx : index ≤ maxIndex)
    (hjump : index ≤ chains.receive.counter + state.resolvedLimits.maxMessageJump)
    (hheld : chains.receive.counter ≤ index + state.resolvedLimits.maxOutOfOrderKeys) :
    ∃ next, deriveSPQRReceiveKey crypto index epoch state =
      .ok (some (messageKeyAt crypto infoString start index)) next := by
  have hnotTrimmed : isBelowTrimHorizon state epoch index = false := by
    rw [isBelowTrimHorizon, hrecv.get]
    exact decide_eq_false (not_lt.mpr hheld)
  rw [deriveSPQRReceiveKey, bind_apply_ok (validateSPQRState_ok hroot), get_bind, hcompl, if_pos rfl, hnotTrimmed,
    if_neg (by simp)]
  cases hstored : state.skippedKeys.get? (epoch, index) with
  | some storedKey =>
    rw [hrecv.held index storedKey hstored]
    exact ⟨_, rfl⟩
  | none =>
    have hahead : chains.receive.counter < index := by
      by_contra hbehind
      cases hstored.symm.trans (hrecv.available index hwanted (by omega) hheld)
    obtain ⟨walk, -, hok⟩ := stepReceiveChain_ok hlaw hstart hrecv
      (receiveChainFor_ok hrecv hepoch holdest hidx hjump) hahead
    dsimp only
    rw [bind_apply_ok hok]
    exact ⟨_, rfl⟩

end

end

/-- From the send epoch on, the send chains follow the chains from `starts`; those above the send
epoch are unused. -/
structure SendsFrom (crypto : SpqrCrypto) (infoString : String) (starts : ℕ → Bytes)
    (sendEpoch : ℕ) (state : SPQRState) : Prop where
  info_eq : state.resolvedInfoStrings.chainNext = infoString
  sendEpoch_eq : state.sendEpoch = some sendEpoch
  chainKey : ∀ epoch chains, sendEpoch ≤ epoch → state.kdfChains.get? epoch = some chains →
    chains.send.chainKey = chainKeyAt crypto infoString (starts epoch) chains.send.counter
  unused : ∀ epoch chains, sendEpoch < epoch → state.kdfChains.get? epoch = some chains →
    chains.send.counter = 0

theorem advanceSendEpoch_get? (epoch : ℕ) (state : SPQRState) (other : ℕ) :
    (advanceSendEpoch epoch state).kdfChains.get? other =
      if epoch - epochsToKeepPriorToSendEpoch ≤ other then
        (state.kdfChains.get? other).map fun chains =>
          if other < epoch then { chains with send := ⟨zeroedChainKey, 0⟩ } else chains
      else none := by
  simp only [advanceSendEpoch, get?_mapEntries, get?_filterKeys, decide_eq_true_eq]
  by_cases hkept : epoch - epochsToKeepPriorToSendEpoch ≤ other
  · rw [if_pos hkept, if_pos hkept]
  · rw [if_neg hkept, if_neg hkept]
    rfl

theorem advanceSendEpoch_skippedKeys (epoch : ℕ) (state : SPQRState) (name : ℕ × ℕ) :
    (advanceSendEpoch epoch state).skippedKeys.get? name =
      if epoch - epochsToKeepPriorToSendEpoch ≤ name.1 then state.skippedKeys.get? name
      else none := by
  simp only [advanceSendEpoch, get?_filterKeys, decide_eq_true_eq]

section

variable {crypto : SpqrCrypto} {infoString : String} {starts : ℕ → Bytes} {sendEpoch : ℕ}
  {state : SPQRState}

def atSendEpoch (sendEpoch epoch : ℕ) (state : SPQRState) : SPQRState :=
  if sendEpoch < epoch then advanceSendEpoch epoch state else state

theorem nextSendKey_atSendEpoch (crypto : SpqrCrypto) (sendEpoch epoch : ℕ) (state : SPQRState) :
    (do
      if sendEpoch < epoch then modify (advanceSendEpoch epoch)
      let result ← nextSendKey crypto epoch
      pure (some result) : SpqrM (Option SPQRKeyResult)) state =
      (do
        let result ← nextSendKey crypto epoch
        pure (some result)) (atSendEpoch sendEpoch epoch state) := by
  rw [atSendEpoch]
  by_cases hlt : sendEpoch < epoch
  · rw [if_pos hlt, if_pos hlt]
    rfl
  · rw [if_neg hlt, if_neg hlt]

variable {epoch : ℕ}

theorem SendsFrom.atSendEpoch (hsends : SendsFrom crypto infoString starts sendEpoch state)
    (hle : sendEpoch ≤ epoch) :
    SendsFrom crypto infoString starts epoch (atSendEpoch sendEpoch epoch state) := by
  rw [Spqr.atSendEpoch]
  split
  · rename_i hadv
    refine ⟨hsends.info_eq, rfl, fun other chains hother hget => ?_,
      fun other chains hother hget => ?_⟩
    · rw [advanceSendEpoch_get?, if_pos (by omega)] at hget
      obtain ⟨found, hfound, rfl⟩ := Option.map_eq_some_iff.mp hget
      rw [if_neg (by omega)]
      exact hsends.chainKey other found (by omega) hfound
    · rw [advanceSendEpoch_get?, if_pos (by omega)] at hget
      obtain ⟨found, hfound, rfl⟩ := Option.map_eq_some_iff.mp hget
      rw [if_neg (by omega)]
      exact hsends.unused other found (by omega) hfound
  · obtain rfl : epoch = sendEpoch := by omega
    exact hsends

def storeSend (state : SPQRState) (epoch : ℕ) (chains : EpochChains) (chain : KDFChain) :
    SPQRState :=
  { state with kdfChains := state.kdfChains.set epoch { chains with send := chain } }

theorem nextSendKey_cases (hlaw : crypto.braid.Lawful) {start : Bytes}
    (hstart : start.length = 32) (hinfo : state.resolvedInfoStrings.chainNext = infoString)
    (hchain : ∀ chains, state.kdfChains.get? epoch = some chains →
      chains.send.chainKey = chainKeyAt crypto infoString start chains.send.counter) :
    (∃ error, nextSendKey crypto epoch state = .error error state) ∨
    ∃ chains, state.kdfChains.get? epoch = some chains ∧ chains.send.counter + 1 ≤ maxIndex ∧
      nextSendKey crypto epoch state =
        .ok ⟨messageKeyAt crypto infoString start (chains.send.counter + 1),
            chains.send.counter + 1, epoch⟩
          (storeSend state epoch chains
            ⟨chainKeyAt crypto infoString start (chains.send.counter + 1),
              chains.send.counter + 1⟩) := by
  rw [nextSendKey, get_bind]
  cases hget : state.kdfChains.get? epoch with
  | none => exact .inl ⟨_, rfl⟩
  | some chains =>
    dsimp only
    by_cases hzeroed : chains.send.chainKey = zeroedChainKey
    · rw [if_pos hzeroed]
      exact .inl ⟨_, rfl⟩
    rw [if_neg hzeroed]
    by_cases hoverflow : maxIndex ≤ chains.send.counter
    · rw [if_pos hoverflow]
      exact .inl ⟨_, rfl⟩
    rw [if_neg hoverflow]
    have hbound : chains.send.counter + 1 ≤ 0xffffffff := by
      simp only [maxIndex] at hoverflow
      omega
    refine .inr ⟨chains, rfl, by omega, ?_⟩
    rw [hchain chains hget, hinfo, kdfChainKeySPQR_ok hlaw hstart hbound]
    rfl

end

end SignalProtocol.Spqr
