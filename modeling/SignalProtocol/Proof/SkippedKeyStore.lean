import Mathlib.Data.List.DropRight
import SignalProtocol.DoubleRatchet.Chains

/-! # Operations on receiver chains

What storing, consuming and opening do to the list of chains, and which keys a chain keeps when
they are stored in the order of their indexes. -/

namespace SignalProtocol.DoubleRatchet

open Results List

variable {hmac : Bytes → Bytes → Bytes} {config : DoubleRatchetConfig}
variable {keys fresh kept : List StoredMessageKey} {key : StoredMessageKey}
variable {chains : List ReceiverChain} {chain : ReceiverChain} {cap : ℕ}
variable {senderRatchetKey other : RatchetKey} {state final : DoubleRatchetState} (now : ℕ → ℤ)

section LastEntries

variable {α : Type*} (n : ℕ)

theorem length_rtake (entries : List α) : (entries.rtake n).length = min n entries.length := by
  rw [List.rtake, length_drop]
  omega

theorem rtake_of_length_le {n : ℕ} {entries : List α} (hlen : entries.length ≤ n) :
    entries.rtake n = entries := by
  rw [List.rtake, Nat.sub_eq_zero_of_le hlen, drop_zero]

theorem rtake_rtake_append (entries rest : List α) :
    (entries.rtake n ++ rest).rtake n = (entries ++ rest).rtake n := by
  by_cases hlen : entries.length ≤ n
  · rw [rtake_of_length_le hlen]
  · have hkept : (entries.rtake n).length = n := by
      rw [length_rtake]
      omega
    have happend : entries.rtake n ++ rest = (entries ++ rest).drop (entries.length - n) := by
      rw [List.rtake, drop_append_of_le_length (Nat.sub_le _ _)]
    calc
      (entries.rtake n ++ rest).rtake n
        = (entries.rtake n ++ rest).drop (n + rest.length - n) := by
          rw [List.rtake, length_append, hkept]
      _ = (entries ++ rest).drop (entries.length - n + (n + rest.length - n)) := by
          rw [happend, drop_drop]
      _ = (entries ++ rest).rtake n := by
          rw [List.rtake, length_append]
          congr 1
          omega

end LastEntries

def Rising (keys : List StoredMessageKey) : Prop :=
  keys.Pairwise fun first second => first.index < second.index

section

variable (hrising : Rising keys)

include hrising

theorem Rising.rtake (n : ℕ) : Rising (keys.rtake n) :=
  hrising.sublist (drop_sublist _ _)

theorem lowestPosition_of_rising : lowestPosition keys = 0 := by
  have hfold : ∀ positions : List ℕ, (∀ i ∈ positions, 0 < i ∧ i < keys.length) →
      positions.foldl
        (fun lowest i =>
          if (keys[i]?.map (·.index)).getD 0 < (keys[lowest]?.map (·.index)).getD 0 then i
          else lowest) 0 = 0 := by
    intro positions hpositions
    induction positions with
    | nil => rfl
    | cons i positions ih =>
      obtain ⟨hpos, hlt⟩ := hpositions i mem_cons_self
      have hzero : 0 < keys.length := by omega
      have hlower := pairwise_iff_getElem.mp hrising 0 i hzero hlt hpos
      rw [foldl_cons, if_neg]
      · exact ih fun j hj => hpositions j (mem_cons_of_mem i hj)
      · rw [getElem?_eq_getElem hlt, getElem?_eq_getElem hzero]
        exact Nat.lt_asymm hlower
  apply hfold
  intro i hi
  rw [mem_range'_1] at hi
  omega

theorem evictLowestIndex_of_rising : evictLowestIndex keys = keys.tail := by
  rw [evictLowestIndex, lowestPosition_of_rising hrising, eraseIdx_zero]

theorem evictToCap_of_rising (hcap : 0 < cap) (hlen : keys.length ≤ cap) :
    evictToCap cap keys.length keys = if keys.length = cap then keys.tail else keys := by
  cases hrounds : keys.length with
  | zero =>
    rw [if_neg (by omega)]
    rfl
  | succ rounds =>
    by_cases hfull : rounds + 1 = cap
    · rw [if_pos hfull, evictToCap, if_pos (by omega), evictLowestIndex_of_rising hrising]
      have htail : keys.tail.length < cap := by
        rw [length_tail]
        omega
      cases rounds with
      | zero => rfl
      | succ rounds => rw [evictToCap, if_neg (by omega)]
    · rw [if_neg hfull, evictToCap, if_neg (by omega)]

theorem storeMessageKey_of_rising (hcap : 0 < cap)
    (hlen : keys.length ≤ cap) (habove : ∀ stored ∈ keys, stored.index < key.index) :
    storeMessageKey cap keys key = (keys ++ [key]).rtake cap := by
  have hnew : ¬(keys.any fun stored => stored.index = key.index) := by
    simp only [any_eq_true, decide_eq_true_eq, not_exists, not_and]
    intro stored hstored
    exact Nat.ne_of_lt (habove stored hstored)
  rw [storeMessageKey, if_neg hnew, evictToCap_of_rising hrising hcap hlen]
  split
  case isTrue hfull =>
    have hnonempty : 1 ≤ keys.length := by omega
    rw [List.rtake, length_append, length_singleton, hfull, Nat.add_sub_cancel_left,
      drop_append_of_le_length hnonempty, drop_one]
  case isFalse hroom =>
    rw [rtake_of_length_le]
    rw [length_append, length_singleton]
    omega

end

/-- Storing rising keys one by one keeps the last of all of them. -/
theorem foldl_storeMessageKey (hcap : 0 < cap) (hlen : keys.length ≤ cap)
    (hrising : Rising (keys ++ fresh)) :
    fresh.foldl (storeMessageKey cap) keys = (keys ++ fresh).rtake cap := by
  induction fresh generalizing keys with
  | nil => rw [append_nil, rtake_of_length_le hlen, foldl_nil]
  | cons key fresh ih =>
    have hsplit : keys ++ key :: fresh = keys ++ [key] ++ fresh := by simp
    have hfst : Rising (keys ++ [key]) := by
      rw [hsplit] at hrising
      exact (pairwise_append.mp hrising).1
    have habove : ∀ stored ∈ keys, stored.index < key.index := fun stored hstored =>
      (pairwise_append.mp hfst).2.2 stored hstored key mem_cons_self
    have hstored :=
      storeMessageKey_of_rising (pairwise_append.mp hfst).1 hcap hlen habove
    have hrest : Rising ((keys ++ [key]).rtake cap ++ fresh) := by
      rw [hsplit] at hrising
      exact hrising.sublist ((drop_sublist _ _).append_right fresh)
    have hshort : ((keys ++ [key]).rtake cap).length ≤ cap := by
      rw [length_rtake]
      exact Nat.min_le_left _ _
    rw [foldl_cons, hstored, ih hshort hrest, rtake_rtake_append, hsplit]

/-! ## The list of chains -/

def keysOf (senderRatchetKey : RatchetKey) (chains : List ReceiverChain) : List StoredMessageKey :=
  ((findChain senderRatchetKey chains).map (·.messageKeys)).getD []

def othersOf (senderRatchetKey : RatchetKey) (chains : List ReceiverChain) : List ReceiverChain :=
  chains.filter fun chain => chain.senderRatchetKey ≠ senderRatchetKey

def ratchetKeys (chains : List ReceiverChain) : List RatchetKey :=
  chains.map (·.senderRatchetKey)

theorem findChain_key (hfind : findChain senderRatchetKey chains = some chain) :
    chain.senderRatchetKey = senderRatchetKey := by
  simpa using find?_some hfind

theorem findChain_mem (hfind : findChain senderRatchetKey chains = some chain) :
    chain ∈ chains := mem_of_find?_eq_some hfind

theorem findChain_eq_none_iff :
    findChain senderRatchetKey chains = none ↔ senderRatchetKey ∉ ratchetKeys chains := by
  simp only [findChain, find?_eq_none, decide_eq_true_eq, ratchetKeys, mem_map, not_exists, not_and]

theorem findChain_of_mem (hnodup : (ratchetKeys chains).Nodup) (hmem : chain ∈ chains) :
    findChain chain.senderRatchetKey chains = some chain := by
  induction chains with
  | nil => cases hmem
  | cons first chains ih =>
    obtain ⟨hfst, hrest⟩ := nodup_cons.mp hnodup
    unfold findChain at ih ⊢
    obtain rfl | hmem := mem_cons.mp hmem
    · exact find?_cons_of_pos (by simp)
    · have hne : first.senderRatchetKey ≠ chain.senderRatchetKey := by
        intro hsame
        exact hfst (mem_map.mpr ⟨chain, hmem, hsame.symm⟩)
      rw [find?_cons_of_neg (by simpa using hne)]
      exact ih hrest hmem

abbrev withKeys (update : List StoredMessageKey → List StoredMessageKey)
    (chain : ReceiverChain) : ReceiverChain :=
  { chain with messageKeys := update chain.messageKeys }

variable {update next : List StoredMessageKey → List StoredMessageKey}

theorem ratchetKeys_updateChain (senderRatchetKey : RatchetKey)
    (update : List StoredMessageKey → List StoredMessageKey) (chains : List ReceiverChain) :
    ratchetKeys (updateChain senderRatchetKey (withKeys update) chains) = ratchetKeys chains := by
  induction chains with
  | nil => rfl
  | cons chain chains ih =>
    rw [updateChain]
    split
    · rfl
    · exact congrArg (chain.senderRatchetKey :: ·) ih

theorem othersOf_updateChain (senderRatchetKey : RatchetKey)
    (update : List StoredMessageKey → List StoredMessageKey) (chains : List ReceiverChain) :
    othersOf senderRatchetKey (updateChain senderRatchetKey (withKeys update) chains) =
      othersOf senderRatchetKey chains := by
  induction chains with
  | nil => rfl
  | cons chain chains ih =>
    rw [updateChain]
    split
    case isTrue hsame => simp [othersOf, hsame]
    case isFalse hother =>
      unfold othersOf at ih ⊢
      rw [filter_cons, filter_cons, ih]

theorem findChain_updateChain (senderRatchetKey : RatchetKey)
    (update : List StoredMessageKey → List StoredMessageKey) (chains : List ReceiverChain) :
    findChain senderRatchetKey (updateChain senderRatchetKey (withKeys update) chains) =
      (findChain senderRatchetKey chains).map (withKeys update) := by
  induction chains with
  | nil => rfl
  | cons chain chains ih =>
    rw [updateChain]
    split
    case isTrue hsame => simp [findChain, hsame]
    case isFalse hother =>
      unfold findChain at ih ⊢
      rw [find?_cons_of_neg (by simpa using hother),
        find?_cons_of_neg (by simpa using hother), ih]

theorem updateChain_updateChain (senderRatchetKey : RatchetKey)
    (update next : List StoredMessageKey → List StoredMessageKey) (chains : List ReceiverChain) :
    updateChain senderRatchetKey (withKeys next)
        (updateChain senderRatchetKey (withKeys update) chains) =
      updateChain senderRatchetKey (withKeys fun keys => next (update keys)) chains := by
  induction chains with
  | nil => rfl
  | cons chain chains ih =>
    simp only [updateChain]
    split
    case isTrue hsame => rw [updateChain, if_pos hsame]
    case isFalse hother => rw [updateChain, if_neg hother, ih]

theorem mem_updateChain (hmem : chain ∈ updateChain senderRatchetKey (withKeys update) chains) :
    chain ∈ chains ∨
      ∃ before, findChain senderRatchetKey chains = some before ∧
        chain = withKeys update before := by
  induction chains with
  | nil => cases hmem
  | cons first chains ih =>
    rw [updateChain] at hmem
    split at hmem
    case isTrue hsame =>
      obtain rfl | hrest := mem_cons.mp hmem
      · exact .inr ⟨first, by simp [findChain, hsame], rfl⟩
      · exact .inl (mem_cons_of_mem first hrest)
    case isFalse hother =>
      obtain rfl | hrest := mem_cons.mp hmem
      · exact .inl mem_cons_self
      · obtain hmem | ⟨before, hfind, heq⟩ := ih hrest
        · exact .inl (mem_cons_of_mem first hmem)
        · refine .inr ⟨before, ?_, heq⟩
          unfold findChain at hfind ⊢
          rw [find?_cons_of_neg (by simpa using hother), hfind]

theorem othersOf_of_not_mem (hnot : senderRatchetKey ∉ ratchetKeys chains) :
    othersOf senderRatchetKey chains = chains := by
  rw [othersOf, filter_eq_self]
  intro chain hchain
  rw [decide_eq_true_eq]
  rintro rfl
  exact hnot (mem_map.mpr ⟨chain, hchain, rfl⟩)

theorem not_mem_ratchetKeys_tail (hnot : senderRatchetKey ∉ ratchetKeys chains) :
    senderRatchetKey ∉ ratchetKeys chains.tail := by
  intro hmem
  rw [ratchetKeys, map_tail] at hmem
  exact hnot (mem_of_mem_tail hmem)

def opened (senderRatchetKey : RatchetKey) (chains : List ReceiverChain) : List ReceiverChain :=
  if senderRatchetKey ∈ ratchetKeys chains then chains
  else
    (if MAX_RECEIVER_CHAINS ≤ chains.length then chains.tail else chains) ++
      [⟨senderRatchetKey, none, []⟩]

variable (state : DoubleRatchetState)

theorem getOrCreateReceiverChain_eq (senderRatchetKey : RatchetKey) :
    getOrCreateReceiverChain state senderRatchetKey =
      { state with receiverChains := opened senderRatchetKey state.receiverChains } := by
  unfold getOrCreateReceiverChain opened
  cases hfind : findChain senderRatchetKey state.receiverChains with
  | none => rw [if_neg (findChain_eq_none_iff.mp hfind)]
  | some chain =>
    have hmem : senderRatchetKey ∈ ratchetKeys state.receiverChains := by
      by_contra hnot
      rw [findChain_eq_none_iff.mpr hnot] at hfind
      cases hfind
    rw [if_pos hmem]

theorem opened_of_mem (hmem : senderRatchetKey ∈ ratchetKeys chains) :
    opened senderRatchetKey chains = chains := if_pos hmem

theorem mem_ratchetKeys_opened (senderRatchetKey : RatchetKey) (chains : List ReceiverChain) :
    senderRatchetKey ∈ ratchetKeys (opened senderRatchetKey chains) := by
  unfold opened
  split
  case isTrue hmem => exact hmem
  case isFalse => simp [ratchetKeys]

theorem mem_opened (hmem : chain ∈ opened senderRatchetKey chains) :
    chain ∈ chains ∨ chain = ⟨senderRatchetKey, none, []⟩ := by
  unfold opened at hmem
  split at hmem
  case isTrue => exact .inl hmem
  case isFalse =>
    obtain hmem | hmem := mem_append.mp hmem
    · split at hmem
      · exact .inl (mem_of_mem_tail hmem)
      · exact .inl hmem
    · exact .inr (mem_singleton.mp hmem)

theorem keysOf_opened (senderRatchetKey : RatchetKey) (chains : List ReceiverChain) :
    keysOf senderRatchetKey (opened senderRatchetKey chains) = keysOf senderRatchetKey chains := by
  unfold opened
  split
  case isTrue => rfl
  case isFalse hnot =>
    have hnone : findChain senderRatchetKey chains = none := findChain_eq_none_iff.mpr hnot
    have hkept : findChain senderRatchetKey
        (if MAX_RECEIVER_CHAINS ≤ chains.length then chains.tail else chains) = none := by
      split
      · exact findChain_eq_none_iff.mpr (not_mem_ratchetKeys_tail hnot)
      · exact hnone
    unfold keysOf
    rw [hnone]
    unfold findChain at hkept ⊢
    rw [find?_append, hkept]
    simp

theorem othersOf_opened (senderRatchetKey : RatchetKey) (chains : List ReceiverChain) :
    othersOf senderRatchetKey (opened senderRatchetKey chains) =
      if senderRatchetKey ∉ ratchetKeys chains ∧ MAX_RECEIVER_CHAINS ≤ chains.length then
        chains.tail
      else othersOf senderRatchetKey chains := by
  unfold opened
  by_cases hmem : senderRatchetKey ∈ ratchetKeys chains
  · rw [if_pos hmem, if_neg (fun hboth => hboth.1 hmem)]
  · have hnew : othersOf senderRatchetKey [⟨senderRatchetKey, none, []⟩] = [] := by simp [othersOf]
    rw [if_neg hmem, othersOf, filter_append]
    change othersOf _ _ ++ othersOf _ _ = _
    rw [hnew, append_nil]
    by_cases hfull : MAX_RECEIVER_CHAINS ≤ chains.length
    · rw [if_pos hfull, if_pos ⟨hmem, hfull⟩]
      exact othersOf_of_not_mem (not_mem_ratchetKeys_tail hmem)
    · rw [if_neg hfull, if_neg (fun hboth => hfull hboth.2)]

theorem ratchetKeys_opened_nodup (hnodup : (ratchetKeys chains).Nodup) :
    (ratchetKeys (opened senderRatchetKey chains)).Nodup := by
  unfold opened
  split
  case isTrue => exact hnodup
  case isFalse hnot =>
    rw [ratchetKeys, map_append, map_singleton, ← concat_eq_append]
    refine List.Nodup.concat ?_ ?_
    · split
      · exact not_mem_ratchetKeys_tail hnot
      · exact hnot
    · split
      · rw [map_tail]
        exact hnodup.tail
      · exact hnodup

theorem length_opened_le (hlen : chains.length ≤ MAX_RECEIVER_CHAINS) :
    (opened senderRatchetKey chains).length ≤ MAX_RECEIVER_CHAINS := by
  unfold opened
  split
  case isTrue => exact hlen
  case isFalse =>
    rw [length_append, length_singleton]
    split
    case isTrue hfull =>
      rw [length_tail]
      have hpos : 0 < MAX_RECEIVER_CHAINS := by decide
      omega
    case isFalse hroom => omega

def chainKeyAfter (hmac : Bytes → Bytes → Bytes) (steps : ℕ) (chainKey : Bytes) : Bytes :=
  (fun chainKey => (kdfChainKey hmac chainKey).1)^[steps] chainKey

def messageKeyAfter (hmac : Bytes → Bytes → Bytes) (steps : ℕ) (chainKey : Bytes) : Bytes :=
  (kdfChainKey hmac (chainKeyAfter hmac steps chainKey)).2

/-- The keys of so many counters from `start` on, when `chainKey` is the chain key at `start`. -/
def windowKeys (hmac : Bytes → Bytes → Bytes) (now : ℕ → ℤ) (start count : ℕ)
    (chainKey : Bytes) : List StoredMessageKey :=
  (List.range count).map fun step =>
    ⟨start + step, messageKeyAfter hmac step chainKey, now (start + step)⟩

theorem windowKeys_succ (start count : ℕ) (chainKey : Bytes) :
    windowKeys hmac now start (count + 1) chainKey =
      ⟨start, (kdfChainKey hmac chainKey).2, now start⟩ ::
        windowKeys hmac now (start + 1) count (kdfChainKey hmac chainKey).1 := by
  unfold windowKeys
  rw [range_succ_eq_map, map_cons, map_map]
  congr 1
  apply map_congr_left
  intro step _
  have hidx : start + 1 + step = start + (step + 1) := by omega
  simp only [Function.comp_apply, Nat.succ_eq_add_one, hidx, messageKeyAfter, chainKeyAfter,
    Function.iterate_succ_apply]

theorem windowKeys_rising (start count : ℕ) (chainKey : Bytes) :
    Rising (windowKeys hmac now start count chainKey) := by
  unfold Rising windowKeys
  rw [pairwise_map]
  refine pairwise_lt_range.imp ?_
  intro first second hlt
  exact Nat.add_lt_add_left hlt start

def storedChains (cap : ℕ) (senderRatchetKey : RatchetKey) (fresh : List StoredMessageKey)
    (chains : List ReceiverChain) : List ReceiverChain :=
  updateChain senderRatchetKey (withKeys fun keys => fresh.foldl (storeMessageKey cap) keys)
    (opened senderRatchetKey chains)

variable (senderRatchetKey : RatchetKey)

theorem storeMessageKeyInChain_eq (key : StoredMessageKey) (config : DoubleRatchetConfig) :
    storeMessageKeyInChain state senderRatchetKey key config =
      { state with
        receiverChains := storedChains config.maxMessageKeysStored senderRatchetKey [key]
          state.receiverChains } := by
  unfold storeMessageKeyInChain
  rw [getOrCreateReceiverChain_eq]
  rfl

theorem storedChains_storedChains (cap : ℕ) (senderRatchetKey : RatchetKey)
    (first second : List StoredMessageKey) (chains : List ReceiverChain) :
    storedChains cap senderRatchetKey second (storedChains cap senderRatchetKey first chains) =
      storedChains cap senderRatchetKey (first ++ second) chains := by
  have hmem : senderRatchetKey ∈ ratchetKeys (storedChains cap senderRatchetKey first chains) := by
    rw [storedChains, ratchetKeys_updateChain]
    exact mem_ratchetKeys_opened senderRatchetKey chains
  calc
    storedChains cap senderRatchetKey second (storedChains cap senderRatchetKey first chains)
      = updateChain senderRatchetKey
          (withKeys fun keys => second.foldl (storeMessageKey cap) keys)
          (storedChains cap senderRatchetKey first chains) := by
        rw [storedChains, opened_of_mem hmem]
    _ = storedChains cap senderRatchetKey (first ++ second) chains := by
        rw [storedChains, updateChain_updateChain, storedChains]
        simp only [foldl_append]

theorem storeKeysFrom_eq (config : DoubleRatchetConfig)
    (now : ℕ → ℤ) (left i : ℕ) (chainKey : Bytes) (state : DoubleRatchetState) :
    storeKeysFrom hmac senderRatchetKey config now left i chainKey state =
      .ok (chainKeyAfter hmac left chainKey)
        (if left = 0 then state
        else
          { state with
            receiverChains := storedChains config.maxMessageKeysStored senderRatchetKey
              (windowKeys hmac now i left chainKey) state.receiverChains }) := by
  induction left generalizing i chainKey state with
  | zero => rfl
  | succ left ih =>
    rw [storeKeysFrom]
    simp only [modify_bind]
    rw [storeMessageKeyInChain_eq, ih, if_neg (Nat.succ_ne_zero left)]
    congr 1
    split
    case isTrue hzero =>
      subst hzero
      rfl
    case isFalse =>
      rw [windowKeys_succ, storedChains_storedChains]
      rfl

theorem consumeMessageKeyFromChain_cases (index : ℕ) :
    (consumeMessageKeyFromChain state senderRatchetKey index).2 = state ∨
      (consumeMessageKeyFromChain state senderRatchetKey index).2 =
        { state with
          receiverChains := updateChain senderRatchetKey
            (withKeys fun keys => keys.eraseP fun key => key.index = index)
            state.receiverChains } := by
  unfold consumeMessageKeyFromChain
  split
  · exact .inl rfl
  · split
    · exact .inl rfl
    · exact .inr rfl

theorem storeSkippedKeys_cases (hmac : Bytes → Bytes → Bytes) (untilCounter : ℕ)
    (config : DoubleRatchetConfig) (now : ℕ → ℤ) (state : DoubleRatchetState) :
    (∃ error, storeSkippedKeys hmac untilCounter config now state = .error error state ∧
        (untilCounter < state.Nr ∨ state.Nr + config.maxSkippedMessages < untilCounter)) ∨
      (state.Nr ≤ untilCounter ∧ untilCounter ≤ state.Nr + config.maxSkippedMessages ∧
        storeSkippedKeys hmac untilCounter config now state = .ok ()
          { state with
            CKr := chainKeyAfter hmac (untilCounter - state.Nr) state.CKr
            Nr := untilCounter
            receiverChains :=
              if untilCounter - state.Nr = 0 then state.receiverChains
              else
                storedChains config.maxMessageKeysStored state.DHr
                  (windowKeys hmac now state.Nr (untilCounter - state.Nr) state.CKr)
                  state.receiverChains }) := by
  unfold storeSkippedKeys
  simp only [get_bind]
  by_cases hdup : untilCounter < state.Nr
  · rw [if_pos hdup]
    exact .inl ⟨_, rfl, .inl hdup⟩
  · by_cases hjump : state.Nr + config.maxSkippedMessages < untilCounter
    · rw [if_neg hdup, if_pos hjump]
      exact .inl ⟨_, rfl, .inr hjump⟩
    · rw [if_neg hdup, if_neg hjump]
      refine .inr ⟨by omega, by omega, ?_⟩
      rw [bind_apply_ok (storeKeysFrom_eq state.DHr config now _ _ _ state)]
      split <;> rfl

/-! ## Skipped message keys stay bounded

The lists of receiver chains and of their keys keep their bounds on every run, and a catch-up
leaves the highest indexes in its chain. -/

variable {hmac : Bytes → Bytes → Bytes} {config : DoubleRatchetConfig}
variable {keys : List StoredMessageKey} {key : StoredMessageKey} {chain : ReceiverChain} {cap : ℕ}
variable {final : DoubleRatchetState} {untilCounter : ℕ}

structure ChainRoot where
  start : ℕ
  chainKey : Bytes

/-- The key that the chain of a root gives at an index. -/
def ChainRoot.messageKeyAt (hmac : Bytes → Bytes → Bytes) (root : ChainRoot) (index : ℕ) : Bytes :=
  messageKeyAfter hmac (index - root.start) root.chainKey

structure ChainWorld where
  session : DoubleRatchetState
  roots : RatchetKey → ChainRoot

inductive ChainEvent where
  | getOrCreate (senderRatchetKey : RatchetKey)
  | storeSkipped (untilCounter maxSkippedMessages : ℕ) (now : ℕ → ℤ)
  | consume (senderRatchetKey : RatchetKey) (index : ℕ)
  | cleanup (now : ℤ)
  | deriveKey
  | ratchet (dhPublicKey : RatchetKey) (chainKey : Bytes)

def DoubleRatchetConfig.skipping (config : DoubleRatchetConfig) (maxSkippedMessages : ℕ) :
    DoubleRatchetConfig :=
  { config with maxSkippedMessages }

namespace ChainWorld

def start (session : DoubleRatchetState) : ChainWorld where
  session
  roots := fun _ => ⟨session.Nr, session.CKr⟩

def step (hmac : Bytes → Bytes → Bytes) (config : DoubleRatchetConfig) (world : ChainWorld) :
    ChainEvent → ChainWorld
  | .getOrCreate senderRatchetKey =>
    { world with session := getOrCreateReceiverChain world.session senderRatchetKey }
  | .storeSkipped untilCounter maxSkippedMessages now =>
    { world with
      session := finalState
        (storeSkippedKeys hmac untilCounter (config.skipping maxSkippedMessages) now
          world.session) }
  | .consume senderRatchetKey index =>
    { world with session := (consumeMessageKeyFromChain world.session senderRatchetKey index).2 }
  | .cleanup now => { world with session := cleanupExpiredKeys world.session config now }
  | .deriveKey => { world with session := finalState (deriveReceivingKey hmac world.session) }
  | .ratchet dhPublicKey chainKey =>
    if keysOf dhPublicKey world.session.receiverChains = [] then
      { session := receivingRatchetStep world.session dhPublicKey chainKey
        roots := Function.update world.roots dhPublicKey ⟨0, chainKey⟩ }
    else world

def run (hmac : Bytes → Bytes → Bytes) (config : DoubleRatchetConfig) (world : ChainWorld)
    (events : List ChainEvent) : ChainWorld :=
  events.foldl (step hmac config) world

end ChainWorld

/-! ## The invariant -/

structure ChainSound (hmac : Bytes → Bytes → Bytes) (cap : ℕ) (world : ChainWorld)
    (chain : ReceiverChain) : Prop where
  capped : chain.messageKeys.length ≤ cap
  rising : Rising chain.messageKeys
  seeded : ∀ key ∈ chain.messageKeys, (world.roots chain.senderRatchetKey).start ≤ key.index ∧
    key.seed = (world.roots chain.senderRatchetKey).messageKeyAt hmac key.index
  behind : chain.senderRatchetKey = world.session.DHr →
    ∀ key ∈ chain.messageKeys, key.index < world.session.Nr

structure ChainWorld.Invariant (hmac : Bytes → Bytes → Bytes) (cap : ℕ) (world : ChainWorld) :
    Prop where
  few : world.session.receiverChains.length ≤ MAX_RECEIVER_CHAINS
  distinct : (ratchetKeys world.session.receiverChains).Nodup
  started : (world.roots world.session.DHr).start ≤ world.session.Nr
  current : world.session.CKr =
    chainKeyAfter hmac (world.session.Nr - (world.roots world.session.DHr).start)
      (world.roots world.session.DHr).chainKey
  sound : ∀ chain ∈ world.session.receiverChains, ChainSound hmac cap world chain

variable {world : ChainWorld}

theorem ChainSound.empty (senderRatchetKey : RatchetKey) (chainKey : Option Bytes) :
    ChainSound hmac cap world ⟨senderRatchetKey, chainKey, []⟩ where
  capped := Nat.zero_le cap
  rising := List.Pairwise.nil
  seeded := by simp
  behind := by simp

theorem ChainSound.shrink {smaller : ReceiverChain} (hsound : ChainSound hmac cap world chain)
    (hkey : smaller.senderRatchetKey = chain.senderRatchetKey)
    (hkeys : smaller.messageKeys.Sublist chain.messageKeys) :
    ChainSound hmac cap world smaller where
  capped := hkeys.length_le.trans hsound.capped
  rising := hsound.rising.sublist hkeys
  seeded := by
    intro key hmem
    rw [hkey]
    exact hsound.seeded key (hkeys.subset hmem)
  behind := by
    intro hcur key hmem
    exact hsound.behind (hkey ▸ hcur) key (hkeys.subset hmem)

theorem ChainSound.window_rising (hsound : ChainSound hmac cap world chain)
    (hcur : chain.senderRatchetKey = world.session.DHr) (now : ℕ → ℤ) (count : ℕ) :
    Rising (chain.messageKeys ++ windowKeys hmac now world.session.Nr count world.session.CKr) := by
  refine pairwise_append.mpr
    ⟨hsound.rising, windowKeys_rising now world.session.Nr count world.session.CKr, ?_⟩
  intro stored hstored key hkey
  obtain ⟨step, _, rfl⟩ := mem_map.mp hkey
  exact (hsound.behind hcur stored hstored).trans_le (Nat.le_add_right _ _)

theorem start_invariant (hmac : Bytes → Bytes → Bytes) (cap : ℕ) {session : DoubleRatchetState}
    (hfresh : session.receiverChains = []) :
    (ChainWorld.start session).Invariant hmac cap where
  few := by simp [ChainWorld.start, hfresh]
  distinct := by simp [ChainWorld.start, hfresh, ratchetKeys]
  started := Nat.le_refl _
  current := by simp [ChainWorld.start, chainKeyAfter]
  sound := by simp [ChainWorld.start, hfresh]

namespace ChainWorld.Invariant

section

variable (hinv : world.Invariant hmac cap)
  (senderRatchetKey : RatchetKey)

include hinv

theorem withChains {replaced : List ReceiverChain}
    (hfew : replaced.length ≤ MAX_RECEIVER_CHAINS) (hdist : (ratchetKeys replaced).Nodup)
    (hshrink : ∀ chain ∈ replaced, chain.messageKeys = [] ∨ ∃ before ∈ world.session.receiverChains,
        chain.senderRatchetKey = before.senderRatchetKey ∧
          chain.messageKeys.Sublist before.messageKeys)
    (processed : OrderedMap RatchetKey ProcessedChain) :
    ChainWorld.Invariant hmac cap
      { world with
        session := { world.session with
          receiverChains := replaced
          processedChains := processed } } :=
  { hinv with
    few := hfew
    distinct := hdist
    sound := by
      intro chain hmem
      obtain hempty | ⟨before, hbefore, hkey, hkeys⟩ := hshrink chain hmem
      · obtain ⟨senderRatchetKey, chainKey, messageKeys⟩ := chain
        obtain rfl : messageKeys = [] := hempty
        exact .empty senderRatchetKey chainKey
      · have hsound := (hinv.sound before hbefore).shrink hkey hkeys
        exact ⟨hsound.capped, hsound.rising, hsound.seeded, hsound.behind⟩ }

theorem getOrCreate :
    (world.step hmac config (.getOrCreate senderRatchetKey)).Invariant hmac cap := by
  rw [ChainWorld.step, getOrCreateReceiverChain_eq]
  refine hinv.withChains (length_opened_le hinv.few)
    (ratchetKeys_opened_nodup hinv.distinct) ?_ world.session.processedChains
  intro chain hmem
  obtain hmem | rfl := mem_opened hmem
  · exact .inr ⟨chain, hmem, rfl, List.Sublist.refl _⟩
  · exact .inl rfl

theorem consume (index : ℕ) :
    (world.step hmac config (.consume senderRatchetKey index)).Invariant hmac cap := by
  change ChainWorld.Invariant hmac cap
    { world with session := (consumeMessageKeyFromChain world.session senderRatchetKey index).2 }
  obtain hsame | hnext := consumeMessageKeyFromChain_cases world.session senderRatchetKey index
  · rw [hsame]
    exact hinv
  · rw [hnext]
    have hkeys := ratchetKeys_updateChain senderRatchetKey
      (fun keys => keys.eraseP fun key => key.index = index) world.session.receiverChains
    refine hinv.withChains ?_ ?_ ?_ world.session.processedChains
    · have hlen := congrArg List.length hkeys
      rw [ratchetKeys, ratchetKeys, length_map, length_map] at hlen
      rw [hlen]
      exact hinv.few
    · rw [hkeys]
      exact hinv.distinct
    · intro chain hmem
      obtain hmem | ⟨before, hfind, rfl⟩ := mem_updateChain hmem
      · exact .inr ⟨chain, hmem, rfl, List.Sublist.refl _⟩
      · exact .inr ⟨before, findChain_mem hfind, rfl, eraseP_sublist⟩

theorem cleanup (now : ℤ) : (world.step hmac config (.cleanup now)).Invariant hmac cap := by
  change ChainWorld.Invariant hmac cap
    { world with session := cleanupExpiredKeys world.session config now }
  unfold cleanupExpiredKeys
  refine hinv.withChains ?_ ?_ ?_ _
  · refine (length_filter_le _ _).trans ?_
    rw [length_map]
    exact hinv.few
  · refine hinv.distinct.sublist ?_
    have hsame : (world.session.receiverChains.map fun chain =>
        withKeys (fun keys => keys.filter fun key =>
          !decide (key.timestamp < now - config.maxMessageKeyAge)) chain).map
          (·.senderRatchetKey) = ratchetKeys world.session.receiverChains := by
      rw [map_map]
      rfl
    rw [← hsame]
    exact filter_sublist.map _
  · intro chain hmem
    obtain ⟨before, hbefore, rfl⟩ := mem_map.mp (mem_of_mem_filter hmem)
    exact .inr ⟨before, hbefore, rfl, filter_sublist⟩

theorem deriveKey :
    (world.step hmac config .deriveKey).Invariant hmac cap := by
  change ChainWorld.Invariant hmac cap
    { world with session := finalState (deriveReceivingKey hmac world.session) }
  unfold deriveReceivingKey
  simp only [get_bind]
  split
  case isTrue => exact hinv
  case isFalse =>
    split
    case isTrue => exact hinv
    case isFalse =>
      have hsteps : world.session.Nr + 1 - (world.roots world.session.DHr).start =
          world.session.Nr - (world.roots world.session.DHr).start + 1 := by
        have hstart := hinv.started
        omega
      exact {
        few := hinv.few
        distinct := hinv.distinct
        started := Nat.le_succ_of_le hinv.started
        current := by
          change (kdfChainKey hmac world.session.CKr).1 = chainKeyAfter hmac
            (world.session.Nr + 1 - (world.roots world.session.DHr).start) _
          rw [hsteps, chainKeyAfter, Function.iterate_succ_apply', hinv.current]
          rfl
        sound := fun chain hmem => {
          capped := (hinv.sound chain hmem).capped
          rising := (hinv.sound chain hmem).rising
          seeded := (hinv.sound chain hmem).seeded
          behind := fun hcur key hkey =>
            Nat.lt_succ_of_lt ((hinv.sound chain hmem).behind hcur key hkey) } }

theorem ratchet (dhPublicKey : RatchetKey) (chainKey : Bytes) :
    (world.step hmac config (.ratchet dhPublicKey chainKey)).Invariant hmac cap := by
  unfold ChainWorld.step
  simp only
  split
  case isFalse => exact hinv
  case isTrue hnone =>
    exact {
      few := hinv.few
      distinct := hinv.distinct
      started := by simp [receivingRatchetStep]
      current := by simp [receivingRatchetStep, chainKeyAfter]
      sound := by
        intro chain hmem
        have hsound := hinv.sound chain hmem
        by_cases hsame : chain.senderRatchetKey = dhPublicKey
        · -- The chain of the new key has no message keys.
          have hfind := findChain_of_mem hinv.distinct hmem
          rw [hsame] at hfind
          rw [keysOf, hfind] at hnone
          obtain ⟨senderRatchetKey, stored, messageKeys⟩ := chain
          obtain rfl : messageKeys = [] := hnone
          exact .empty senderRatchetKey stored
        · exact {
            capped := hsound.capped
            rising := hsound.rising
            seeded := by
              simp only [Function.update_of_ne hsame]
              exact hsound.seeded
            behind := fun hcur => absurd hcur hsame } }

theorem window_seeded (now : ℕ → ℤ) (count : ℕ)
    (hkey : key ∈ windowKeys hmac now world.session.Nr count world.session.CKr) :
    (world.roots world.session.DHr).start ≤ key.index ∧
      key.seed = (world.roots world.session.DHr).messageKeyAt hmac key.index ∧
      key.index < world.session.Nr + count := by
  obtain ⟨step, hstep, rfl⟩ := mem_map.mp hkey
  have hstart := hinv.started
  have hsteps : world.session.Nr + step - (world.roots world.session.DHr).start =
      step + (world.session.Nr - (world.roots world.session.DHr).start) := by omega
  refine ⟨hstart.trans (Nat.le_add_right _ _), ?_, Nat.add_lt_add_left (mem_range.mp hstep) _⟩
  calc
    messageKeyAfter hmac step world.session.CKr
      = (kdfChainKey hmac (chainKeyAfter hmac step (chainKeyAfter hmac
          (world.session.Nr - (world.roots world.session.DHr).start)
          (world.roots world.session.DHr).chainKey))).2 := by
        rw [messageKeyAfter, ← hinv.current]
    _ = (world.roots world.session.DHr).messageKeyAt hmac (world.session.Nr + step) := by
        rw [ChainRoot.messageKeyAt, messageKeyAfter, hsteps, chainKeyAfter, chainKeyAfter,
          chainKeyAfter, Function.iterate_add_apply]

theorem chainKeyAfter_until (huntil : world.session.Nr ≤ untilCounter) :
    chainKeyAfter hmac (untilCounter - world.session.Nr) world.session.CKr =
      chainKeyAfter hmac (untilCounter - (world.roots world.session.DHr).start)
        (world.roots world.session.DHr).chainKey := by
  have hstart := hinv.started
  have hsteps : untilCounter - (world.roots world.session.DHr).start =
      untilCounter - world.session.Nr +
        (world.session.Nr - (world.roots world.session.DHr).start) := by omega
  rw [hsteps, hinv.current]
  unfold chainKeyAfter
  rw [Function.iterate_add_apply]

theorem stored_sound (hcap : 0 < cap) (hsound : ChainSound hmac cap world chain)
    (hcur : chain.senderRatchetKey = world.session.DHr) (now : ℕ → ℤ) (count : ℕ)
    {advanced : ChainWorld} (hroots : advanced.roots = world.roots)
    (hNr : advanced.session.Nr = world.session.Nr + count) :
    ChainSound hmac cap advanced (withKeys (fun keys =>
      (windowKeys hmac now world.session.Nr count world.session.CKr).foldl
        (storeMessageKey cap) keys) chain) := by
  have hrising := hsound.window_rising hcur now count
  have hkeys := foldl_storeMessageKey hcap hsound.capped hrising
  have hmember : ∀ key ∈ (chain.messageKeys ++
      windowKeys hmac now world.session.Nr count world.session.CKr).rtake cap,
      (world.roots chain.senderRatchetKey).start ≤ key.index ∧
        key.seed = (world.roots chain.senderRatchetKey).messageKeyAt hmac key.index ∧
        key.index < world.session.Nr + count := by
    intro key hkey
    obtain hold | hnew := mem_append.mp (mem_of_mem_drop hkey)
    · have hseeded := hsound.seeded key hold
      have hbehind := hsound.behind hcur key hold
      exact ⟨hseeded.1, hseeded.2, hbehind.trans_le (Nat.le_add_right _ _)⟩
    · rw [hcur]
      exact hinv.window_seeded now count hnew
  refine ⟨?_, ?_, ?_, ?_⟩
  · simp only [hkeys, length_rtake]
    exact Nat.min_le_left _ _
  · simp only [hkeys]
    exact hrising.rtake cap
  · simp only [hkeys, hroots]
    exact fun key hkey => ⟨(hmember key hkey).1, (hmember key hkey).2.1⟩
  · simp only [hkeys, hNr]
    exact fun _ key hkey => (hmember key hkey).2.2

end

section

variable (hinv : world.Invariant hmac config.maxMessageKeysStored)

include hinv

section

variable (hcap : 0 < config.maxMessageKeysStored)

include hcap

theorem storeSkipped (untilCounter maxSkippedMessages : ℕ) (now : ℕ → ℤ) :
    (world.step hmac config (.storeSkipped untilCounter maxSkippedMessages now)).Invariant hmac
      config.maxMessageKeysStored := by
  change ChainWorld.Invariant hmac config.maxMessageKeysStored
    { world with
      session := finalState (storeSkippedKeys hmac untilCounter
        (config.skipping maxSkippedMessages) now world.session) }
  obtain ⟨error, hrun, _⟩ | ⟨huntil, _, hrun⟩ :=
    storeSkippedKeys_cases hmac untilCounter (config.skipping maxSkippedMessages) now world.session
  · rw [hrun]
    exact hinv
  · rw [hrun]
    obtain ⟨count, rfl⟩ := Nat.exists_eq_add_of_le huntil
    rw [Nat.add_sub_cancel_left]
    have hadvanced : (world.roots world.session.DHr).start ≤ world.session.Nr + count :=
      hinv.started.trans (Nat.le_add_right _ _)
    have hcur := hinv.chainKeyAfter_until huntil
    rw [Nat.add_sub_cancel_left] at hcur
    have hold : ∀ chain, ChainSound hmac config.maxMessageKeysStored world chain →
        ∀ replaced, ChainSound hmac config.maxMessageKeysStored
          { world with session :=
            { world.session with
              CKr := chainKeyAfter hmac count world.session.CKr
              Nr := world.session.Nr + count
              receiverChains := replaced } } chain := fun chain hsound replaced => {
      capped := hsound.capped
      rising := hsound.rising
      seeded := hsound.seeded
      behind := fun hsame key hkey =>
        (hsound.behind hsame key hkey).trans_le (Nat.le_add_right _ _) }
    by_cases hzero : count = 0
    · simp only [finalState, if_pos hzero]
      exact ⟨hinv.few, hinv.distinct, hadvanced, hcur,
        fun chain hmem => hold chain (hinv.sound chain hmem) _⟩
    · simp only [finalState, if_neg hzero]
      have hkeys : ratchetKeys (storedChains config.maxMessageKeysStored world.session.DHr
          (windowKeys hmac now world.session.Nr count world.session.CKr)
          world.session.receiverChains) =
          ratchetKeys (opened world.session.DHr world.session.receiverChains) :=
        ratchetKeys_updateChain _ _ _
      refine ⟨?_, ?_, hadvanced, hcur, ?_⟩
      · have hlen := congrArg List.length hkeys
        rw [ratchetKeys, ratchetKeys, length_map, length_map] at hlen
        exact hlen.le.trans (length_opened_le hinv.few)
      · exact hkeys ▸ ratchetKeys_opened_nodup hinv.distinct
      · have hopened : ∀ chain ∈ opened world.session.DHr world.session.receiverChains,
            ChainSound hmac config.maxMessageKeysStored world chain := by
          intro chain hmem
          obtain hmem | rfl := mem_opened hmem
          · exact hinv.sound chain hmem
          · exact .empty world.session.DHr none
        intro chain hmem
        obtain hmem | ⟨before, hfind, rfl⟩ := mem_updateChain hmem
        · exact hold chain (hopened chain hmem) _
        · exact hinv.stored_sound hcap (hopened before (findChain_mem hfind))
            (findChain_key hfind) now count rfl rfl

theorem step (event : ChainEvent) :
    (world.step hmac config event).Invariant hmac config.maxMessageKeysStored := by
  cases event with
  | getOrCreate senderRatchetKey => exact hinv.getOrCreate senderRatchetKey
  | storeSkipped untilCounter maxSkippedMessages now =>
    exact hinv.storeSkipped hcap untilCounter maxSkippedMessages now
  | consume senderRatchetKey index => exact hinv.consume senderRatchetKey index
  | cleanup now => exact hinv.cleanup now
  | deriveKey => exact hinv.deriveKey
  | ratchet dhPublicKey chainKey => exact hinv.ratchet dhPublicKey chainKey

theorem run (events : List ChainEvent) :
    (world.run hmac config events).Invariant hmac config.maxMessageKeysStored := by
  induction events generalizing world with
  | nil => exact hinv
  | cons event events ih => exact ih (hinv.step hcap event)

end

end

end ChainWorld.Invariant

structure WithinBounds (cap : ℕ) (chains : List ReceiverChain) : Prop where
  few : chains.length ≤ 5
  distinct : (chains.map (·.senderRatchetKey)).Nodup
  capped : ∀ chain ∈ chains, chain.messageKeys.length ≤ cap
  indexes : ∀ chain ∈ chains, (chain.messageKeys.map (·.index)).Nodup

/-- The `cap` entries of the highest indexes. -/
structure HighestOf (cap : ℕ) (keys kept : List StoredMessageKey) : Prop where
  sublist : kept.Sublist keys
  length : kept.length = min cap keys.length
  highest : ∀ key ∈ keys, key ∉ kept → ∀ stored ∈ kept, key.index < stored.index

structure CatchUp (hmac : Bytes → Bytes → Bytes) (cap : ℕ) (now : ℕ → ℤ) (untilCounter : ℕ)
    (world : ChainWorld) (final : DoubleRatchetState) : Prop where
  kept : HighestOf cap
    (keysOf world.session.DHr world.session.receiverChains ++
      windowKeys hmac now world.session.Nr (untilCounter - world.session.Nr) world.session.CKr)
    (keysOf world.session.DHr final.receiverChains)
  seeded : ∀ key ∈ keysOf world.session.DHr final.receiverChains,
    key.seed = (world.roots world.session.DHr).messageKeyAt hmac key.index
  others : othersOf world.session.DHr final.receiverChains =
    if world.session.Nr < untilCounter ∧
        world.session.DHr ∉ ratchetKeys world.session.receiverChains ∧
        5 ≤ world.session.receiverChains.length then
      world.session.receiverChains.tail
    else othersOf world.session.DHr world.session.receiverChains
  current : final.DHr = world.session.DHr ∧ final.Nr = untilCounter ∧
    final.CKr = chainKeyAfter hmac (untilCounter - world.session.Nr) world.session.CKr ∧
    final.processedChains = world.session.processedChains

theorem Rising.highestOf_rtake (hrising : Rising keys) (cap : ℕ) :
    HighestOf cap keys (keys.rtake cap) where
  sublist := drop_sublist _ _
  length := length_rtake cap keys
  highest := by
    intro key hkey hleft stored hstored
    rw [← List.take_append_drop (keys.length - cap) keys] at hkey hrising
    obtain hkey | hkey := mem_append.mp hkey
    · exact (pairwise_append.mp hrising).2.2 key hkey stored hstored
    · exact absurd hkey hleft

theorem keysOf_storedChains (cap : ℕ) (senderRatchetKey : RatchetKey)
    (fresh : List StoredMessageKey) (chains : List ReceiverChain) :
    keysOf senderRatchetKey (storedChains cap senderRatchetKey fresh chains) =
      fresh.foldl (storeMessageKey cap) (keysOf senderRatchetKey chains) := by
  rw [← keysOf_opened senderRatchetKey chains, keysOf, keysOf, storedChains, findChain_updateChain]
  cases hfind : findChain senderRatchetKey (opened senderRatchetKey chains) with
  | none => exact absurd (mem_ratchetKeys_opened _ _) (findChain_eq_none_iff.mp hfind)
  | some chain => rfl

theorem ChainWorld.Invariant.current_sound (hinv : world.Invariant hmac cap) :
    ChainSound hmac cap world
      ⟨world.session.DHr, none, keysOf world.session.DHr world.session.receiverChains⟩ := by
  cases hfind : findChain world.session.DHr world.session.receiverChains with
  | none =>
    rw [keysOf, hfind]
    exact .empty world.session.DHr none
  | some chain =>
    rw [keysOf, hfind]
    exact (hinv.sound chain (findChain_mem hfind)).shrink (findChain_key hfind).symm
      (List.Sublist.refl _)

theorem ChainWorld.Invariant.catchUp (hinv : world.Invariant hmac config.maxMessageKeysStored)
    (hcap : 0 < config.maxMessageKeysStored) {maxSkippedMessages : ℕ} {now : ℕ → ℤ}
    (hrun : storeSkippedKeys hmac untilCounter (config.skipping maxSkippedMessages) now
      world.session = .ok () final) :
    CatchUp hmac config.maxMessageKeysStored now untilCounter world final := by
  obtain ⟨error, hstop, _⟩ | ⟨huntil, _, hstored⟩ :=
    storeSkippedKeys_cases hmac untilCounter (config.skipping maxSkippedMessages) now world.session
  · rw [hstop] at hrun
    cases hrun
  rw [hstored] at hrun
  cases hrun
  obtain ⟨count, rfl⟩ := Nat.exists_eq_add_of_le huntil
  simp only [Nat.add_sub_cancel_left]
  have hsound := hinv.current_sound
  have hrising := hsound.window_rising rfl now count
  have hkeys : keysOf world.session.DHr
      (if count = 0 then world.session.receiverChains
      else
        storedChains (config.skipping maxSkippedMessages).maxMessageKeysStored world.session.DHr
          (windowKeys hmac now world.session.Nr count world.session.CKr)
          world.session.receiverChains) =
      (keysOf world.session.DHr world.session.receiverChains ++
        windowKeys hmac now world.session.Nr count world.session.CKr).rtake
          config.maxMessageKeysStored := by
    rw [← foldl_storeMessageKey hcap hsound.capped hrising]
    split
    case isTrue hzero =>
      subst hzero
      rfl
    case isFalse => exact keysOf_storedChains _ _ _ _
  refine ⟨?_, ?_, ?_, rfl, rfl, by rw [Nat.add_sub_cancel_left], rfl⟩
  · rw [hkeys, Nat.add_sub_cancel_left]
    exact hrising.highestOf_rtake config.maxMessageKeysStored
  · intro key hkey
    rw [hkeys] at hkey
    obtain hold | hnew := mem_append.mp (mem_of_mem_drop hkey)
    · exact (hsound.seeded key hold).2
    · exact (hinv.window_seeded now count hnew).2.1
  · by_cases hzero : count = 0
    · subst hzero
      rw [if_pos rfl, if_neg (by omega)]
    · rw [if_neg hzero, storedChains, othersOf_updateChain, othersOf_opened]
      have hlt : world.session.Nr < world.session.Nr + count := by omega
      simp only [hlt, true_and]
      rfl

theorem ChainWorld.Invariant.withinBounds (hinv : world.Invariant hmac cap) :
    WithinBounds cap world.session.receiverChains :=
  { hinv with
    capped := fun chain hmem => (hinv.sound chain hmem).capped
    indexes := by
      intro chain hmem
      rw [List.Nodup, pairwise_map]
      exact (hinv.sound chain hmem).rising.imp Nat.ne_of_lt }

/-- On every run of a session, from no receiver chains, the store keeps its bounds, and a catch-up
leaves the highest of the old and the skipped keys, with the seeds of the chain. -/
theorem skippedKeyStore_bounded (hmac : Bytes → Bytes → Bytes) (config : DoubleRatchetConfig)
    (hcap : 0 < config.maxMessageKeysStored) (session : DoubleRatchetState)
    (hfresh : session.receiverChains = []) (events : List ChainEvent) :
    let world := (ChainWorld.start session).run hmac config events
    WithinBounds config.maxMessageKeysStored world.session.receiverChains ∧
      ∀ (untilCounter maxSkippedMessages : ℕ) (now : ℕ → ℤ),
        let result := storeSkippedKeys hmac untilCounter (config.skipping maxSkippedMessages) now
          world.session
        (∀ error final, result = .error error final → final = world.session) ∧
          (∀ final, result = .ok () final →
            CatchUp hmac config.maxMessageKeysStored now untilCounter world final) ∧
          (world.session.Nr ≤ untilCounter → untilCounter ≤ world.session.Nr + maxSkippedMessages →
            ∃ final, result = .ok () final) := by
  intro world
  have hinv : world.Invariant hmac config.maxMessageKeysStored :=
    (start_invariant hmac config.maxMessageKeysStored hfresh).run hcap events
  refine ⟨hinv.withinBounds, fun untilCounter maxSkippedMessages now => ?_⟩
  intro result
  refine ⟨?_, fun final hrun => hinv.catchUp hcap hrun, ?_⟩
  · intro error final herror
    obtain ⟨stopped, hrun, _⟩ | ⟨_, _, hrun⟩ := storeSkippedKeys_cases hmac untilCounter
      (config.skipping maxSkippedMessages) now world.session
    · exact (EStateM.Result.error.inj (hrun.symm.trans herror)).2.symm
    · cases hrun.symm.trans herror
  · intro huntil hlimit
    obtain ⟨stopped, hrun, hbound | hbound⟩ | ⟨_, _, hrun⟩ := storeSkippedKeys_cases hmac
      untilCounter (config.skipping maxSkippedMessages) now world.session
    · exact absurd huntil (Nat.not_le.mpr hbound)
    · exact absurd hlimit (Nat.not_le.mpr hbound)
    · exact ⟨_, hrun⟩

def quietSession : DoubleRatchetState := ⟨"f", [7], 0, [], ∅⟩

def joiningHmac (key data : Bytes) : Bytes := key ++ data

def fiveChains : List ChainEvent := ["a", "b", "c", "d", "e"].map .getOrCreate

theorem skippedKeyStore_bounded_quiet :
    let world := (ChainWorld.start quietSession).run joiningHmac DEFAULT_RATCHET_CONFIG fiveChains
    WithinBounds 2000 world.session.receiverChains ∧
      ∃ final, storeSkippedKeys joiningHmac 2 (DEFAULT_RATCHET_CONFIG.skipping 25000) (fun _ => 0)
          world.session = .ok () final ∧
        CatchUp joiningHmac 2000 (fun _ => 0) 2 world final := by
  have hstore := skippedKeyStore_bounded joiningHmac DEFAULT_RATCHET_CONFIG (by decide) quietSession
    rfl fiveChains
  obtain ⟨final, hrun⟩ := (hstore.2 2 25000 fun _ => 0).2.2 (by decide) (by decide)
  exact ⟨hstore.1, final, hrun, (hstore.2 2 25000 fun _ => 0).2.1 final hrun⟩

/-- With five chains, a catch-up on a sixth ratchet key removes the chain of the oldest. -/
theorem storeSkippedKeys_not_frame :
    let session :=
      ((ChainWorld.start quietSession).run joiningHmac DEFAULT_RATCHET_CONFIG fiveChains).session
    let final := finalState (storeSkippedKeys joiningHmac 1 DEFAULT_RATCHET_CONFIG (fun _ => 0)
      session)
    ratchetKeys session.receiverChains = ["a", "b", "c", "d", "e"] ∧
      ratchetKeys final.receiverChains = ["b", "c", "d", "e", "f"] ∧
      othersOf session.DHr final.receiverChains ≠ othersOf session.DHr session.receiverChains := by
  decide

theorem Rising.find?_eraseP {index : ℕ} (hrising : Rising keys) (hkey : key ∈ keys)
    (hindex : key.index = index) :
    (keys.eraseP fun key => key.index = index).find? (fun key => key.index = index) = none := by
  obtain ⟨first, before, after, hbefore, hfirst, rfl, herase⟩ :=
    exists_of_eraseP (p := fun key => key.index = index) hkey (by simpa using hindex)
  rw [herase, find?_eq_none]
  intro other hother
  obtain hother | hother := mem_append.mp hother
  · exact hbefore other hother
  · have hlt := rel_of_pairwise_cons (pairwise_append.mp hrising).2.1 hother
    simp only [decide_eq_true_eq] at hfirst ⊢
    omega

end SignalProtocol.DoubleRatchet
