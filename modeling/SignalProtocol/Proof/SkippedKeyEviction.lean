import SignalProtocol.SenderKeys.Manager

/-! # Eviction of skipped sender keys

A store makes room by chain index, and each key counts the keys that were staged after it. -/

namespace SignalProtocol.SenderKeys

open List OrderedMap

variable {skipped : SkippedSenderKey}
  {staged : List SkippedSenderKey} {address : SenderKeyAddress} {older newer : SkippedKeyId}

/-- One `storeSenderKeyRecord`. -/
structure SenderKeyWrite where
  address : SenderKeyAddress
  states : List SenderKeyState
  receive : SenderKeyReceiveCommit

def SenderKeyStore.write (store : SenderKeyStore) (write : SenderKeyWrite) : SenderKeyStore :=
  store.storeSenderKeyRecord write.address write.states write.receive

def SenderKeyStore.run (store : SenderKeyStore) (writes : List SenderKeyWrite) : SenderKeyStore :=
  writes.foldl SenderKeyStore.write store

def SkippedSenderKey.id (sender : SenderKeyAddress) (skipped : SkippedSenderKey) : SkippedKeyId :=
  ⟨sender, skipped.senderKeyId, skipped.chainIndex⟩

/-- The write changes the skipped keys of the sender device. -/
def SenderKeyWrite.Of (sender : SenderKeyAddress) (write : SenderKeyWrite) : Prop :=
  write.address = sender ∧ write.states ≠ []

instance (sender : SenderKeyAddress) (write : SenderKeyWrite) : Decidable (write.Of sender) :=
  inferInstanceAs (Decidable (_ ∧ _))

/-- The number of keys that were staged after each key that was staged, and not consumed since. -/
abbrev StagedAfter := SkippedKeyId → Option ℕ

namespace StagedAfter

def stage (counts : StagedAfter) (key : SkippedKeyId) : StagedAfter := fun other =>
  if other = key then some 0 else (counts other).map (· + 1)

def consume (counts : StagedAfter) (key : SkippedKeyId) : StagedAfter := fun other =>
  if other = key then none else counts other

def stageAll (sender : SenderKeyAddress) (counts : StagedAfter)
    (staged : List SkippedSenderKey) : StagedAfter :=
  staged.foldl (fun counts skipped => counts.stage (skipped.id sender)) counts

def write (sender : SenderKeyAddress) (counts : StagedAfter) (write : SenderKeyWrite) :
    StagedAfter :=
  if write.Of sender then
    let staged := counts.stageAll sender write.receive.skippedKeys
    match write.receive.consumedSkippedKey with
    | some consumed => staged.consume ⟨sender, consumed.1, consumed.2⟩
    | none => staged
  else counts

def run (sender : SenderKeyAddress) (counts : StagedAfter) (writes : List SenderKeyWrite) :
    StagedAfter :=
  writes.foldl (write sender) counts

def none : StagedAfter := fun _ => Option.none

end StagedAfter

/-- The skipped keys of a sender device in the order in which the map got them. -/
def heldKeys (sender : SenderKeyAddress) (skippedKeys : SkippedSenderKeys) : List SkippedKeyId :=
  skippedKeys.keys.filter fun key => key.address = sender

/-- No staged key is held already, and wherever one needs room the chain indexes of the held keys
rise in the order in which they were staged. -/
def StagesInOrder (sender : SenderKeyAddress) (maxSkippedKeys : ℕ) :
    SkippedSenderKeys → List SkippedSenderKey → Prop
  | _, [] => True
  | skippedKeys, skipped :: rest =>
    skipped.id sender ∉ heldKeys sender skippedKeys ∧
      (0 < maxSkippedKeys → maxSkippedKeys ≤ (heldKeys sender skippedKeys).length →
        (heldKeys sender skippedKeys).Pairwise fun first second =>
          first.chainIndex ≤ second.chainIndex) ∧
      StagesInOrder sender maxSkippedKeys
        (storeSkippedKey sender maxSkippedKeys skippedKeys skipped) rest

/-- Each write of the sender device stages in order, under one cap. -/
def WritesInOrder (sender : SenderKeyAddress) (maxSkippedKeys : ℕ) :
    SenderKeyStore → List SenderKeyWrite → Prop
  | _, [] => True
  | store, write :: rest =>
    (write.Of sender → write.receive.maxSkippedKeys = maxSkippedKeys ∧
      StagesInOrder sender maxSkippedKeys store.skippedSenderKeys write.receive.skippedKeys) ∧
      WritesInOrder sender maxSkippedKeys (store.write write) rest

variable {sender : SenderKeyAddress} {maxSkippedKeys : ℕ} {skippedKeys : SkippedSenderKeys}

theorem heldKeys_erase (key : SkippedKeyId) :
    heldKeys sender (skippedKeys.erase key) =
      (heldKeys sender skippedKeys).filter fun other => other ≠ key := by
  have hkeys : (skippedKeys.erase key).keys = skippedKeys.keys.filter fun other => other ≠ key := by
    rw [OrderedMap.keys, OrderedMap.erase, OrderedMap.keys, filter_map]
    rfl
  rw [heldKeys, heldKeys, hkeys, filter_filter, filter_filter]
  simp only [Bool.and_comm]

theorem heldKeys_foldl_erase (keys : List SkippedKeyId) :
    heldKeys sender (keys.foldl OrderedMap.erase skippedKeys) =
      (heldKeys sender skippedKeys).filter fun other => other ∉ keys := by
  induction keys generalizing skippedKeys with
  | nil => simp
  | cons key keys ih =>
    rw [foldl_cons, ih, heldKeys_erase, filter_filter]
    congr 1
    funext other
    simp [Bool.and_comm]

theorem heldKeys_nodup : (heldKeys sender skippedKeys).Nodup :=
  skippedKeys.keys_nodup.filter _

theorem heldKeys_set {key : SkippedKeyId} {messageKey : SenderMessageKey}
    (hkey : key.address = sender) (hnew : key ∉ heldKeys sender skippedKeys) :
    heldKeys sender (skippedKeys.set key messageKey) = heldKeys sender skippedKeys ++ [key] := by
  have habsent : key ∉ skippedKeys.keys := by
    intro hmem
    exact hnew (mem_filter.mpr ⟨hmem, by simpa using hkey⟩)
  rw [heldKeys, keys_set_of_not_mem _ _ habsent, filter_append]
  simp [heldKeys, hkey]

theorem heldKeys_set_other {key : SkippedKeyId} {messageKey : SenderMessageKey}
    (hkey : key.address ≠ sender) :
    heldKeys sender (skippedKeys.set key messageKey) = heldKeys sender skippedKeys := by
  by_cases hmem : key ∈ skippedKeys.keys
  · rw [heldKeys, keys_set_of_mem _ _ hmem, heldKeys]
  · rw [heldKeys, keys_set_of_not_mem _ _ hmem, filter_append]
    simp [heldKeys, hkey]

theorem filter_not_mem_take {α : Type} [DecidableEq α] {list : List α} (hnodup : list.Nodup)
    (count : ℕ) : (list.filter fun entry => entry ∉ list.take count) = list.drop count := by
  have hsplit := List.take_append_drop count list
  have hdisjoint : (list.take count).Disjoint (list.drop count) := by
    rw [← hsplit] at hnodup
    exact disjoint_of_nodup_append hnodup
  calc (list.filter fun entry => entry ∉ list.take count)
      = (list.take count ++ list.drop count).filter fun entry => entry ∉ list.take count := by
        rw [hsplit]
    _ = [] ++ list.drop count := by
        rw [filter_append]
        congr 1
        · exact filter_eq_nil_iff.mpr fun entry hentry => by simpa using hentry
        · refine filter_eq_self.mpr fun entry hentry => ?_
          simpa using fun htaken => hdisjoint htaken hentry
    _ = list.drop count := nil_append _

/-- Where the held keys stand in the order of their chain indexes, the ones that make room are the
first of them. -/
theorem heldKeys_storeSkippedKey (hmax : 0 < maxSkippedKeys)
    (hnew : skipped.id sender ∉ heldKeys sender skippedKeys)
    (hordered : maxSkippedKeys ≤ (heldKeys sender skippedKeys).length →
      (heldKeys sender skippedKeys).Pairwise fun first second =>
        first.chainIndex ≤ second.chainIndex) :
    heldKeys sender (storeSkippedKey sender maxSkippedKeys skippedKeys skipped) =
      (heldKeys sender skippedKeys).drop
        ((heldKeys sender skippedKeys).length - (maxSkippedKeys - 1)) ++ [skipped.id sender] := by
  have hlen : (skippedKeysOf sender skippedKeys).length =
      (heldKeys sender skippedKeys).length := length_mergeSort _
  have htaken : (skippedKeysOf sender skippedKeys).take
        ((skippedKeysOf sender skippedKeys).length - (maxSkippedKeys - 1)) =
      (heldKeys sender skippedKeys).take
        ((heldKeys sender skippedKeys).length - (maxSkippedKeys - 1)) := by
    rw [hlen]
    by_cases hfull : maxSkippedKeys ≤ (heldKeys sender skippedKeys).length
    · have hsorted : skippedKeysOf sender skippedKeys = heldKeys sender skippedKeys :=
        mergeSort_of_pairwise ((hordered hfull).imp fun hle => decide_eq_true hle)
      rw [hsorted]
    · have hzero : (heldKeys sender skippedKeys).length - (maxSkippedKeys - 1) = 0 := by omega
      rw [hzero, List.take_zero, List.take_zero]
  have hkept : heldKeys sender (((heldKeys sender skippedKeys).take
        ((heldKeys sender skippedKeys).length - (maxSkippedKeys - 1))).foldl
          OrderedMap.erase skippedKeys) =
      (heldKeys sender skippedKeys).drop
        ((heldKeys sender skippedKeys).length - (maxSkippedKeys - 1)) := by
    rw [heldKeys_foldl_erase, filter_not_mem_take heldKeys_nodup]
  rw [storeSkippedKey, htaken, ← hkept]
  refine heldKeys_set rfl ?_
  rw [hkept]
  exact fun hmem => hnew (mem_of_mem_drop hmem)

theorem heldKeys_storeSkippedKey_other (hother : address ≠ sender) (skipped : SkippedSenderKey) :
    heldKeys sender (storeSkippedKey address maxSkippedKeys skippedKeys skipped) =
      heldKeys sender skippedKeys := by
  rw [storeSkippedKey, heldKeys_set_other hother, heldKeys_foldl_erase]
  refine filter_eq_self.mpr fun key hkey => ?_
  have hsender : key.address = sender := by simpa using (mem_filter.mp hkey).2
  have habsent : key ∉ skippedKeysOf address skippedKeys := by
    intro hmem
    have haddr := (mem_filter.mp (mem_mergeSort.mp hmem)).2
    exact hother ((of_decide_eq_true haddr).symm.trans hsender)
  simpa using fun hmem => habsent (mem_of_mem_take hmem)

/-- A key with few keys after it is held, and after a held key as many keys were staged as stand
behind it. -/
structure Aged (maxSkippedKeys : ℕ) (counts : StagedAfter) (held : List SkippedKeyId) : Prop where
  young : ∀ key count, counts key = some count → count < maxSkippedKeys → key ∈ held
  ordered : ∀ front key back, held = front ++ key :: back →
    ∃ count, counts key = some count ∧ back.length ≤ count

variable {counts : StagedAfter} {held : List SkippedKeyId}

theorem Aged.stage (haged : Aged maxSkippedKeys counts held) {key : SkippedKeyId}
    (hnew : key ∉ held) (hmax : 0 < maxSkippedKeys) :
    Aged maxSkippedKeys (counts.stage key)
      (held.drop (held.length - (maxSkippedKeys - 1)) ++ [key]) := by
  have hsplit := List.take_append_drop (held.length - (maxSkippedKeys - 1)) held
  refine ⟨?_, ?_⟩
  · intro other count hcount hsmall
    by_cases hother : other = key
    · exact mem_append_right _ (hother ▸ mem_cons_self)
    rw [StagedAfter.stage, if_neg hother, Option.map_eq_some_iff] at hcount
    obtain ⟨before, hbefore, rfl⟩ := hcount
    have hmem := haged.young other before hbefore (by omega)
    rw [← hsplit, mem_append] at hmem
    obtain hevicted | hkept := hmem
    · -- An evicted key has the kept ones behind it, and they fill the store up to one.
      obtain ⟨front, between, htake⟩ := append_of_mem hevicted
      have hheld : held = front ++ other ::
          (between ++ held.drop (held.length - (maxSkippedKeys - 1))) := by
        rw [← cons_append, ← append_assoc, ← htake, hsplit]
      obtain ⟨later, hlater, hbehind⟩ := haged.ordered front other _ hheld
      obtain rfl : later = before := Option.some.inj (hlater.symm.trans hbefore)
      have htaken := length_pos_of_mem hevicted
      rw [length_take] at htaken
      rw [length_append, length_drop] at hbehind
      omega
    · exact mem_append_left _ hkept
  · intro front other back heq
    rcases eq_nil_or_concat back with rfl | ⟨rest, last, rfl⟩
    · obtain ⟨-, hlast⟩ := append_inj' heq rfl
      obtain rfl := (List.cons.inj hlast).1
      exact ⟨0, if_pos rfl, Nat.le_refl _⟩
    · rw [concat_eq_append, ← cons_append, ← append_assoc] at heq
      obtain ⟨hdrop, -⟩ := append_inj' heq rfl
      have hheld : held = (held.take (held.length - (maxSkippedKeys - 1)) ++ front) ++
          other :: rest := by
        rw [append_assoc, ← hdrop, hsplit]
      obtain ⟨before, hbefore, hbehind⟩ := haged.ordered _ other rest hheld
      have hother : other ≠ key := by
        rintro rfl
        exact hnew (hheld ▸ mem_append_right _ mem_cons_self)
      refine ⟨before + 1, ?_, ?_⟩
      · rw [StagedAfter.stage, if_neg hother, hbefore]
        rfl
      · rw [concat_eq_append, length_append]
        exact Nat.succ_le_succ hbehind

theorem Aged.consume (haged : Aged maxSkippedKeys counts held) (key : SkippedKeyId) :
    Aged maxSkippedKeys (counts.consume key) (held.filter fun other => other ≠ key) := by
  refine ⟨?_, ?_⟩
  · intro other count hcount hsmall
    rw [StagedAfter.consume] at hcount
    split at hcount
    · cases hcount
    · next hother =>
      exact mem_filter.mpr ⟨haged.young other count hcount hsmall, by simpa using hother⟩
  · intro front other back heq
    obtain ⟨start, rest, hheld, -, hrest⟩ := filter_eq_append_iff.mp heq
    obtain ⟨skipped, tail, rfl, -, hother, rfl⟩ := filter_eq_cons_iff.mp hrest
    rw [← append_assoc] at hheld
    obtain ⟨count, hcount, hbehind⟩ := haged.ordered _ other tail hheld
    refine ⟨count, ?_, Nat.le_trans (length_filter_le _ _) hbehind⟩
    rw [StagedAfter.consume, if_neg (by simpa using hother), hcount]

theorem Aged.stageAll (hmax : 0 < maxSkippedKeys)
    (haged : Aged maxSkippedKeys counts (heldKeys sender skippedKeys))
    (horder : StagesInOrder sender maxSkippedKeys skippedKeys staged) :
    Aged maxSkippedKeys (counts.stageAll sender staged)
      (heldKeys sender (staged.foldl (storeSkippedKey sender maxSkippedKeys) skippedKeys)) := by
  induction staged generalizing counts skippedKeys with
  | nil => exact haged
  | cons skipped rest ih =>
    obtain ⟨hnew, hrising, hrest⟩ := horder
    refine ih ?_ hrest
    rw [heldKeys_storeSkippedKey hmax hnew (hrising hmax)]
    exact haged.stage hnew hmax

theorem heldKeys_commit_other (hother : address ≠ sender) (receive : SenderKeyReceiveCommit) :
    heldKeys sender (commitSkippedKeys address receive skippedKeys) =
      heldKeys sender skippedKeys := by
  have hstored : heldKeys sender (receive.skippedKeys.foldl
      (storeSkippedKey address receive.maxSkippedKeys) skippedKeys) =
        heldKeys sender skippedKeys := by
    generalize receive.skippedKeys = staged
    induction staged generalizing skippedKeys with
    | nil => rfl
    | cons skipped rest ih =>
      rw [foldl_cons, ih, heldKeys_storeSkippedKey_other hother]
  rw [commitSkippedKeys]
  cases receive.consumedSkippedKey with
  | none => exact hstored
  | some consumed =>
    dsimp only
    rw [heldKeys_erase, hstored]
    refine filter_eq_self.mpr fun key hkey => ?_
    have hsender : key.address = sender := by simpa using (mem_filter.mp hkey).2
    have hne : key ≠ ⟨address, consumed.1, consumed.2⟩ := by
      rintro rfl
      exact hother hsender
    simpa using hne

variable {store : SenderKeyStore}

theorem Aged.write {write : SenderKeyWrite} (hmax : 0 < maxSkippedKeys)
    (haged : Aged maxSkippedKeys counts (heldKeys sender store.skippedSenderKeys))
    (horder : write.Of sender → write.receive.maxSkippedKeys = maxSkippedKeys ∧
      StagesInOrder sender maxSkippedKeys store.skippedSenderKeys write.receive.skippedKeys) :
    Aged maxSkippedKeys (counts.write sender write)
      (heldKeys sender (store.write write).skippedSenderKeys) := by
  obtain ⟨address, states, receive⟩ := write
  by_cases hof : SenderKeyWrite.Of sender ⟨address, states, receive⟩
  · obtain ⟨hcap, hstages⟩ := horder hof
    obtain ⟨haddr, hstates⟩ := hof
    obtain ⟨current, older, rfl⟩ := exists_cons_of_ne_nil hstates
    dsimp only at haddr hcap hstages
    have hstaged := haged.stageAll hmax hstages
    rw [StagedAfter.write, if_pos ⟨haddr, hstates⟩]
    rw [SenderKeyStore.write, SenderKeyStore.storeSenderKeyRecord, commitSkippedKeys, hcap, haddr]
    dsimp only
    cases receive.consumedSkippedKey with
    | none => exact hstaged
    | some consumed =>
      dsimp only
      rw [heldKeys_erase]
      exact hstaged.consume _
  · rw [StagedAfter.write, if_neg hof]
    have hsame : heldKeys sender
        (store.write ⟨address, states, receive⟩).skippedSenderKeys =
          heldKeys sender store.skippedSenderKeys := by
      cases states with
      | nil => rfl
      | cons current older =>
        have hother : address ≠ sender := fun haddr => hof ⟨haddr, cons_ne_nil _ _⟩
        exact heldKeys_commit_other hother receive
    rwa [hsame]

theorem Aged.run {writes : List SenderKeyWrite} (hmax : 0 < maxSkippedKeys)
    (haged : Aged maxSkippedKeys counts (heldKeys sender store.skippedSenderKeys))
    (horder : WritesInOrder sender maxSkippedKeys store writes) :
    Aged maxSkippedKeys (counts.run sender writes)
      (heldKeys sender (store.run writes).skippedSenderKeys) := by
  induction writes generalizing counts store with
  | nil => exact haged
  | cons write rest ih => exact ih (haged.write hmax horder.1) horder.2

theorem aged_empty (maxSkippedKeys : ℕ) (sender : SenderKeyAddress) :
    Aged maxSkippedKeys .none (heldKeys sender SenderKeyStore.empty.skippedSenderKeys) := by
  refine ⟨?_, ?_⟩
  · intro key count hcount
    cases hcount
  · intro front key back hheld
    exact absurd hheld.symm (append_ne_nil_of_right_ne_nil front (cons_ne_nil _ _))

theorem StagedAfter.stageAll_le (sender : SenderKeyAddress) (staged : List SkippedSenderKey)
    {key : SkippedKeyId} {count : ℕ} (hcount : counts key = some count) :
    ∃ later, counts.stageAll sender staged key = some later ∧ later ≤ count + staged.length := by
  induction staged generalizing counts count with
  | nil => exact ⟨count, hcount, Nat.le_refl _⟩
  | cons skipped rest ih =>
    have hstaged : ∃ next, counts.stage (skipped.id sender) key = some next ∧ next ≤ count + 1 := by
      rw [StagedAfter.stage]
      split
      · exact ⟨0, rfl, Nat.zero_le _⟩
      · exact ⟨count + 1, by rw [hcount]; rfl, Nat.le_refl _⟩
    obtain ⟨next, hnext, hle⟩ := hstaged
    obtain ⟨later, hlater, hbound⟩ := ih hnext
    refine ⟨later, hlater, ?_⟩
    rw [length_cons]
    omega

theorem StagedAfter.stageAll_last (sender : SenderKeyAddress) (counts : StagedAfter) {bound : ℕ}
    (hmem : skipped ∈ staged.reverse.take bound) :
    ∃ count, counts.stageAll sender staged (skipped.id sender) = some count ∧ count < bound := by
  obtain ⟨after, before, htake⟩ := append_of_mem hmem
  have hreverse : staged.reverse = after ++ skipped ::
      (before ++ staged.reverse.drop bound) := by
    rw [← cons_append, ← append_assoc, ← htake, List.take_append_drop]
  generalize staged.reverse.drop bound = dropped at hreverse
  have hstaged : staged = (before ++ dropped).reverse ++ skipped :: after.reverse := by
    rw [← reverse_reverse staged, hreverse]
    simp
  have hlen := congrArg List.length htake
  rw [length_take, length_append, length_cons] at hlen
  have hzero : (counts.stageAll sender (before ++ dropped).reverse).stage (skipped.id sender)
      (skipped.id sender) = some 0 := if_pos rfl
  obtain ⟨count, hcount, hle⟩ := StagedAfter.stageAll_le sender after.reverse hzero
  refine ⟨count, ?_, ?_⟩
  · rw [hstaged, StagedAfter.stageAll, foldl_append]
    exact hcount
  · rw [length_reverse] at hle
    omega

def exampleSender : SenderKeyAddress := ⟨"group", "alice", 1⟩

def exampleId (senderKeyId : String) (chainIndex : ℕ) : SkippedKeyId :=
  ⟨exampleSender, senderKeyId, chainIndex⟩

/-- A write that stages these keys under a cap of two. -/
def exampleWrite (senderKeyId : String) (chainIndexes : List ℕ) : SenderKeyWrite where
  address := exampleSender
  states := [⟨senderKeyId, "1", 0, 0, [], [], [], 0, 0⟩]
  receive :=
    { maxSkippedKeys := 2
      skippedKeys := chainIndexes.map fun chainIndex => ⟨senderKeyId, chainIndex, ⟨[], []⟩⟩ }

theorem skippedKeysOf_pair (hheld : heldKeys sender skippedKeys = [older, newer])
    (hidx : newer.chainIndex < older.chainIndex) :
    skippedKeysOf sender skippedKeys = [newer, older] := by
  have hsorted : skippedKeysOf sender skippedKeys = [older, newer].mergeSort
      fun first second => first.chainIndex ≤ second.chainIndex := by
    rw [← hheld]
    rfl
  rw [hsorted, List.mergeSort]
  simp [List.MergeSort.Internal.splitInTwo, hidx]

theorem heldKeys_evict_newer (hheld : heldKeys sender skippedKeys = [older, newer])
    (hidx : newer.chainIndex < older.chainIndex) (hnew : skipped.id sender ∉ [older, newer]) :
    heldKeys sender (storeSkippedKey sender 2 skippedKeys skipped) =
      [older, skipped.id sender] := by
  have hne : older ≠ newer := by
    rintro rfl
    exact Nat.lt_irrefl _ hidx
  have hkept : heldKeys sender ([newer].foldl OrderedMap.erase skippedKeys) = [older] := by
    rw [heldKeys_foldl_erase, hheld]
    simp [hne]
  rw [storeSkippedKey, skippedKeysOf_pair hheld hidx]
  change heldKeys sender (([newer].foldl OrderedMap.erase skippedKeys).set
    (skipped.id sender) skipped.messageKey) = _
  have habsent : skipped.id sender ∉
      heldKeys sender ([newer].foldl OrderedMap.erase skippedKeys) := by
    rw [hkept]
    exact fun hmem => hnew (mem_cons.mpr (Or.inl (mem_singleton.mp hmem)))
  have hkey : (skipped.id sender).address = sender := rfl
  rw [heldKeys_set hkey habsent, hkept]
  rfl

end SignalProtocol.SenderKeys
