import SignalProtocol.KeyValue.GroupStore
import SignalProtocol.Library.Simulation
import SignalProtocol.Proof.KeyTexts

/-! # The text layout simulates the structured one

A backend whose rows stand under texts renders a backend whose rows stand under structured keys. -/

namespace SignalProtocol.KeyValue

open Results Simulates OrderedMap

variable {T : StoredTypes} {α : Type} {keyTexts : List KeyText} {β : Type}
  {right : StoreM T KeyText α} {left : StoreM T StorageKey α}

section OneRow

variable {K : Type} [DecidableEq K] {decode : Row T K → Option α} {key : K} {row : Row T K}
variable {rows : OrderedMap K (Row T K)}

theorem readRow_none (hget : rows.get? key = none) : readRow decode key rows = .ok none rows := by
  rw [readRow, getItem]
  dsimp only [Bind.bind, EStateM.bind, get, getThe, MonadStateOf.get, EStateM.get, Pure.pure,
    EStateM.pure]
  rw [hget]
  rfl

theorem readRow_some {value : α} (hget : rows.get? key = some row)
    (hdec : decode row = some value) : readRow decode key rows = .ok (some value) rows := by
  rw [readRow, getItem]
  dsimp only [Bind.bind, EStateM.bind, get, getThe, MonadStateOf.get, EStateM.get, Pure.pure,
    EStateM.pure]
  rw [hget]
  dsimp only
  rw [hdec]
  rfl

theorem readRow_invalid (hget : rows.get? key = some row) (hdec : decode row = none) :
    readRow decode key rows = .error "Stored record is invalid" rows := by
  rw [readRow, getItem]
  dsimp only [Bind.bind, EStateM.bind, get, getThe, MonadStateOf.get, EStateM.get, Pure.pure,
    EStateM.pure]
  rw [hget]
  dsimp only
  rw [hdec]
  rfl

end OneRow

/-- The row with the key that a pointer holds changed. -/
def Row.map {K K' : Type} (onKey : K → K') : Row T K → Row T K'
  | .contact record => .contact record
  | .preKeys keys => .preKeys keys
  | .kyber state => .kyber state
  | .session userId deviceId record => .session userId deviceId record
  | .user record => .user record
  | .senderKeys states => .senderKeys states
  | .pointer recordKey => .pointer (onKey recordKey)
  | .skipped messageKey => .skipped messageKey
  | .message record => .message record
  | .metadata value => .metadata value

def Row.render : Row T StorageKey → Row T KeyText := Row.map StorageKey.text

def Row.PointsToRecord (row : Row T StorageKey) : Prop :=
  ∀ recordKey, row.pointer? = some recordKey → ∃ place, recordKey = .senderKeyRecord place

theorem Row.pointsToRecord_of_none {row : Row T StorageKey} (hrow : row.pointer? = none) :
    row.PointsToRecord := by
  intro recordKey hptr
  rw [hrow] at hptr
  cases hptr

/-- The texts are those of the structured keys. -/
structure Renders (rows : OrderedMap StorageKey (Row T StorageKey))
    (texts : OrderedMap KeyText (Row T KeyText)) : Prop where
  image : OrderedMap.IsImage StorageKey.text Row.render rows texts
  stored : ∀ key ∈ rows.keys, key.Stored
  pointers : ∀ key row, rows.get? key = some row → row.PointsToRecord

theorem Renders.empty :
    Renders (∅ : OrderedMap StorageKey (Row T StorageKey)) (∅ : OrderedMap KeyText _) where
  image := .empty
  stored := by
    intro key hkey
    cases hkey
  pointers := by
    intro key row hrow
    rw [get?_empty] at hrow
    cases hrow

section Renders

variable {rows : OrderedMap StorageKey (Row T StorageKey)}
variable {texts : OrderedMap KeyText (Row T KeyText)} {key : StorageKey}

section

variable (hrender : Renders rows texts)

include hrender

theorem Renders.apart (hkey : key.Stored) : OrderedMap.Apart StorageKey.text rows key :=
  fun other hother heq => StorageKey.text_inj (hrender.stored other hother) hkey heq

theorem Renders.get? (hkey : key.Stored) : texts.get? key.text = (rows.get? key).map Row.render :=
  hrender.image.get? (hrender.apart hkey)

theorem Renders.set (hkey : key.Stored)
    {row : Row T StorageKey} (hrow : row.PointsToRecord) :
    Renders (rows.set key row) (texts.set key.text row.render) where
  image := hrender.image.set (hrender.apart hkey) row
  stored := by
    intro other hother
    rw [mem_keys_set] at hother
    rcases hother with rfl | hother
    · exact hkey
    · exact hrender.stored other hother
  pointers := by
    intro other stored hstored
    rw [get?_set] at hstored
    split at hstored
    · cases hstored
      exact hrow
    · exact hrender.pointers other stored hstored

theorem Renders.filterEntries
    {keep : StorageKey → Row T StorageKey → Bool} {keepText : KeyText → Row T KeyText → Bool}
    (hkeep : ∀ key row, key.Stored → keepText key.text row.render = keep key row) :
    Renders (rows.filterEntries keep) (texts.filterEntries keepText) where
  image := hrender.image.filterEntries fun entry hentry =>
    hkeep entry.1 entry.2 (hrender.stored entry.1 (List.mem_map_of_mem hentry))
  stored := fun key hkey =>
    hrender.stored key ((List.filter_sublist.map Prod.fst).subset hkey)
  pointers := by
    intro key row hrow
    refine hrender.pointers key row ?_
    rw [get?_eq_some_iff] at hrow ⊢
    exact List.mem_of_mem_filter hrow

theorem Renders.erase
    (hapart : OrderedMap.Apart StorageKey.text rows key) :
    Renders (rows.erase key) (texts.erase key.text) where
  image := hrender.image.erase hapart
  stored := fun other hother =>
    hrender.stored other ((List.filter_sublist.map Prod.fst).subset hother)
  pointers := by
    intro other row hrow
    refine hrender.pointers other row ?_
    rw [get?_eq_some_iff] at hrow ⊢
    exact List.mem_of_mem_filter hrow

end

end Renders

abbrev Same (left : StoreM T StorageKey α) (right : StoreM T KeyText α) : Prop :=
  Simulates Renders (· = ·) left right

def IsFound (found : StorageKey → Bool) (key : StorageKey) (text : KeyText) : Prop :=
  text = key.text ∧ key.Stored ∧ found key = true

theorem isFound_iff {found : StorageKey → Bool} {keys : List StorageKey} :
    List.Forall₂ (IsFound found) keys keyTexts ↔
      keyTexts = keys.map StorageKey.text ∧ ∀ key ∈ keys, key.Stored ∧ found key = true := by
  constructor
  · intro hkeys
    induction hkeys with
    | nil => simp
    | cons hhead _ ih =>
      obtain ⟨rfl, hfound⟩ := ih
      obtain ⟨rfl, hhead⟩ := hhead
      exact ⟨rfl, List.forall_mem_cons.mpr ⟨hhead, hfound⟩⟩
  · rintro ⟨rfl, hfound⟩
    rw [List.forall₂_map_right_iff, List.forall₂_same]
    exact fun key hkey => ⟨rfl, hfound key hkey⟩

theorem Same.bind {leftNext : α → StoreM T StorageKey β} {rightNext : α → StoreM T KeyText β}
    (hfst : Same left right) (hnext : ∀ value, Same (leftNext value) (rightNext value)) :
    Same (left >>= leftNext) (right >>= rightNext) := by
  refine Simulates.bind hfst ?_
  rintro value _ rfl
  exact hnext value

theorem Same.map (f : α → β) (hfst : Same left right) : Same (f <$> left) (f <$> right) :=
  Simulates.map hfst fun _ _ => congrArg f

theorem Same.pure (value : α) :
    Same (T := T) (Pure.pure value : StoreM T StorageKey α) (Pure.pure value) :=
  Simulates.pure rfl

theorem Same.foldlM {leftStep : α → β → StoreM T StorageKey α}
    {rightStep : α → β → StoreM T KeyText α}
    (hstep : ∀ value entry, Same (leftStep value entry) (rightStep value entry)) (entries : List β)
    (value : α) : Same (entries.foldlM leftStep value) (entries.foldlM rightStep value) := by
  refine Simulates.foldlM (List.forall₂_same.mpr fun _ _ => rfl) ?_ rfl
  rintro value _ entry _ rfl rfl
  exact hstep value entry

variable {found : StorageKey → Bool} {foundText : KeyText → Bool} {key : StorageKey}

theorem readRow_same {decode : Row T StorageKey → Option α} {decodeText : Row T KeyText → Option α}
    (hdec : ∀ row : Row T StorageKey, decodeText row.render = decode row) (hkey : key.Stored) :
    Same (readRow decode (structuredLayout.key key)) (readRow decodeText (textLayout.key key)) := by
  intro rows texts hrender
  have hget := hrender.get? hkey
  change Agree Renders _ (readRow decode key rows) (readRow decodeText key.text texts)
  cases hrow : rows.get? key with
  | none =>
    rw [hrow] at hget
    rw [readRow_none hrow, readRow_none hget]
    exact .ok rfl hrender
  | some row =>
    rw [hrow] at hget
    cases hval : decode row with
    | none =>
      rw [readRow_invalid hrow hval, readRow_invalid hget ((hdec row).trans hval)]
      exact .error hrender
    | some value =>
      rw [readRow_some hrow hval, readRow_some hget ((hdec row).trans hval)]
      exact .ok rfl hrender

theorem keysWhere_found (hfound : ∀ key, key.Stored → foundText key.text = found key) :
    Simulates (Renders (T := T)) (List.Forall₂ (IsFound found)) (keysWhere found)
      (keysWhere foundText) := by
  intro rows texts hrender
  refine .ok ?_ hrender
  rw [hrender.image.keys, List.filter_map]
  have hsame : rows.keys.filter (foundText ∘ StorageKey.text) = rows.keys.filter found :=
    List.filter_congr fun key hkey => hfound key (hrender.stored key hkey)
  refine isFound_iff.mpr ⟨congrArg _ hsame, ?_⟩
  intro key hkey
  obtain ⟨hmem, hkey⟩ := List.mem_filter.mp hkey
  exact ⟨hrender.stored key hmem, hkey⟩

theorem mapM_found {leftStep : StorageKey → StoreM T StorageKey α}
    {rightStep : KeyText → StoreM T KeyText α} {keys : List StorageKey}
    (hkeys : List.Forall₂ (IsFound found) keys keyTexts)
    (hstep : ∀ key, key.Stored → found key = true → Same (leftStep key) (rightStep key.text)) :
    Same (keys.mapM leftStep) (keyTexts.mapM rightStep) := by
  have hall : Simulates (Renders (T := T)) (List.Forall₂ (· = ·)) (keys.mapM leftStep)
      (keyTexts.mapM rightStep) := by
    refine Simulates.mapM hkeys ?_
    rintro key _ ⟨rfl, hkey, hfound⟩
    exact hstep key hkey hfound
  refine hall.weaken fun values others hvals => ?_
  rwa [List.forall₂_eq_eq_eq] at hvals

theorem setItem_same (key : StorageKey) (hkey : key.Stored) {row : Row T StorageKey}
    (hrow : row.PointsToRecord) :
    Same (setItem (structuredLayout.key key) row) (setItem (textLayout.key key) row.render) :=
  fun _ _ hrender => .ok rfl (hrender.set hkey hrow)

theorem removeItem_same (key : StorageKey) (hkey : key.Stored) :
    Same (T := T) (removeItem (structuredLayout.key key)) (removeItem (textLayout.key key)) :=
  fun _ _ hrender => .ok rfl (hrender.erase (hrender.apart hkey))

theorem removeMany_same {keys : List StorageKey}
    (hkeys : List.Forall₂ (fun key text => text = key.text ∧ key.Stored) keys keyTexts) :
    Same (T := T) (removeMany keys) (removeMany keyTexts) := by
  intro rows texts hrender
  refine .ok rfl ?_
  induction hkeys generalizing rows texts with
  | nil => exact hrender
  | cons hhead _ ih =>
    obtain ⟨rfl, hkey⟩ := hhead
    exact ih _ _ (hrender.erase (hrender.apart hkey))

theorem removeMany_found {keys : List StorageKey}
    (hkeys : List.Forall₂ (IsFound found) keys keyTexts) :
    Same (T := T) (removeMany keys) (removeMany keyTexts) :=
  removeMany_same (hkeys.imp fun _ _ hkey => ⟨hkey.1, hkey.2.1⟩)

theorem byChainIndex_found {groupId senderId : String} {senderDeviceId : ℕ} {keys : List StorageKey}
    (hkeys : List.Forall₂
      (IsFound (structuredLayout.inSkippedSender groupId senderId senderDeviceId)) keys keyTexts) :
    List.Forall₂ (IsFound (structuredLayout.inSkippedSender groupId senderId senderDeviceId))
      (byChainIndex structuredLayout keys) (byChainIndex textLayout keyTexts) := by
  obtain ⟨rfl, hfound⟩ := isFound_iff.mp hkeys
  have hidx : ∀ key ∈ keys, textLayout.chainIndex key.text = structuredLayout.chainIndex key := by
    intro key hkey
    have hskip := (hfound key hkey).2
    cases key
    case skippedSenderKey => exact chainIndex_text _ _ _ _ _
    all_goals cases hskip
  have hsorted : byChainIndex textLayout (keys.map StorageKey.text) =
      (byChainIndex structuredLayout keys).map StorageKey.text := by
    refine (List.map_insertionSort _ _ _ _ ?_).symm
    intro first hfst second hsnd
    rw [hidx first hfst, hidx second hsnd]
  refine isFound_iff.mpr ⟨hsorted, fun key hkey => hfound key ?_⟩
  rwa [byChainIndex, List.mem_insertionSort] at hkey

theorem keysInSkippedSender (groupId senderId : String) (senderDeviceId : ℕ) :
    Simulates (Renders (T := T))
      (List.Forall₂ (IsFound (structuredLayout.inSkippedSender groupId senderId senderDeviceId)))
      (keysWhere (structuredLayout.inSkippedSender groupId senderId senderDeviceId))
      (keysWhere (textLayout.inSkippedSender groupId senderId senderDeviceId)) :=
  keysWhere_found fun _ hkey => inSkippedSender_text groupId senderId senderDeviceId hkey

theorem removeSessionsForUser_same (userId : String) :
    Same (T := T) (removeSessionsForUser structuredLayout userId)
      (removeSessionsForUser textLayout userId) := by
  intro rows texts hrender
  refine .ok rfl (hrender.filterEntries ?_)
  intro key row hkey
  have hrow : row.render.session? = row.session? := by cases row <;> rfl
  rw [isSession_text hkey, hrow]

inductive IsWrite : Write T StorageKey → Write T KeyText → Prop where
  | set {key : StorageKey} {row : Row T StorageKey} (hkey : key.Stored)
      (hrow : row.PointsToRecord) :
      IsWrite (.set (structuredLayout.key key) row) (.set (textLayout.key key) row.render)
  | remove {key : StorageKey} (hkey : key.Stored) :
      IsWrite (.remove (structuredLayout.key key)) (.remove (textLayout.key key))
  | pruneSkippedSenderKeys (groupId senderId : String) (senderDeviceId maxCount : ℕ) :
      IsWrite (.pruneSkippedSenderKeys groupId senderId senderDeviceId maxCount)
        (.pruneSkippedSenderKeys groupId senderId senderDeviceId maxCount)
  | removeSessionsForUser (userId : String) :
      IsWrite (.removeSessionsForUser userId) (.removeSessionsForUser userId)

theorem applyWrite_same {write : Write T StorageKey} {writeText : Write T KeyText}
    (hwrite : IsWrite write writeText) :
    Same (applyWrite structuredLayout write) (applyWrite textLayout writeText) := by
  cases hwrite with
  | set hkey hrow => exact setItem_same _ hkey hrow
  | remove hkey => exact removeItem_same _ hkey
  | pruneSkippedSenderKeys groupId senderId senderDeviceId maxCount =>
    refine bind (keysInSkippedSender groupId senderId senderDeviceId) fun keys keyTexts hkeys => ?_
    rw [hkeys.length_eq]
    exact removeMany_found (List.forall₂_take _ (byChainIndex_found hkeys))
  | removeSessionsForUser userId => exact removeSessionsForUser_same userId

theorem atomicWrite_same {writes : List (Write T StorageKey)} {writeTexts : List (Write T KeyText)}
    (hwrites : List.Forall₂ IsWrite writes writeTexts) :
    Same (atomicWrite structuredLayout writes) (atomicWrite textLayout writeTexts) :=
  (Simulates.forM hwrites fun _ _ hwrite => (applyWrite_same hwrite).weaken fun _ _ _ => trivial).weaken
    fun _ _ _ => rfl

end SignalProtocol.KeyValue
