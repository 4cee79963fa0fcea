import SignalProtocol.KeyValue.Store

/-! # Consumed one-time prekeys

The stored keys are those that the completed calls leave, each call after the other, as long as no
store or removal writes over a value that changed after its read. -/

namespace SignalProtocol.KeyValue

open List

variable {store : OneTimeStore} {kind : PreKeyKind} {identityType : IdentityType}
  {effects before later : List PreKeyEffect}

namespace PreKeyEffect

variable {effect : PreKeyEffect} {keys : Set PreKey} {key : PreKey}

/-- The keys that the effect itself adds or consumes. -/
def Names : PreKeyEffect → PreKey → Prop
  | add prekeys, key => key ∈ prekeys
  | consume keyId, key => key.keyId = keyId

/-- The keys that one call leaves. -/
def after (keys : Set PreKey) : PreKeyEffect → Set PreKey
  | add prekeys => keys ∪ {key | key ∈ prekeys}
  | consume keyId => {key ∈ keys | key.keyId ≠ keyId}

/-- The keys that a list of calls leaves, each one after the other. -/
def kept (keys : Set PreKey) (effects : List PreKeyEffect) : Set PreKey := effects.foldl after keys

theorem mem_apply {existing : List PreKey} :
    key ∈ effect.apply existing ↔ key ∈ effect.after {key | key ∈ existing} := by
  cases effect with
  | add prekeys => simp [apply, after]
  | consume keyId => simp [apply, after]

theorem mem_after_congr {other : Set PreKey}
    (hagree : ¬ effect.Names key → (key ∈ keys ↔ key ∈ other)) :
    key ∈ effect.after keys ↔ key ∈ effect.after other := by
  cases effect with
  | add prekeys =>
    by_cases hnamed : key ∈ prekeys
    · simp [after, hnamed]
    · simp [after, hagree hnamed]
  | consume keyId =>
    by_cases hnamed : key.keyId = keyId
    · simp [after, hnamed]
    · simp [after, hagree hnamed]

theorem mem_kept_of_mem (hkey : key ∈ keys)
    (hconsumed : .consume key.keyId ∉ effects) : key ∈ kept keys effects := by
  induction effects generalizing keys with
  | nil => exact hkey
  | cons effect rest ih =>
    obtain ⟨hfst, hrest⟩ := not_or.mp (mem_cons.not.mp hconsumed)
    refine ih ?_ hrest
    cases effect with
    | add prekeys => exact Or.inl hkey
    | consume keyId => exact ⟨hkey, fun heq => hfst (by rw [heq])⟩

theorem notMem_kept_of_notMem (hkey : key ∉ keys)
    (hadded : ∀ prekeys, .add prekeys ∈ effects → key ∉ prekeys) : key ∉ kept keys effects := by
  induction effects generalizing keys with
  | nil => exact hkey
  | cons effect rest ih =>
    refine ih ?_ fun prekeys hmem => hadded prekeys (mem_cons_of_mem _ hmem)
    cases effect with
    | add prekeys =>
      rintro (hold | hnew)
      · exact hkey hold
      · exact hadded prekeys mem_cons_self hnew
    | consume keyId => exact fun hold => hkey hold.1

theorem mem_kept_of_added {prekeys : List PreKey}
    (hkey : key ∈ prekeys) (hconsumed : .consume key.keyId ∉ later) :
    key ∈ kept keys (before ++ .add prekeys :: later) := by
  rw [kept, foldl_append, foldl_cons]
  exact mem_kept_of_mem (Or.inr hkey) hconsumed

theorem notMem_kept_of_consumed (hadded : ∀ prekeys, .add prekeys ∈ later → key ∉ prekeys) :
    key ∉ kept keys (before ++ .consume key.keyId :: later) := by
  rw [kept, foldl_append, foldl_cons]
  exact notMem_kept_of_notMem (fun hold => hold.2 rfl) hadded

end PreKeyEffect

open PreKeyEffect

/-- What the call read of each of its values still holds, apart from the keys that it names. -/
def ReadsCurrent (store : OneTimeStore) (pending : PendingCall) : Prop :=
  ∀ kind effect, pending.call.effect kind = some effect → ∀ key, ¬ effect.Names key →
    (key ∈ store.readable kind pending.call.identityType ↔ key ∈ openPreKeys (pending.read kind))

theorem OneTimeCall.mem_kinds {call : OneTimeCall} (heffect : (call.effect kind).isSome) :
    kind ∈ call.kinds := by
  refine mem_filter.mpr ⟨?_, heffect⟩
  cases call <;> cases kind <;> simp_all [OneTimeCall.effect]

/-- The checks of a commit make its reads current. -/
theorem readsCurrent_of_isCommit {pending : PendingCall} {others : Bool}
    (hcommit : pending.call.isCommit = true)
    (hsucceeds : pending.succeeds store.values others = true) : ReadsCurrent store pending := by
  intro kind effect heffect key _
  simp only [PendingCall.succeeds, hcommit, Bool.not_true, Bool.false_or, Bool.and_eq_true,
    all_eq_true, decide_eq_true_eq] at hsucceeds
  have hsame := (hsucceeds.2 kind (OneTimeCall.mem_kinds (by rw [heffect]; rfl))).2
  rw [OneTimeStore.readable, hsame]

/-- The readable keys are those that the completed calls leave of the first ones. -/
def Exact (values : PreKeyValues) (store : OneTimeStore) : Prop :=
  ∀ kind identityType key, key ∈ store.readable kind identityType ↔
    key ∈ kept {key | key ∈ openPreKeys (values kind identityType)}
      (store.completed kind identityType)

variable {values : PreKeyValues}

theorem Exact.write {pending : PendingCall} {nonce : PreKeyKind → ℕ} (hexact : Exact values store)
    (hcur : ReadsCurrent store pending) : Exact values (store.write pending nonce) := by
  intro kind identityType key
  by_cases hsame : identityType = pending.call.identityType
  case neg =>
    simpa [OneTimeStore.readable, OneTimeStore.write, hsame] using hexact kind identityType key
  subst hsame
  cases heffect : pending.call.effect kind with
  | none =>
    simpa [OneTimeStore.readable, OneTimeStore.write, PendingCall.sealedValue, heffect] using
      hexact kind _ key
  | some effect =>
    have hreadable : (store.write pending nonce).readable kind pending.call.identityType =
        effect.apply (openPreKeys (pending.read kind)) := by
      simp [OneTimeStore.readable, OneTimeStore.write, PendingCall.sealedValue, heffect,
        openPreKeys]
    have hdone : (store.write pending nonce).completed kind pending.call.identityType =
        store.completed kind pending.call.identityType ++ [effect] := by
      simp [OneTimeStore.write, heffect]
    rw [hreadable, hdone, mem_apply, kept, foldl_append]
    refine mem_after_congr fun hnames => ?_
    exact (hcur kind effect heffect key hnames).symm.trans (hexact kind _ key)

/-- A store or a removal writes while its read is current. -/
def WritesCurrent (store : OneTimeStore) : OneTimeEvent → Prop
  | .finish id _ _ => ∀ pending, store.pending id = some pending → pending.toRead = [] →
      pending.call.isCommit = false → ReadsCurrent store pending
  | _ => True

def RunWritesCurrent : OneTimeStore → List OneTimeEvent → Prop
  | _, [] => True
  | store, event :: events => WritesCurrent store event ∧ RunWritesCurrent (store.step event) events

theorem Exact.step {event : OneTimeEvent} (hexact : Exact values store)
    (hcur : WritesCurrent store event) : Exact values (store.step event) := by
  cases event with
  | start id call =>
    rw [OneTimeStore.step]
    split <;> exact hexact
  | read id =>
    rw [OneTimeStore.step]
    cases store.pending id with
    | none => exact hexact
    | some pending =>
      rw [Option.elim_some, OneTimeStore.readNext]
      split <;> exact hexact
  | finish id nonce others =>
    rw [OneTimeStore.step]
    cases hpend : store.pending id with
    | none => exact hexact
    | some pending =>
      rw [Option.elim_some, OneTimeStore.finish]
      split
      · exact hexact
      · rename_i htoRead
        split
        · rename_i hsucceeds
          refine Exact.write hexact ?_
          by_cases hcommit : pending.call.isCommit = true
          · exact readsCurrent_of_isCommit hcommit hsucceeds
          · exact hcur pending hpend (not_not.mp htoRead) (by simpa using hcommit)
        · exact hexact

theorem Exact.run (events : List OneTimeEvent) (hexact : Exact values store)
    (hcur : RunWritesCurrent store events) : Exact values (store.run events) := by
  induction events generalizing store with
  | nil => exact hexact
  | cons event events ih => exact ih (hexact.step hcur.1) hcur.2

/-- In every run from stored values whose stores and removals write while their reads are current,
an id that a completed call consumed is not readable unless a later store added it, and a key that a
completed store added is readable unless a later call consumed its id. -/
theorem consumed_preKeys_stay_consumed (values : PreKeyValues) (events : List OneTimeEvent)
    (hcurrent : RunWritesCurrent (.opened values) events) (kind : PreKeyKind)
    (identityType : IdentityType) :
    (∀ before keyId later, ((OneTimeStore.opened values).run events).completed kind identityType =
          before ++ .consume keyId :: later →
        (∀ prekeys, .add prekeys ∈ later → ∀ key ∈ prekeys, key.keyId ≠ keyId) →
        ∀ key ∈ ((OneTimeStore.opened values).run events).readable kind identityType,
          key.keyId ≠ keyId) ∧
      (∀ before prekeys later,
        ((OneTimeStore.opened values).run events).completed kind identityType =
          before ++ .add prekeys :: later →
        ∀ key ∈ prekeys, .consume key.keyId ∉ later →
          key ∈ ((OneTimeStore.opened values).run events).readable kind identityType) := by
  have hexact := Exact.run events (fun _ _ _ => Iff.rfl : Exact values (.opened values)) hcurrent
    kind identityType
  constructor
  · rintro before keyId later hcompleted hadded key hreadable rfl
    have hkept := (hexact key).mp hreadable
    rw [hcompleted] at hkept
    exact notMem_kept_of_consumed
      (fun prekeys hlater hkey => hadded prekeys hlater key hkey rfl) hkept
  · intro before prekeys later hcompleted key hkey hconsumed
    refine (hexact key).mpr ?_
    rw [hcompleted]
    exact mem_kept_of_added hkey hconsumed

def firstPreKey : PreKey := ⟨1, none, "first"⟩

def secondPreKey : PreKey := ⟨2, none, "second"⟩

/-- A key is stored and consumed, and then another key is stored. -/
def consumedInTurn : List OneTimeEvent :=
  [.start 0 (.storeEcOneTimePreKeys [firstPreKey] .aci), .read 0, .finish 0 (fun _ => 0) true,
    .start 1 (.commitSessionTrust (some 1) none .aci), .read 1, .finish 1 (fun _ => 1) true,
    .start 2 (.storeEcOneTimePreKeys [secondPreKey] .aci), .read 2, .finish 2 (fun _ => 2) true]

theorem consumedInTurn_current :
    RunWritesCurrent (.opened fun _ _ => none) consumedInTurn := by
  refine ⟨trivial, trivial, ?_, trivial, trivial, ?_, trivial, trivial, ?_, trivial⟩ <;>
    rintro pending hpend - hcommit <;> cases hpend
  · rintro (_ | _ | _ | _) effect heffect key - <;> cases heffect
    exact Iff.rfl
  · cases hcommit
  · rintro (_ | _ | _ | _) effect heffect key - <;> cases heffect
    exact Iff.rfl

theorem consumed_preKeys_stay_consumed_in_turn :
    (∀ key ∈ ((OneTimeStore.opened fun _ _ => none).run consumedInTurn).readable .oneTime .aci,
        key.keyId ≠ 1) ∧
      secondPreKey ∈
        ((OneTimeStore.opened fun _ _ => none).run consumedInTurn).readable .oneTime .aci := by
  have hstays := consumed_preKeys_stay_consumed (fun _ _ => none) consumedInTurn
    consumedInTurn_current .oneTime .aci
  refine ⟨hstays.1 [.add [firstPreKey]] 1 [.add [secondPreKey]] rfl ?_,
    hstays.2 [.add [firstPreKey], .consume 1] [secondPreKey] [] rfl secondPreKey (by decide)
      (by decide)⟩
  intro prekeys hlater key hkey
  obtain rfl : prekeys = [secondPreKey] := by simpa using hlater
  obtain rfl : key = secondPreKey := by simpa using hkey
  decide

/-- A store that read before a commit writes after it, and the consumed key is back. -/
def storeAcrossCommit : List OneTimeEvent :=
  [.start 0 (.storeEcOneTimePreKeys [firstPreKey] .aci), .read 0, .finish 0 (fun _ => 0) true,
    .start 1 (.storeEcOneTimePreKeys [secondPreKey] .aci), .read 1,
    .start 2 (.commitSessionTrust (some 1) none .aci), .read 2, .finish 2 (fun _ => 1) true,
    .finish 1 (fun _ => 2) true]

theorem store_restores_consumed_preKey :
    ((OneTimeStore.opened fun _ _ => none).run storeAcrossCommit).completed .oneTime .aci =
        [.add [firstPreKey]] ++ .consume firstPreKey.keyId :: [.add [secondPreKey]] ∧
      secondPreKey.keyId ≠ firstPreKey.keyId ∧
      firstPreKey ∈
        ((OneTimeStore.opened fun _ _ => none).run storeAcrossCommit).readable .oneTime .aci := by
  decide

end SignalProtocol.KeyValue
