import SignalProtocol.Library.Loops
import SignalProtocol.Platform.KeyedLock

/-! # Operations in call order

A call waits for the last call of its key before it, and the entry of a key is the last call of the
key as long as one of them is not settled. -/

namespace SignalProtocol.KeyedLock

open Function List OrderedMap Option

def LockCall.lock {Owner Key : Type} (call : LockCall Owner Key) : Owner × Key :=
  (call.owner, call.key)

namespace KeyedLocks

variable {Owner Key Value Error : Type}
variable {world after : KeyedLocks Owner Key Value Error} {call other : LockCall Owner Key}
  {owner : Owner} {key : Key} {number first second last promise : ℕ}
  {result : Except Error Value}

variable (world)

abbrev IsCall (number : ℕ) (call : LockCall Owner Key) : Prop := world.calls[number]? = some call

/-- Two calls of one key of one owner, in call order. -/
def Before (first second : ℕ) : Prop :=
  first < second ∧ ∃ call other, world.IsCall first call ∧
    world.IsCall second other ∧ call.lock = other.lock

def Settled (number : ℕ) : Prop := (world.stage number).isSettled = true

variable {world}

theorem not_settled_of_running (hrun : world.stage number = .running) : ¬ world.Settled number := by
  simp [Settled, hrun, Stage.isSettled]

theorem start_stage_of_ne (hne : first ≠ number) :
    (world.start number).stage first = world.stage first := update_of_ne hne _ _

theorem settled_start (hwait : world.stage number = .waiting) :
    (world.start number).Settled first ↔ world.Settled first := by
  unfold Settled
  obtain rfl | hne := eq_or_ne first number
  · simp [KeyedLocks.start, hwait, Stage.isSettled]
  · rw [start_stage_of_ne hne]

variable [DecidableEq Key]

/-- Entries are calls of their map, and the last ones of their key; a call that is not settled has
its map in the collection, and waits for the calls before it. -/
structure Queued (world : KeyedLocks Owner Key Value Error) : Prop where
  held : ∀ owner locks, world.collections owner = some locks →
    ∃ maker, world.calls[locks]? = some maker ∧ maker.owner = owner
  owned : ∀ number call, world.IsCall number call →
    ∃ maker, world.calls[call.locks]? = some maker ∧ maker.owner = call.owner
  entry : ∀ locks key last, (world.maps locks).get? key = some last →
    ∃ call, world.IsCall last call ∧ call.locks = locks ∧ call.key = key
  latest : ∀ number call last, world.IsCall number call →
    (world.maps call.locks).get? call.key = some last → number ≤ last
  pending : ∀ number call, world.IsCall number call → ¬ world.Settled number →
    world.collections call.owner = some call.locks ∧
      ∃ last, (world.maps call.locks).get? call.key = some last
  previous : ∀ number call promise, world.IsCall number call →
    call.previous = some promise → world.Before promise number
  chain : ∀ first second call, world.Before first second → world.IsCall second call →
    ¬ world.Settled first → ∃ promise, call.previous = some promise ∧ first ≤ promise
  order : ∀ first second, world.Before first second → world.stage second ≠ .waiting →
    world.Settled first
  fresh : ∀ number, world.calls.length ≤ number → world.stage number = .waiting

theorem Queued.of_init : Queued ({} : KeyedLocks Owner Key Value Error) where
  held := nofun
  owned := nofun
  entry := nofun
  latest := nofun
  pending := nofun
  previous := nofun
  chain := fun _ _ _ ⟨_, _, _, hcall, _⟩ => nomatch hcall
  order := fun _ _ ⟨_, _, _, hcall, _⟩ => nomatch hcall
  fresh := fun _ _ => rfl

section

variable (hqueued : Queued world)

include hqueued

/-- The calls of one key of a map are calls of one owner. -/
theorem Queued.lock_eq (hfirst : world.IsCall first call)
    (hsecond : world.IsCall second other) (hlocks : call.locks = other.locks)
    (hkey : call.key = other.key) : call.lock = other.lock := by
  obtain ⟨maker, hmaker, howner⟩ := hqueued.owned first call hfirst
  obtain ⟨maker', hmaker', howner'⟩ := hqueued.owned second other hsecond
  rw [hlocks, hmaker'] at hmaker
  cases hmaker
  exact Prod.ext (howner.symm.trans howner') hkey

theorem Queued.locksOf_entry (hlast : (world.maps (world.locksOf owner)).get? key = some last) :
    ∃ call, world.IsCall last call ∧ call.lock = (owner, key) := by
  obtain ⟨call, hcall, hlocks, rfl⟩ := hqueued.entry _ key last hlast
  obtain ⟨maker, hmaker, howner⟩ := hqueued.owned last call hcall
  refine ⟨call, hcall, Prod.ext ?_ rfl⟩
  rw [hlocks, locksOf] at hmaker
  cases hheld : world.collections owner with
  | none =>
    rw [hheld, getD_none, getElem?_eq_none (Nat.le_refl _)] at hmaker
    cases hmaker
  | some locks =>
    obtain ⟨found, hfound, rfl⟩ := hqueued.held owner locks hheld
    rw [hheld, getD_some, hfound] at hmaker
    cases hmaker
    exact howner.symm

end

theorem get?_update_set (maps : ℕ → OrderedMap Key ℕ) (locks otherLocks : ℕ) (otherKey : Key) :
    (update maps locks ((maps locks).set key number) otherLocks).get? otherKey =
      if otherLocks = locks ∧ otherKey = key then some number
      else (maps otherLocks).get? otherKey := by
  obtain rfl | hne := eq_or_ne otherLocks locks
  · simp [get?_set]
  · simp [hne]

theorem get?_released (locks : ℕ) (otherKey : Key) :
    (update world.maps call.locks (world.released number call) locks).get? otherKey =
      if locks = call.locks ∧ otherKey = call.key ∧
        (world.maps call.locks).get? call.key = some number then none
      else (world.maps locks).get? otherKey := by
  unfold released
  obtain rfl | hne := eq_or_ne locks call.locks
  · rw [update_self]
    split
    · next hentry => simp [get?_erase, hentry]
    · next hentry => simp [hentry]
  · simp [hne]

theorem Queued.start (hqueued : Queued world) (hcall : world.IsCall number call)
    (hwait : world.stage number = .waiting)
    (hprevious : ∀ promise, call.previous = some promise → world.Settled promise) :
    Queued (world.start number) :=
  { hqueued with
    pending := fun other call hother hpending =>
      hqueued.pending other call hother (mt (settled_start hwait).mpr hpending)
    chain := fun first second call hbefore hsecond hpending =>
      hqueued.chain first second call hbefore hsecond (mt (settled_start hwait).mpr hpending)
    order := fun first second hbefore hstarted => by
      rw [settled_start hwait]
      obtain rfl | hne := eq_or_ne second number
      · by_contra hpending
        obtain ⟨promise, hpromise, hle⟩ := hqueued.chain first second call hbefore hcall hpending
        have hsettled := hprevious promise hpromise
        obtain rfl | hlt := hle.eq_or_lt
        · exact hpending hsettled
        · obtain ⟨-, earlier, later, hfirst, hsecond, hlock⟩ := hbefore
          obtain ⟨-, middle, later', hmiddle, hsecond', hsame⟩ :=
            hqueued.previous second call promise hcall hpromise
          cases hsecond.symm.trans hsecond'
          refine hpending (hqueued.order first promise
            ⟨hlt, earlier, middle, hfirst, hmiddle, hlock.trans hsame.symm⟩ fun hstage => ?_)
          rw [Settled, hstage] at hsettled
          cases hsettled
      · rw [start_stage_of_ne hne] at hstarted
        exact hqueued.order first second hbefore hstarted
    fresh := fun other hlen => (start_stage_of_ne
      ((List.getElem?_eq_some_iff.mp hcall).1.trans_le hlen).ne').trans (hqueued.fresh other hlen) }

variable [DecidableEq Owner]

/-! ### A new call -/

theorem Queued.maker (hqueued : Queued world) : ∃ maker,
    (world.withKeyedLock owner key).IsCall (world.locksOf owner) maker ∧ maker.owner = owner := by
  cases hheld : world.collections owner with
  | none =>
    rw [withKeyedLock, locksOf, hheld]
    exact ⟨_, getElem?_concat_length, rfl⟩
  | some locks =>
    obtain ⟨maker, hmaker, howner⟩ := hqueued.held owner locks hheld
    rw [locksOf, hheld]
    exact ⟨maker, getElem?_append_of_some hmaker, howner⟩

theorem Before.withKeyedLock (hbefore : world.Before first second) :
    (world.withKeyedLock owner key).Before first second := by
  obtain ⟨hlt, call, other, hfirst, hsecond, hlock⟩ := hbefore
  exact ⟨hlt, call, other, getElem?_append_of_some hfirst, getElem?_append_of_some hsecond, hlock⟩

theorem Before.of_withKeyedLock
    (hbefore : (world.withKeyedLock owner key).Before first second) :
    world.Before first second ∨ second = world.calls.length ∧
      ∃ call, world.IsCall first call ∧ call.lock = (owner, key) := by
  obtain ⟨hlt, call, other, hfirst, hsecond, hlock⟩ := hbefore
  obtain hfirst | ⟨rfl, -⟩ := getElem?_append_singleton hfirst
  · obtain hsecond | ⟨rfl, rfl⟩ := getElem?_append_singleton hsecond
    · exact .inl ⟨hlt, call, other, hfirst, hsecond, hlock⟩
    · exact .inr ⟨rfl, call, hfirst, hlock⟩
  · have hlen := (List.getElem?_eq_some_iff.mp hsecond).1
    rw [KeyedLocks.withKeyedLock, length_append, length_singleton] at hlen
    omega

theorem Queued.withKeyedLock (hqueued : Queued world) :
    Queued (world.withKeyedLock owner key) where
  held other locks hlocks := by
    dsimp only [KeyedLocks.withKeyedLock] at hlocks
    obtain rfl | hne := eq_or_ne other owner
    · rw [update_self] at hlocks
      exact Option.some.inj hlocks ▸ hqueued.maker
    · rw [update_of_ne hne] at hlocks
      obtain ⟨maker, hmaker, howner⟩ := hqueued.held other locks hlocks
      exact ⟨maker, getElem?_append_of_some hmaker, howner⟩
  owned number call hcall := by
    obtain hcall | ⟨-, rfl⟩ := getElem?_append_singleton hcall
    · obtain ⟨maker, hmaker, howner⟩ := hqueued.owned number call hcall
      exact ⟨maker, getElem?_append_of_some hmaker, howner⟩
    · exact hqueued.maker
  entry locks otherKey last hlast := by
    rw [KeyedLocks.withKeyedLock, get?_update_set] at hlast
    split at hlast
    · next heq =>
      cases hlast
      exact ⟨_, getElem?_concat_length, heq.1.symm, heq.2.symm⟩
    · obtain ⟨call, hcall, hsame⟩ := hqueued.entry locks otherKey last hlast
      exact ⟨call, getElem?_append_of_some hcall, hsame⟩
  latest number call last hcall hlast := by
    rw [KeyedLocks.withKeyedLock, get?_update_set] at hlast
    obtain hcall | ⟨rfl, rfl⟩ := getElem?_append_singleton hcall
    · split at hlast
      · cases hlast
        exact (List.getElem?_eq_some_iff.mp hcall).1.le
      · exact hqueued.latest number call last hcall hlast
    · rw [if_pos ⟨rfl, rfl⟩] at hlast
      exact (Option.some.inj hlast).le
  pending number call hcall hpending := by
    dsimp only [KeyedLocks.withKeyedLock]
    rw [get?_update_set]
    obtain hcall | ⟨-, rfl⟩ := getElem?_append_singleton hcall
    · obtain ⟨hheld, last, hlast⟩ := hqueued.pending number call hcall hpending
      constructor
      · obtain rfl | hne := eq_or_ne call.owner owner
        · rw [update_self, locksOf, hheld, getD_some]
        · rw [update_of_ne hne, hheld]
      · split
        · exact ⟨_, rfl⟩
        · exact ⟨last, hlast⟩
    · exact ⟨update_self .., _, if_pos ⟨rfl, rfl⟩⟩
  previous number call promise hcall hprevious := by
    obtain hcall | ⟨rfl, rfl⟩ := getElem?_append_singleton hcall
    · exact (hqueued.previous number call promise hcall hprevious).withKeyedLock
    · obtain ⟨other, hother, hlock⟩ := hqueued.locksOf_entry hprevious
      exact ⟨(List.getElem?_eq_some_iff.mp hother).1, other, _, getElem?_append_of_some hother,
        getElem?_concat_length, hlock⟩
  chain first second call hbefore hcall hpending := by
    have hnone : world.calls[world.calls.length]? = none := getElem?_eq_none (Nat.le_refl _)
    obtain hold | ⟨rfl, other, hother, hlock⟩ := hbefore.of_withKeyedLock
    · obtain hcall | ⟨rfl, -⟩ := getElem?_append_singleton hcall
      · exact hqueued.chain first second call hold hcall hpending
      · obtain ⟨-, -, other, -, hother, -⟩ := hold
        cases hnone.symm.trans hother
    · obtain hcall | ⟨-, rfl⟩ := getElem?_append_singleton hcall
      · cases hnone.symm.trans hcall
      · obtain ⟨hheld, last, hlast⟩ := hqueued.pending first other hother hpending
        obtain ⟨rfl, rfl⟩ := Prod.mk.inj hlock
        refine ⟨last, ?_, hqueued.latest first other last hother hlast⟩
        rwa [locksOf, hheld]
  order first second hbefore hstarted := by
    obtain hold | ⟨rfl, -⟩ := hbefore.of_withKeyedLock
    · exact hqueued.order first second hold hstarted
    · exact absurd (hqueued.fresh _ (Nat.le_refl _)) hstarted
  fresh number hlen := by
    rw [KeyedLocks.withKeyedLock, length_append] at hlen
    exact hqueued.fresh number (Nat.le_trans (Nat.le_add_right _ _) hlen)

/-! ### The end of a call -/

theorem settle_stage_of_ne (hne : first ≠ number) :
    (world.settle number call result).stage first = world.stage first := update_of_ne hne _ _

theorem settled_settle :
    (world.settle number call result).Settled first ↔ first = number ∨ world.Settled first := by
  unfold Settled
  obtain rfl | hne := eq_or_ne first number
  · simp [KeyedLocks.settle, Stage.isSettled]
  · simp [settle_stage_of_ne hne, hne]

section

variable (hqueued : Queued world) (hcall : world.IsCall number call)
  (hrun : world.stage number = .running)

include hqueued hcall hrun

/-- The end of a call deletes no entry that another call waits behind. -/
theorem Queued.entry_settle (hother : world.IsCall first other)
    (hpending : ¬ (world.settle number call result).Settled first) :
    ∃ last, ((world.settle number call result).maps other.locks).get? other.key = some last := by
  rw [settled_settle, not_or] at hpending
  obtain ⟨-, last, hlast⟩ := hqueued.pending first other hother hpending.2
  refine ⟨last, ?_⟩
  rw [KeyedLocks.settle, get?_released, if_neg]
  · exact hlast
  · rintro ⟨hlocks, hkey, hentry⟩
    rw [← hlocks, ← hkey] at hentry
    have hle := hqueued.latest first other number hother hentry
    have hbefore : world.Before first number := ⟨lt_of_le_of_ne hle hpending.1, other, call, hother,
      hcall, hqueued.lock_eq hother hcall hlocks hkey⟩
    exact hpending.2 (hqueued.order first number hbefore (by simp [hrun]))

theorem Queued.settle : Queued (world.settle number call result) :=
  { hqueued with
    held := fun owner locks hlocks => by
      refine hqueued.held owner locks ?_
      unfold KeyedLocks.settle at hlocks
      dsimp only at hlocks
      split at hlocks
      · obtain rfl | hne := eq_or_ne owner call.owner
        · rw [update_self] at hlocks
          cases hlocks
        · rwa [update_of_ne hne] at hlocks
      · exact hlocks
    entry := fun locks otherKey last hlast => by
      rw [KeyedLocks.settle, get?_released] at hlast
      exact hqueued.entry locks otherKey last (ite_none_left_eq_some.mp hlast).2
    latest := fun first other last hother hlast => by
      rw [KeyedLocks.settle, get?_released] at hlast
      exact hqueued.latest first other last hother (ite_none_left_eq_some.mp hlast).2
    pending := fun first other hother hpending => by
      obtain ⟨last, hlast⟩ := hqueued.entry_settle hcall hrun hother hpending
      refine ⟨?_, last, hlast⟩
      have hheld := (hqueued.pending first other hother
        (not_or.mp (mt settled_settle.mpr hpending)).2).1
      unfold KeyedLocks.settle
      dsimp only
      split
      · next hsize =>
        rw [update_of_ne]
        · exact hheld
        · intro howner
          have hsame := (hqueued.pending number call hcall (not_settled_of_running hrun)).1
          rw [← howner, hheld] at hsame
          dsimp only [KeyedLocks.settle] at hlast
          rw [Option.some.inj hsame, update_self, eq_empty_of_size hsize] at hlast
          cases hlast
      · exact hheld
    chain := fun first second other hbefore hsecond hpending =>
      hqueued.chain first second other hbefore hsecond
        (not_or.mp (mt settled_settle.mpr hpending)).2
    order := fun first second hbefore hstarted => by
      refine settled_settle.mpr (.inr (hqueued.order first second hbefore fun hwait => hstarted ?_))
      have hne : second ≠ number := by
        rintro rfl
        rw [hrun] at hwait
        cases hwait
      rwa [settle_stage_of_ne hne]
    fresh := fun other hlen => (settle_stage_of_ne
      ((List.getElem?_eq_some_iff.mp hcall).1.trans_le hlen).ne').trans (hqueued.fresh other hlen) }

end

/-! ### Runs -/

theorem next_start_eq_some (hnext : world.next (.start number) = some after) :
    ∃ call, world.IsCall number call ∧ world.stage number = .waiting ∧
      (∀ promise, call.previous = some promise → world.Settled promise) ∧
      after = world.start number := by
  simp only [next] at hnext
  split at hnext
  · next call hcall hwait =>
    obtain ⟨hprevious, hafter⟩ := ite_none_right_eq_some.mp hnext
    refine ⟨call, hcall, hwait, fun promise hpromise => ?_, (Option.some.inj hafter).symm⟩
    rwa [hpromise] at hprevious
  · cases hnext

theorem next_settle_eq_some (hnext : world.next (.settle number result) = some after) :
    ∃ call, world.IsCall number call ∧ world.stage number = .running ∧
      after = world.settle number call result := by
  simp only [next] at hnext
  split at hnext
  · next call hcall hrun => exact ⟨call, hcall, hrun, (Option.some.inj hnext).symm⟩
  · cases hnext

variable {event : LockEvent Owner Key Value Error} {events : List (LockEvent Owner Key Value Error)}

theorem Queued.next (hqueued : Queued world) (hnext : world.next event = some after) :
    Queued after := by
  cases event with
  | call owner key =>
    cases hnext
    exact hqueued.withKeyedLock
  | start number =>
    obtain ⟨call, hcall, hwait, hprevious, rfl⟩ := next_start_eq_some hnext
    exact hqueued.start hcall hwait hprevious
  | settle number result =>
    obtain ⟨call, hcall, hrun, rfl⟩ := next_settle_eq_some hnext
    exact hqueued.settle hcall hrun

theorem stage_next (hnext : world.next event = some after) :
    after.stage number = .settled result ↔
      world.stage number = .settled result ∨ event = .settle number result := by
  cases event with
  | call owner key =>
    cases hnext
    simp [withKeyedLock]
  | start started =>
    obtain ⟨-, -, hwait, -, rfl⟩ := next_start_eq_some hnext
    obtain rfl | hne := eq_or_ne number started
    · simp [KeyedLocks.start, hwait]
    · simp [start_stage_of_ne hne]
  | settle ended answer =>
    obtain ⟨-, -, hrun, rfl⟩ := next_settle_eq_some hnext
    obtain rfl | hne := eq_or_ne number ended
    · simp [KeyedLocks.settle, hrun]
    · simp [settle_stage_of_ne hne, hne.symm]

/-- The operations of a key run one at a time and in call order; a call can start once the calls
before it are settled, however they ended, and ends as its own operation does; and a key keeps its
entry while one of its calls is not settled. -/
structure Serialized (events : List (LockEvent Owner Key Value Error))
    (world : KeyedLocks Owner Key Value Error) : Prop where
  exclusive : ∀ first second call other, world.IsCall first call →
    world.IsCall second other → call.lock = other.lock →
    world.stage first = .running → world.stage second = .running → first = second
  ordered : ∀ first second, world.Before first second → world.stage second ≠ .waiting →
    world.Settled first
  released : ∀ number call, world.IsCall number call → world.stage number = .waiting →
    (∀ first, world.Before first number → world.Settled first) →
    world.next (.start number) = some (world.start number)
  own : ∀ number result, world.stage number = .settled result ↔ .settle number result ∈ events
  kept : ∀ number call, world.IsCall number call → ¬ world.Settled number →
    ∃ locks last, world.collections call.owner = some locks ∧
      (world.maps locks).get? call.key = some last

theorem Queued.serialized (hqueued : Queued world)
    (hown : ∀ number result, world.stage number = .settled result ↔ .settle number result ∈ events) :
    Serialized events world where
  exclusive first second call other hcall hother hlock hfirst hsecond := by
    have hstarted {number : ℕ} (hrun : world.stage number = .running) :
        world.stage number ≠ .waiting := by simp [hrun]
    obtain hlt | heq | hlt := Nat.lt_trichotomy first second
    · exact absurd (hqueued.order first second ⟨hlt, call, other, hcall, hother, hlock⟩
        (hstarted hsecond)) (not_settled_of_running hfirst)
    · exact heq
    · exact absurd (hqueued.order second first ⟨hlt, other, call, hother, hcall, hlock.symm⟩
        (hstarted hfirst)) (not_settled_of_running hsecond)
  ordered := hqueued.order
  released number call hcall hwait hsettled := by
    have hprevious : (call.previous.all fun promise => (world.stage promise).isSettled) = true := by
      cases hpromise : call.previous with
      | none => rfl
      | some promise => exact hsettled promise (hqueued.previous number call promise hcall hpromise)
    simp only [KeyedLocks.next]
    rw [hcall, hwait]
    exact if_pos hprevious
  own := hown
  kept number call hcall hpending := by
    obtain ⟨hheld, last, hlast⟩ := hqueued.pending number call hcall hpending
    exact ⟨call.locks, last, hheld, hlast⟩

theorem withKeyedLock_serialized (hrun : events.foldlM next {} = some world) :
    Serialized events world := by
  have hboth : Queued world ∧ ∀ number result,
      world.stage number = .settled result ↔ .settle number result ∈ events := by
    induction events using List.reverseRecOn generalizing world with
    | nil =>
      cases hrun
      exact ⟨.of_init, fun number result => by simp⟩
    | append_singleton events event ih =>
      rw [foldlM_append] at hrun
      obtain ⟨before, hbefore, hlast⟩ := bind_eq_some_iff.mp hrun
      obtain ⟨hqueued, hown⟩ := ih hbefore
      have hnext : before.next event = some world := by simpa using hlast
      refine ⟨hqueued.next hnext, fun number result => ?_⟩
      rw [stage_next hnext, hown, mem_append, mem_singleton, eq_comm (a := event)]
  exact hboth.1.serialized hboth.2

theorem withKeyedLock_serialized_after_error : ∃ world : KeyedLocks ℕ ℕ ℕ ℕ,
    world.stage 1 = .running ∧ Serialized
      [.call 0 0, .call 0 0, .start 0, .settle 0 (.error 0), .start 1] world :=
  ⟨_, rfl, withKeyedLock_serialized rfl⟩

end KeyedLocks

end SignalProtocol.KeyedLock
