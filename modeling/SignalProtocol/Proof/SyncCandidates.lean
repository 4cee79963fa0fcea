import SignalProtocol.Hosted.PreKeyPublication

/-! # Publication candidates

Where no pending key is fetched or removed, every sync finds the private keys of its uploads. -/

namespace SignalProtocol.Hosted.CandidateWorld

open List

variable {world : CandidateWorld} {key : PreKeyUpload} {event : CandidateEvent}
  {events : List CandidateEvent} {input : SyncInput} {type : PreKeyUploadType}
  (inputs : List SyncInput)

/-- A key that a run is going to upload. -/
def Pending (world : CandidateWorld) (key : PreKeyUpload) : Prop :=
  ∃ id run, world.runs id = some run ∧ key ∈ run.pending

/-- A key with its private key that no peer has fetched. -/
def Fresh (world : CandidateWorld) (key : PreKeyUpload) : Prop :=
  key ∈ world.retained ∧ key ∉ world.fetched

def FreshCandidate (world : CandidateWorld) : Prop :=
  ∀ uploads, world.candidate = some uploads → ∀ key ∈ uploads, world.Fresh key

/-- A write of these keys of a type removes no pending key. -/
def KeepsPending (world : CandidateWorld) (type : PreKeyUploadType) (keys : List PreKeyUpload) :
    Prop :=
  ∀ key, world.Pending key → key.type = type → key ∈ keys

/-- A refill generates keys that no peer has, and a run loads a candidate of fresh keys only. No
peer fetches a pending key, and no write and no commit removes one. -/
def Quiet (world : CandidateWorld) : CandidateEvent → Prop
  | .next id input => (∀ key ∈ input.batch, key ∉ world.fetched) ∧
      (∀ inSync, world.runs id = some (.counted inSync) → world.FreshCandidate) ∧
      ∀ type uploads existing, world.runs id = some (.storing type uploads existing) →
        world.KeepsPending type existing
  | .fetch key => ¬ world.Pending key
  | .commit key => ∀ other, world.Pending other → other.type ≠ key.type ∨ other.keyId ≠ key.keyId
  | .write type keys => world.KeepsPending type keys
  | _ => True

def RunQuiet : CandidateWorld → List CandidateEvent → Prop
  | _, [] => True
  | world, event :: events => world.Quiet event ∧ RunQuiet (world.step event) events

/-- The KEM list that a run has read holds its uploads. -/
def Read : SyncRun → Prop
  | .matching uploads kem => ∀ key ∈ uploads, key ∈ kem
  | _ => True

structure Sound (world : CandidateWorld) : Prop where
  pending : ∀ key, world.Pending key → world.Fresh key
  read : ∀ id run, world.runs id = some run → Read run
  relay : ∀ key ∈ world.relay, key ∉ world.fetched
  consumed : ∀ key ∈ world.consumed, key ∈ world.fetched
  unmatched : world.unmatched = []
  stored : world.candidate ≠ some []

@[simp]
theorem pending_refillNext (type : PreKeyUploadType) (uploads : List PreKeyUpload) :
    (SyncRun.refillNext type uploads).pending = uploads := by
  rw [SyncRun.refillNext]
  split <;> rfl

theorem read_refillNext (type : PreKeyUploadType) (uploads : List PreKeyUpload) :
    Read (.refillNext type uploads) := by
  rw [SyncRun.refillNext]
  split <;> trivial

theorem runs_setRun (id : ℕ) (run : Option SyncRun) :
    (world.setRun id run).runs = Function.update world.runs id run := rfl

/-- A run goes on with fresh keys. -/
theorem Sound.setRun {id : ℕ} {run : SyncRun} (hsound : world.Sound) (hread : Read run)
    (hpend : ∀ key ∈ run.pending, world.Fresh key) : (world.setRun id (some run)).Sound := by
  refine { hsound with pending := ?_, read := ?_ }
  · rintro key ⟨other, after, hafter, hkey⟩
    rw [runs_setRun, Function.update_apply] at hafter
    split at hafter
    · cases hafter
      exact hpend key hkey
    · exact hsound.pending key ⟨other, after, hafter, hkey⟩
  · intro other after hafter
    rw [runs_setRun, Function.update_apply] at hafter
    split at hafter
    · cases hafter
      exact hread
    · exact hsound.read other after hafter

theorem Sound.endRun {id : ℕ} (hsound : world.Sound) : (world.setRun id none).Sound := by
  have hruns : ∀ {other run}, (world.setRun id none).runs other = some run →
      world.runs other = some run := by
    intro other run hrun
    rw [runs_setRun, Function.update_apply] at hrun
    split at hrun
    · cases hrun
    · exact hrun
  exact { hsound with
    pending := fun key ⟨other, run, hrun, hkey⟩ =>
      hsound.pending key ⟨other, run, hruns hrun, hkey⟩
    read := fun other run hrun => hsound.read other run (hruns hrun) }

theorem Sound.setKeys {keys : List PreKeyUpload} (hsound : world.Sound)
    (hkeeps : world.KeepsPending type keys) : (world.setKeys type keys).Sound := by
  refine { hsound with pending := fun key hkey => ?_ }
  obtain ⟨hretain, hfetched⟩ := hsound.pending key hkey
  refine ⟨mem_append.mpr ?_, hfetched⟩
  by_cases htype : key.type = type
  · exact .inr (hkeeps key hkey htype)
  · exact .inl (mem_filter.mpr ⟨hretain, decide_eq_true htype⟩)

theorem hasPrivateKeys_of_mem {uploads ec kem : List PreKeyUpload}
    (hec : ∀ key ∈ uploads, key ∈ ec) (hkem : ∀ key ∈ uploads, key ∈ kem) :
    hasPrivateKeys uploads ec kem = true := by
  refine all_eq_true.mpr fun key hkey => decide_eq_true ?_
  split
  · exact hec key hkey
  · exact hkem key hkey

theorem Sound.advance {id : ℕ} {run : SyncRun} (hsound : world.Sound)
    (hrun : world.runs id = some run) (hquiet : world.Quiet (.next id input)) :
    (world.advance id input run).Sound := by
  obtain ⟨hbatch, hload, hkeeps⟩ := hquiet
  have hpend : ∀ key ∈ run.pending, world.Fresh key :=
    fun key hkey => hsound.pending key ⟨id, run, hrun, hkey⟩
  cases run with
  | started => exact hsound.setRun trivial nofun
  | counted inSync =>
    rw [CandidateWorld.advance]
    cases hcand : world.candidate with
    | some uploads => exact hsound.setRun trivial (hload inSync hrun uploads hcand)
    | none =>
      cases inSync with
      | true =>
        have hended : (world.setRun id none).Sound := hsound.endRun
        exact { hended with }
      | false => exact hsound.setRun trivial nofun
  | refilling type uploads =>
    rw [CandidateWorld.advance]
    split
    · exact hsound.setRun trivial hpend
    · refine hsound.setRun (read_refillNext type uploads) ?_
      rw [pending_refillNext]
      exact hpend
  | storing type uploads existing =>
    have hkept : world.KeepsPending type (existing ++ input.batch) := fun key hkey htype =>
      mem_append_left _ (hkeeps type uploads existing hrun key hkey htype)
    have hstored := hsound.setKeys hkept
    refine hstored.setRun (read_refillNext type _) fun key hkey => ?_
    rw [pending_refillNext] at hkey
    rcases mem_append.mp hkey with hold | hnew
    · exact hstored.pending key ⟨id, _, hrun, hold⟩
    · exact ⟨mem_append_right _ (mem_append_right _ hnew), hbatch key hnew⟩
  | refilled uploads =>
    rw [CandidateWorld.advance]
    split
    · exact hsound.setRun trivial nofun
    · rename_i hsome
      have hnext : (world.setRun id (some (.checking uploads))).Sound :=
        hsound.setRun trivial hpend
      exact { hnext with stored := fun hnil => hsome (Option.some.inj hnil) }
  | checking uploads => exact hsound.setRun (fun key hkey => (hpend key hkey).1) hpend
  | matching uploads kem =>
    have hmatched : hasPrivateKeys uploads world.retained kem = true :=
      hasPrivateKeys_of_mem (fun key hkey => (hpend key hkey).1) (hsound.read id _ hrun)
    rw [CandidateWorld.advance, if_pos hmatched]
    exact hsound.setRun trivial hpend
  | uploading uploads =>
    have hnext : (world.setRun id (some (.uploaded uploads))).Sound := hsound.setRun trivial nofun
    refine { hnext with relay := fun key hkey => ?_ }
    rcases mem_append.mp hkey with hold | hnew
    · exact hsound.relay key (mem_of_mem_filter hold)
    · exact (hpend key hnew).2
  | uploaded uploads =>
    have hnext : (world.setRun id none).Sound := hsound.endRun
    refine { hnext with stored := ?_ }
    simp only [CandidateWorld.advance]
    split
    · exact hsound.stored
    · nofun

theorem Sound.step (hsound : world.Sound) (hquiet : world.Quiet event) :
    (world.step event).Sound := by
  cases event with
  | start id =>
    rw [CandidateWorld.step]
    split
    · exact hsound.setRun trivial nofun
    · exact hsound
  | next id input =>
    rw [CandidateWorld.step]
    cases hrun : world.runs id with
    | none => exact hsound
    | some run => exact hsound.advance hrun hquiet
  | stop id => exact hsound.endRun
  | fetch key =>
    rw [CandidateWorld.step]
    split
    · refine { hsound with
        pending := fun other hother => ⟨(hsound.pending other hother).1, ?_⟩
        relay := fun other hother => ?_
        consumed := fun other hother => mem_cons_of_mem _ (hsound.consumed other hother) }
      · rintro (_ | ⟨_, hold⟩)
        · exact hquiet hother
        · exact (hsound.pending other hother).2 hold
      · obtain ⟨hold, hne⟩ := mem_filter.mp hother
        rintro (_ | ⟨_, hfetched⟩)
        · simp at hne
        · exact hsound.relay other hold hfetched
    · exact hsound
  | commit key =>
    rw [CandidateWorld.step]
    split
    · rename_i hcommit
      refine { hsound with pending := fun other hother => ?_, consumed := ?_ }
      · obtain ⟨hretain, hfetched⟩ := hsound.pending other hother
        exact ⟨mem_filter.mpr ⟨hretain, decide_eq_true (hquiet other hother)⟩, hfetched⟩
      · rintro other (_ | ⟨_, hold⟩)
        · exact hcommit.1
        · exact hsound.consumed other hold
    · exact hsound
  | write type keys => exact hsound.setKeys hquiet

theorem Sound.run (hsound : world.Sound) (hquiet : world.RunQuiet events) :
    (world.run events).Sound := by
  induction events generalizing world with
  | nil => exact hsound
  | cons event events ih => exact ih (hsound.step hquiet.1) hquiet.2

/-! ## A later run -/

/-- A run has completed, and no candidate is stored. -/
def Settled (world : CandidateWorld) (id : ℕ) : Prop :=
  world.runs id = none ∧ world.candidate = none ∧ id ∈ world.completed

/-- The steps to the end of a run, at most. -/
def rank : SyncRun → ℕ
  | .started => 11
  | .counted _ => 10
  | .refilling type _ => if type = .ecPreKey then 9 else 7
  | .storing type _ _ => if type = .ecPreKey then 8 else 6
  | .refilled _ => 5
  | .checking _ => 4
  | .matching _ _ => 3
  | .uploading _ => 2
  | .uploaded _ => 1

/-- A run loads fresh keys, writes back the list that is stored, and with no uploads after its load
no candidate is stored. -/
def Clean (world : CandidateWorld) : SyncRun → Prop
  | .started => world.FreshCandidate
  | .counted _ => world.FreshCandidate
  | .storing type _ existing =>
    world.candidate = none ∧ existing = world.retained.filter (·.type = type)
  | .refilling _ _ => world.candidate = none
  | .refilled _ => world.candidate = none
  | run => run.uploads = [] → world.candidate = none

variable {id : ℕ}

theorem clean_refillNext (uploads : List PreKeyUpload)
    (hnone : world.candidate = none) : world.Clean (.refillNext type uploads) := by
  rw [SyncRun.refillNext]
  split <;> exact hnone

theorem rank_refillNext (type : PreKeyUploadType) (uploads existing : List PreKeyUpload) :
    rank (.refillNext type uploads) < rank (.storing type uploads existing) := by
  rw [SyncRun.refillNext]
  split <;> simp [rank, *]

theorem Clean.quiet {run : SyncRun} (hclean : world.Clean run)
    (hsound : world.Sound) (hrun : world.runs id = some run)
    (hbatch : ∀ key ∈ input.batch, key ∉ world.fetched) : world.Quiet (.next id input) := by
  refine ⟨hbatch, fun inSync heq => ?_, fun type uploads existing heq key hkey htype => ?_⟩
  · cases hrun.symm.trans heq
    exact hclean
  · cases hrun.symm.trans heq
    obtain ⟨-, rfl⟩ := hclean
    exact mem_filter.mpr ⟨(hsound.pending key hkey).1, decide_eq_true htype⟩

/-- A step of a run ends it or takes it nearer to its end. -/
theorem advance_settles {run : SyncRun} (hsound : world.Sound)
    (hrun : world.runs id = some run) (hclean : world.Clean run) :
    (world.advance id input run).Settled id ∨ ∃ after,
      (world.advance id input run).runs id = some after ∧
      (world.advance id input run).Clean after ∧ rank after < rank run := by
  have hself : ∀ next : Option SyncRun, Function.update world.runs id next id = next :=
    fun next => Function.update_self ..
  cases run with
  | started => exact .inr ⟨_, hself _, hclean, Nat.lt_succ_self 10⟩
  | counted inSync =>
    rw [advance]
    cases hcand : world.candidate with
    | some uploads =>
      refine .inr ⟨_, hself _, fun hnil => ?_, by simp [rank]⟩
      exact absurd (hnil ▸ hcand) hsound.stored
    | none =>
      cases inSync with
      | true => exact .inl ⟨hself _, hcand, mem_cons_self⟩
      | false => exact .inr ⟨_, hself _, hcand, by simp [rank]⟩
  | refilling type uploads =>
    rw [advance]
    have hstoring : rank (.storing type uploads []) < rank (.refilling type uploads) := by
      simp only [rank]
      split <;> omega
    split
    · exact .inr ⟨_, hself _, ⟨hclean, rfl⟩, hstoring⟩
    · exact .inr ⟨_, hself _, clean_refillNext uploads hclean,
        (rank_refillNext type uploads []).trans hstoring⟩
  | storing type uploads existing =>
    exact .inr ⟨_, hself _, clean_refillNext _ hclean.1,
      rank_refillNext type (uploads ++ input.batch) existing⟩
  | refilled uploads =>
    rw [advance]
    split
    · exact .inr ⟨_, hself _, fun _ => hclean, by simp [rank]⟩
    · rename_i hsome
      exact .inr ⟨_, hself _, fun hnil => absurd hnil hsome, Nat.lt_succ_self 4⟩
  | checking uploads => exact .inr ⟨_, hself _, hclean, Nat.lt_succ_self 3⟩
  | matching uploads kem =>
    have hmatched : hasPrivateKeys uploads world.retained kem = true :=
      hasPrivateKeys_of_mem (fun key hkey => (hsound.pending key ⟨id, _, hrun, hkey⟩).1)
        (hsound.read id _ hrun)
    rw [advance, if_pos hmatched]
    exact .inr ⟨_, hself _, hclean, Nat.lt_succ_self 2⟩
  | uploading uploads => exact .inr ⟨_, hself _, hclean, Nat.lt_succ_self 1⟩
  | uploaded uploads =>
    refine .inl ⟨hself _, ?_, mem_cons_self⟩
    rw [advance]
    by_cases hnil : uploads = []
    · exact (if_pos hnil).trans (hclean hnil)
    · exact if_neg hnil

theorem run_ended (hnone : world.runs id = none) : world.run (inputs.map (.next id)) = world := by
  induction inputs with
  | nil => rfl
  | cons input inputs ih =>
    rw [map_cons, run, foldl_cons, step, hnone]
    exact ih

theorem fetched_advance (id : ℕ) (input : SyncInput) (run : SyncRun) :
    (world.advance id input run).fetched = world.fetched := by
  cases run <;> simp only [advance] <;> (repeat' split) <;> rfl

theorem Sound.settles {run : SyncRun} (hsound : world.Sound)
    (hrun : world.runs id = some run) (hclean : world.Clean run)
    (hfresh : ∀ input ∈ inputs, ∀ key ∈ input.batch, key ∉ world.fetched)
    (henough : rank run ≤ inputs.length) : (world.run (inputs.map (.next id))).Settled id := by
  induction inputs generalizing world run with
  | nil =>
    have hpos : 0 < rank run := by cases run <;> simp only [rank] <;> (try split) <;> omega
    exact absurd henough (Nat.not_le_of_lt hpos)
  | cons input inputs ih =>
    have hnext := hsound.advance hrun
      (hclean.quiet hsound hrun (hfresh input mem_cons_self))
    have hstep : world.step (.next id input) = world.advance id input run := by
      rw [CandidateWorld.step, hrun, Option.elim_some]
    rw [map_cons, CandidateWorld.run, foldl_cons, hstep]
    rcases advance_settles hsound hrun hclean with hsettled | ⟨after, hafter, hcleans, hrank⟩
    · have hended := run_ended inputs hsettled.1
      rw [CandidateWorld.run] at hended
      rwa [hended]
    · refine ih hnext hafter hcleans (fun other hother key hkey => ?_) ?_
      · rw [fetched_advance]
        exact hfresh other (mem_cons_of_mem _ hother) key hkey
      · rw [length_cons] at henough
        omega

theorem Sound.initial (retained relay : List PreKeyUpload) : Sound { retained, relay } where
  pending := by rintro key ⟨_, _, ⟨⟩, _⟩
  read := by rintro _ _ ⟨⟩
  relay _ _ := not_mem_nil
  consumed := nofun
  unmatched := rfl
  stored := nofun

/-- In every quiet run no sync misses a private key and the Relay has no consumed key, and a later
sync that the Relay answers completes and leaves no candidate. -/
theorem pending_publication_never_blocks (retained relay : List PreKeyUpload)
    (events : List CandidateEvent) (hquiet : RunQuiet { retained, relay } events) :
    (run { retained, relay } events).unmatched = [] ∧
      (∀ key ∈ (run { retained, relay } events).relay,
        key ∉ (run { retained, relay } events).consumed) ∧
      ∀ (id : ℕ) (inputs : List SyncInput), (run { retained, relay } events).runs id = none →
        (run { retained, relay } events).FreshCandidate →
        (∀ input ∈ inputs, ∀ key ∈ input.batch, key ∉ (run { retained, relay } events).fetched) →
        11 ≤ inputs.length →
        ((run { retained, relay } events).run (.start id :: inputs.map (.next id))).Settled id := by
  have hreached := (Sound.initial retained relay).run hquiet
  refine ⟨hreached.unmatched, fun key hkey hconsumed => ?_, ?_⟩
  · exact hreached.relay key hkey (hreached.consumed key hconsumed)
  · intro id inputs hnone hload hfresh henough
    have hstarted : (run { retained, relay } events).step (.start id) =
        (run { retained, relay } events).setRun id (some .started) := if_pos (by rw [hnone]; rfl)
    have hnext : (CandidateWorld.setRun _ id (some .started)).Sound := hreached.setRun trivial nofun
    rw [CandidateWorld.run, foldl_cons, hstarted]
    exact hnext.settles inputs (Function.update_self ..) hload hfresh henough

def oneTimeKey : PreKeyUpload := ⟨.ecPreKey, 0, [], none⟩

/-- A run that stores its candidate. -/
def storedCandidate : List CandidateEvent :=
  [.start 0, .next 0 {}, .next 0 {}, .next 0 { due := true }, .next 0 { batch := [oneTimeKey] },
    .next 0 {}, .next 0 {}]

def laterRun : List SyncInput := List.replicate 11 {}

theorem storedCandidate_quiet : RunQuiet {} storedCandidate := by
  refine ⟨trivial, ⟨nofun, nofun, nofun⟩, ⟨nofun, nofun, nofun⟩, ⟨nofun, nofun, nofun⟩,
    ⟨fun _ _ => not_mem_nil, nofun, ?_⟩, ⟨nofun, nofun, nofun⟩, ⟨nofun, nofun, nofun⟩,
    trivial⟩
  rintro _ _ _ _ key ⟨_ | other, run, hrun, hkey⟩
  · cases hrun
    cases hkey
  · cases hrun

theorem pending_publication_never_blocks_stored :
    ((run {} storedCandidate).run (.start 1 :: laterRun.map (.next 1))).Settled 1 :=
  (pending_publication_never_blocks [] [] storedCandidate storedCandidate_quiet).2.2 1 laterRun
    rfl (by rintro _ ⟨⟩ key hkey; exact ⟨hkey, not_mem_nil⟩)
    (fun _ _ _ _ => not_mem_nil) (by decide)

/-- A crash between the upload and the deletion of the candidate, and a peer that uses the key. -/
def consumedCandidate : List CandidateEvent :=
  storedCandidate ++
    [.next 0 {}, .next 0 {}, .next 0 {}, .stop 0, .fetch oneTimeKey, .commit oneTimeKey]

theorem consumed_candidate_blocks :
    (run {} (consumedCandidate ++ .start 1 :: laterRun.map (.next 1))).unmatched = [1] ∧
      (run {} (consumedCandidate ++ .start 1 :: laterRun.map (.next 1))).candidate =
        some [oneTimeKey] := by
  decide

end SignalProtocol.Hosted.CandidateWorld
