import Mathlib.Order.Interval.Finset.Nat

/-! # Chains that keep every skipped index

A one-way chain serves each of its indexes once. -/

namespace SkippedKeys

open List

variable {gone : List ℕ}

structure Limits where
  window : ℕ
  jump : ℕ
  last : ℕ

/-- The steps taken, and the indexes up to there that have not been served. -/
structure Chain where
  position : ℕ
  skipped : Finset ℕ
  bounds : ∀ index ∈ skipped, 0 < index ∧ index ≤ position

inductive Request where
  | receive (index : ℕ)
  /-- Serve the index only if it is kept. -/
  | kept (index : ℕ)

def Request.index : Request → ℕ
  | receive index => index
  | kept index => index

def Request.steps : Request → Bool
  | receive _ => true
  | kept _ => false

namespace Chain

def fresh : Chain := ⟨0, ∅, by simp⟩

variable (limits : Limits) (chain : Chain) (request : Request)

def Serves : Prop :=
  chain.position ≤ request.index + limits.window ∧
    (request.index ∈ chain.skipped ∨ request.steps = true ∧ chain.position < request.index ∧
      request.index ≤ chain.position + limits.jump ∧ request.index ≤ limits.last)

instance : Decidable (chain.Serves limits request) := by
  unfold Serves
  infer_instance

/-- The chain after it has served an index. -/
def serve (index : ℕ) : Chain where
  position := max chain.position index
  skipped := (chain.skipped ∪ Finset.Ioo chain.position index).erase index
  bounds := by
    intro other hother
    rw [Finset.mem_erase, Finset.mem_union, Finset.mem_Ioo] at hother
    obtain ⟨-, hskipped | hbetween⟩ := hother
    · have hbounds := chain.bounds other hskipped
      omega
    · omega

def next : Chain := if chain.Serves limits request then chain.serve request.index else chain

def after (requests : List Request) : Chain := requests.foldl (next limits) chain

/-- The indexes that a run serves, in order. -/
def served (chain : Chain) : List Request → List ℕ
  | [] => []
  | request :: requests =>
    if chain.Serves limits request then
      request.index :: served (chain.next limits request) requests
    else served (chain.next limits request) requests

variable {limits chain request}

theorem mem_skipped_serve {index other : ℕ} : other ∈ (chain.serve index).skipped ↔
    other ≠ index ∧ (other ∈ chain.skipped ∨ chain.position < other ∧ other < index) := by
  rw [serve, Finset.mem_erase, Finset.mem_union, Finset.mem_Ioo]

/-- What a run has left to serve, next to the indexes that it has served. -/
structure Accounts (limits : Limits) (chain : Chain) (gone : List ℕ) : Prop where
  skipped_iff : ∀ index, index ∈ chain.skipped ↔ 0 < index ∧ index ≤ chain.position ∧ index ∉ gone
  gone_le : ∀ index ∈ gone, 0 < index ∧ index ≤ chain.position
  nodup : gone.Nodup
  position_le : chain.position ≤ limits.last

theorem Accounts.fresh : Accounts limits fresh [] := by
  refine ⟨fun index => ?_, by simp, nodup_nil, Nat.zero_le _⟩
  constructor
  · intro hidx
    cases hidx
  · rintro ⟨hpos, hle, -⟩
    exact absurd hle (not_le.mpr hpos)

section

variable (haccounts : Accounts limits chain gone)

include haccounts

/-- A request that is served names an index that was not served before. -/
theorem Accounts.not_mem (hserves : chain.Serves limits request) : request.index ∉ gone := by
  intro hgone
  obtain ⟨-, hskip | ⟨-, hahead, -⟩⟩ := hserves
  · exact ((haccounts.skipped_iff _).mp hskip).2.2 hgone
  · exact absurd (haccounts.gone_le _ hgone).2 (not_le.mpr hahead)

theorem Accounts.serve (hserves : chain.Serves limits request) :
    Accounts limits (chain.serve request.index) (request.index :: gone) := by
  have hnew := haccounts.not_mem hserves
  have hidx : 0 < request.index ∧
      (request.index ≤ chain.position ∨ request.index ≤ limits.last) := by
    obtain ⟨-, hskip | ⟨-, hahead, -, hlast⟩⟩ := hserves
    · have hbounds := chain.bounds _ hskip
      exact ⟨hbounds.1, .inl hbounds.2⟩
    · exact ⟨by omega, .inr hlast⟩
  have hposition : (chain.serve request.index).position = max chain.position request.index := rfl
  refine ⟨fun index => ?_, fun index hgone => ?_, haccounts.nodup.cons hnew, ?_⟩
  · rw [mem_skipped_serve, haccounts.skipped_iff, hposition, mem_cons, not_or]
    constructor
    · rintro ⟨hne, ⟨hpos, hle, hleft⟩ | ⟨hlower, hupper⟩⟩
      · exact ⟨hpos, by omega, hne, hleft⟩
      · refine ⟨by omega, by omega, hne, fun hgone => ?_⟩
        exact absurd (haccounts.gone_le index hgone).2 (not_le.mpr hlower)
    · rintro ⟨hpos, hle, hne, hleft⟩
      refine ⟨hne, ?_⟩
      by_cases hbefore : index ≤ chain.position
      · exact .inl ⟨hpos, hbefore, hleft⟩
      · exact .inr ⟨by omega, by omega⟩
  · rw [hposition]
    rcases mem_cons.mp hgone with rfl | hprev
    · exact ⟨hidx.1, le_max_right _ _⟩
    · have hbounds := haccounts.gone_le index hprev
      exact ⟨hbounds.1, hbounds.2.trans (le_max_left _ _)⟩
  · have hlast := haccounts.position_le
    rw [hposition]
    omega

theorem Accounts.after (requests : List Request) :
    Accounts limits (chain.after limits requests)
      ((chain.served limits requests).reverse ++ gone) := by
  induction requests generalizing chain gone with
  | nil => exact haccounts
  | cons request requests ih =>
    rw [Chain.after, foldl_cons, served, ← Chain.after]
    by_cases hserves : chain.Serves limits request
    · rw [if_pos hserves, reverse_cons, append_assoc]
      have hnext : chain.next limits request = chain.serve request.index := if_pos hserves
      rw [hnext]
      exact ih (haccounts.serve hserves)
    · rw [if_neg hserves]
      have hnext : chain.next limits request = chain := if_neg hserves
      rw [hnext]
      exact ih haccounts

end

variable (limits : Limits)
  (requests : List Request)

theorem accounts_run :
    Accounts limits (Chain.fresh.after limits requests)
      (Chain.fresh.served limits requests).reverse := by
  have haccounts := Accounts.after (Accounts.fresh : Accounts limits Chain.fresh []) requests
  rwa [append_nil] at haccounts

/-- No index is served twice. -/
theorem served_nodup :
    (Chain.fresh.served limits requests).Nodup :=
  nodup_reverse.mp (accounts_run limits requests).nodup

/-- After a run, an index is served exactly when it has not been served and is within the
limits. -/
theorem serves_receive_iff (index : ℕ) :
    (Chain.fresh.after limits requests).Serves limits (.receive index) ↔
      0 < index ∧ index ≤ limits.last ∧ index ∉ Chain.fresh.served limits requests ∧
        (Chain.fresh.after limits requests).position ≤ index + limits.window ∧
        index ≤ (Chain.fresh.after limits requests).position + limits.jump := by
  have haccounts := accounts_run limits requests
  have hlast := haccounts.position_le
  rw [Serves, haccounts.skipped_iff, mem_reverse]
  constructor
  · rintro ⟨hwin, ⟨hpos, hle, hleft⟩ | ⟨-, hahead, hjump, hidx⟩⟩
    · exact ⟨hpos, hle.trans hlast, hleft, hwin, hle.trans (Nat.le_add_right _ _)⟩
    · refine ⟨Nat.zero_lt_of_lt hahead, hidx, fun hgone => ?_, hwin, hjump⟩
      exact absurd (haccounts.gone_le index (mem_reverse.mpr hgone)).2 (not_le.mpr hahead)
  · rintro ⟨hpos, hidx, hleft, hwin, hjump⟩
    refine ⟨hwin, ?_⟩
    by_cases hbefore : index ≤ (Chain.fresh.after limits requests).position
    · exact .inl ⟨hpos, hbefore, hleft⟩
    · exact .inr ⟨rfl, not_le.mp hbefore, hjump, hidx⟩

end Chain

end SkippedKeys
