import Mathlib.LinearAlgebra.Lagrange

/-! # Newton's form of the interpolation polynomial

The divided differences of values `r` at nodes `v 0, v 1, …` are the leading coefficients of
the Lagrange interpolants on consecutive nodes, and the sum of the divided differences times
the nodal polynomials is the interpolant itself. -/

open Polynomial

namespace NewtonInterpolation

variable {K : Type*} [Field K] (count : ℕ)

/-- The divided difference of order `order` that ends at node `last`. -/
def dividedDifference (v r : ℕ → K) : ℕ → ℕ → K
  | last, 0 => r last
  | last, order + 1 =>
    (dividedDifference v r last order - dividedDifference v r (last - 1) order) /
      (v last - v (last - (order + 1)))

variable {v r : ℕ → K}

private theorem window_erase_first (first order : ℕ) :
    (Finset.Icc first (first + (order + 1))).erase first =
      Finset.Icc (first + 1) (first + 1 + order) := by
  ext node
  simp only [Finset.mem_erase, Finset.mem_Icc]
  omega

private theorem window_erase_last (first order : ℕ) :
    (Finset.Icc first (first + (order + 1))).erase (first + (order + 1)) =
      Finset.Icc first (first + order) := by
  ext node
  simp only [Finset.mem_erase, Finset.mem_Icc]
  omega

private theorem degree_interpolate_window_le (first order : ℕ)
    (hinj : Set.InjOn v (Finset.Icc first (first + order))) :
    (Lagrange.interpolate (Finset.Icc first (first + order)) v r).natDegree ≤ order := by
  apply natDegree_le_of_degree_le
  have hdegree := Lagrange.degree_interpolate_le r hinj
  rwa [Nat.card_Icc, show first + order + 1 - first - 1 = order by omega] at hdegree

theorem coeff_mul_basisDivisor {p : K[X]} {order : ℕ} (hdegree : p.natDegree ≤ order) (x y : K) :
    (p * Lagrange.basisDivisor x y).coeff (order + 1) = (x - y)⁻¹ * p.coeff order := by
  have hvanish : p.coeff (order + 1) = 0 := coeff_eq_zero_of_natDegree_lt (by omega)
  rw [Lagrange.basisDivisor, mul_left_comm, coeff_C_mul, mul_sub, coeff_sub, coeff_mul_X,
    coeff_mul_C, hvanish, zero_mul, sub_zero]

/-- A divided difference is the leading coefficient of the interpolant on its window of
nodes. -/
theorem coeff_interpolate_window (first order : ℕ)
    (hinj : Set.InjOn v (Finset.Icc first (first + order))) :
    (Lagrange.interpolate (Finset.Icc first (first + order)) v r).coeff order =
      dividedDifference v r (first + order) order := by
  induction order generalizing first with
  | zero => simp [dividedDifference]
  | succ order ih =>
    have hfst : first ∈ Finset.Icc first (first + (order + 1)) := by simp
    have hlast : first + (order + 1) ∈ Finset.Icc first (first + (order + 1)) := by simp
    have hne : first ≠ first + (order + 1) := by omega
    have hlower : Set.InjOn v (Finset.Icc first (first + order)) :=
      hinj.mono (Finset.coe_subset.mpr (Finset.Icc_subset_Icc_right (by omega)))
    have hupper : Set.InjOn v (Finset.Icc (first + 1) (first + 1 + order)) :=
      hinj.mono (Finset.coe_subset.mpr (Finset.Icc_subset_Icc (by omega) (by omega)))
    rw [Lagrange.interpolate_eq_add_interpolate_erase r hinj hfst hlast hne,
      window_erase_first, window_erase_last, coeff_add,
      coeff_mul_basisDivisor (degree_interpolate_window_le first order hlower),
      coeff_mul_basisDivisor (degree_interpolate_window_le (first + 1) order hupper),
      ih first hlower, ih (first + 1) hupper, dividedDifference]
    have hupperLast : first + 1 + order = first + (order + 1) := by omega
    have hlowerLast : first + (order + 1) - 1 = first + order := by omega
    have hnode : first + (order + 1) - (order + 1) = first := by omega
    rw [hupperLast, hlowerLast, hnode, ← neg_sub (v (first + (order + 1))) (v first), inv_neg]
    ring

private theorem interpolate_range_succ (hinj : Set.InjOn v (Finset.range (count + 1))) :
    Lagrange.interpolate (Finset.range (count + 1)) v r =
      Lagrange.interpolate (Finset.range count) v r +
        C (dividedDifference v r count count) * Lagrange.nodal (Finset.range count) v := by
  have hwin : Finset.Icc 0 (0 + count) = Finset.range (count + 1) := by
    ext node
    simp only [Finset.mem_Icc, Finset.mem_range]
    omega
  have hlower : Set.InjOn v (Finset.range count) :=
    hinj.mono (Finset.coe_subset.mpr (Finset.range_subset_range.mpr (by omega)))
  have hlowerDegree : (Lagrange.interpolate (Finset.range count) v r).degree < count := by
    simpa using Lagrange.degree_interpolate_lt r hlower
  have hnodalDegree : (Lagrange.nodal (Finset.range count) v).natDegree = count := by
    simp [Lagrange.natDegree_nodal]
  have hnodalMonic := Lagrange.nodal_monic (s := Finset.range count) (v := v)
  -- Both sides agree at the first `count` nodes and have the same coefficient of degree `count`.
  have hleading : (Lagrange.interpolate (Finset.range (count + 1)) v r).coeff count =
      dividedDifference v r count count := by
    have hcoeff := coeff_interpolate_window (v := v) (r := r) 0 count (hwin ▸ hinj)
    rwa [hwin, zero_add] at hcoeff
  set difference := Lagrange.interpolate (Finset.range (count + 1)) v r -
    (Lagrange.interpolate (Finset.range count) v r +
      C (dividedDifference v r count count) * Lagrange.nodal (Finset.range count) v)
    with hdifference
  suffices difference = 0 from sub_eq_zero.mp this
  apply eq_zero_of_degree_lt_of_eval_index_eq_zero (Finset.range count) hlower
  · rw [Finset.card_range]
    rw [degree_lt_iff_coeff_zero]
    intro exponent hexponent
    rcases Nat.eq_or_lt_of_le hexponent with rfl | hlt
    · have hmonic : (Lagrange.nodal (Finset.range count) v).coeff count = 1 := by
        have hmonic := hnodalMonic.coeff_natDegree
        rwa [hnodalDegree] at hmonic
      rw [hdifference, coeff_sub, coeff_add, coeff_C_mul, hmonic, hleading,
        coeff_eq_zero_of_degree_lt hlowerDegree]
      ring
    · have hupperCoeff :
          (Lagrange.interpolate (Finset.range (count + 1)) v r).coeff exponent = 0 := by
        apply coeff_eq_zero_of_degree_lt
        have hdegree := Lagrange.degree_interpolate_lt r hinj
        rw [Finset.card_range] at hdegree
        exact hdegree.trans_le (by exact_mod_cast hlt)
      have hlowerCoeff : (Lagrange.interpolate (Finset.range count) v r).coeff exponent = 0 :=
        coeff_eq_zero_of_degree_lt (hlowerDegree.trans_le (by exact_mod_cast hexponent))
      have hnodalCoeff : (Lagrange.nodal (Finset.range count) v).coeff exponent = 0 :=
        coeff_eq_zero_of_natDegree_lt (by omega)
      rw [hdifference, coeff_sub, coeff_add, coeff_C_mul, hupperCoeff, hlowerCoeff, hnodalCoeff]
      ring
  · intro node hnode
    have hmem : node ∈ Finset.range (count + 1) := by
      simp only [Finset.mem_range] at hnode ⊢
      omega
    rw [hdifference, eval_sub, eval_add, eval_mul, Lagrange.eval_interpolate_at_node r hinj hmem,
      Lagrange.eval_interpolate_at_node r hlower hnode, Lagrange.eval_nodal_at_node hnode]
    ring

/-- Newton's form: divided differences times nodal polynomials sum to the interpolant. -/
theorem sum_dividedDifference_nodal (hinj : Set.InjOn v (Finset.range count)) :
    ∑ order ∈ Finset.range count,
        C (dividedDifference v r order order) * Lagrange.nodal (Finset.range order) v =
      Lagrange.interpolate (Finset.range count) v r := by
  induction count with
  | zero => simp
  | succ count ih =>
    have hlower : Set.InjOn v (Finset.range count) :=
      hinj.mono (Finset.coe_subset.mpr (Finset.range_subset_range.mpr (by omega)))
    rw [Finset.sum_range_succ, ih hlower, interpolate_range_succ count hinj]

end NewtonInterpolation
