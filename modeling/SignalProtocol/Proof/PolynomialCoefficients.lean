import Mathlib.LinearAlgebra.Lagrange
import SignalProtocol.Rs.Codec
import SignalProtocol.Library.Loops
import SignalProtocol.Library.NewtonInterpolation

/-! # Arithmetic through a field interpretation -/

open List

namespace SignalProtocol.Rs.GaloisField16.Interpretation

variable {field : GaloisField16} {K : Type*} [Field K] (I : field.Interpretation K)

@[simp] theorem map_zero : I.toField 0 = 0 := by
  have hzero := I.map_xor 0 0
  simpa using hzero

include I in
theorem two_eq_zero : (2 : K) = 0 := by
  have hone := I.map_xor 1 1
  rw [BitVec.xor_self, I.map_one] at hone
  rw [← one_add_one_eq_two, ← hone]
  exact I.map_zero

include I in
theorem sub_eq_add (x y : K) : x - y = x + y := by
  have htwo : y + y = 0 := by rw [← two_mul, I.two_eq_zero, zero_mul]
  rw [sub_eq_iff_eq_add, add_assoc, htwo, add_zero]

theorem map_xor_sub (x y : FieldElement) : I.toField (x ^^^ y) = I.toField x - I.toField y := by
  rw [I.map_xor, I.sub_eq_add]

@[simp] theorem map_add (x y : FieldElement) :
    I.toField (field.add x y) = I.toField x + I.toField y := I.map_xor x y

def node (index : ℕ) : K := I.toField (BitVec.ofNat 16 index)

theorem node_injOn : Set.InjOn I.node (Set.Iio 65536) := by
  intro first hfst second hsnd heq
  have hnat := congrArg BitVec.toNat (I.injective heq)
  simpa [Nat.mod_eq_of_lt hfst, Nat.mod_eq_of_lt hsnd] using hnat

include I in
theorem xor_node_ne_zero (first second : ℕ) (hfst : first < 65536) (hsnd : second < 65536)
    (hne : first ≠ second) : BitVec.ofNat 16 first ^^^ BitVec.ofNat 16 second ≠ 0 := by
  intro hzero
  have hnode : I.node first - I.node second = 0 := by
    rw [node, node, ← I.map_xor_sub, hzero, I.map_zero]
  exact hne (I.node_injOn hfst hsnd (sub_eq_zero.mp hnode))

end SignalProtocol.Rs.GaloisField16.Interpretation

/-! ## The interpolator evaluates the Lagrange interpolant -/

namespace SignalProtocol.Rs.LagrangeInterpolator

open Polynomial

variable {field : GaloisField16} {K : Type*} [Field K] (I : field.Interpretation K) {xs : List ℕ}

theorem checkEvaluationPoints_ok (xs seen : List ℕ) (hrange : ∀ x ∈ xs, x < 65536)
    (hnodup : (seen ++ xs).Nodup) : checkEvaluationPoints xs seen = .ok () := by
  induction xs generalizing seen with
  | nil => rfl
  | cons x rest ih =>
    have hfresh : x ∉ seen := by
      intro hmem
      exact (nodup_append.mp hnodup).2.2 x hmem x (by simp) rfl
    have hx := hrange x (by simp)
    rw [checkEvaluationPoints, if_neg (by simpa [gf16Size] using hx), if_neg hfresh]
    apply ih _ fun y hy => hrange y (mem_cons_of_mem _ hy)
    exact (perm_middle.nodup_iff).mp hnodup

def nodeAt (xs : List ℕ) (position : ℕ) : K := I.node (xs.getD position 0)

theorem nodeAt_injOn (hrange : ∀ x ∈ xs, x < 65536) (hnodup : xs.Nodup) :
    Set.InjOn (nodeAt I xs) (Finset.range xs.length) := by
  intro first hfst second hsnd heq
  have hfirstLength : first < xs.length := by simpa using hfst
  have hsecondLength : second < xs.length := by simpa using hsnd
  have hidx := I.node_injOn (hrange _ (getElem_mem hfirstLength))
    (hrange _ (getElem_mem hsecondLength)) (by
      simpa only [nodeAt, getD_eq_getElem _ _ hfirstLength,
        getD_eq_getElem _ _ hsecondLength] using heq)
  exact (hnodup.getElem_inj_iff).mp hidx

theorem productOfDifferences_eq (xs : List ℕ) (i : ℕ) (target : FieldElement) :
    I.toField (productOfDifferences field xs i target) =
      ∏ j ∈ (Finset.range xs.length).erase i, (I.toField target - nodeAt I xs j) := by
  have hloop := Loops.foldl_range_induction
    (motive := fun count product => I.toField product =
      ∏ j ∈ (Finset.range count).erase i, (I.toField target - nodeAt I xs j))
    (fun product j =>
      if i ≠ j then field.mul product (target ^^^ pointAt xs j) else product)
    xs.length 1 (by rw [I.map_one, Finset.range_zero, Finset.erase_empty, Finset.prod_empty]) (by
      intro j product _ hproduct
      by_cases hij : i = j
      · subst hij
        rw [if_neg (by simp), hproduct, Finset.range_add_one, Finset.erase_insert_eq_erase]
      · have hfresh : j ∉ (Finset.range j).erase i := by simp
        rw [if_pos hij, I.map_mul, hproduct, I.map_xor_sub, Finset.range_add_one,
          Finset.erase_insert_of_ne (Ne.symm hij), Finset.prod_insert hfresh, mul_comm]
        rfl)
  exact hloop

theorem eval_basis_eq_div (xs : List ℕ) (i : ℕ) (target : K) :
    (Lagrange.basis (Finset.range xs.length) (nodeAt I xs) i).eval target =
      (∏ j ∈ (Finset.range xs.length).erase i, (target - nodeAt I xs j)) /
        ∏ j ∈ (Finset.range xs.length).erase i, (nodeAt I xs i - nodeAt I xs j) := by
  rw [Lagrange.basis, eval_prod, ← Finset.prod_div_distrib]
  apply Finset.prod_congr rfl
  intro j _
  rw [Lagrange.basisDivisor, eval_mul, eval_C, eval_sub, eval_X, eval_C, div_eq_inv_mul]

theorem computeDenominators_ok (hrange : ∀ x ∈ xs, x < 65536) (hnodup : xs.Nodup) :
    ∃ denominators, computeDenominators field xs = .ok denominators ∧
      ∀ i, i < xs.length → I.toField (denominators.getD i 0) =
        ∏ j ∈ (Finset.range xs.length).erase i, (nodeAt I xs i - nodeAt I xs j) := by
  refine ⟨(List.range xs.length).map fun i => productOfDifferences field xs i (pointAt xs i), ?_,
    fun i hi => ?_⟩
  · rw [computeDenominators, checkEvaluationPoints_ok xs [] hrange hnodup]
    rfl
  · rw [List.getD_map_range _ _ _ _ hi, productOfDifferences_eq]
    rfl

theorem interpolateWithDenominators_ok (ys : List FieldElement) {denominators : List FieldElement}
    (targetX : ℕ) (hrange : ∀ x ∈ xs, x < 65536) (hnodup : xs.Nodup)
    (hdenominators : ∀ i, i < xs.length → I.toField (denominators.getD i 0) =
      ∏ j ∈ (Finset.range xs.length).erase i, (nodeAt I xs i - nodeAt I xs j)) :
    ∃ value, interpolateWithDenominators field xs ys denominators targetX = .ok value ∧
      I.toField value = (Lagrange.interpolate (Finset.range xs.length) (nodeAt I xs)
        fun i => I.toField (ys.getD i 0)).eval (I.node targetX) := by
  have hinj := nodeAt_injOn I hrange hnodup
  obtain ⟨value, hval, hsum⟩ := Loops.foldlM_range_ok
    (motive := fun count result => I.toField result = ∑ i ∈ Finset.range count,
      I.toField (ys.getD i 0) *
        (Lagrange.basis (Finset.range xs.length) (nodeAt I xs) i).eval (I.node targetX))
    (fun result i => do
      let numerator := productOfDifferences field xs i (BitVec.ofNat 16 targetX)
      let basis ← field.div numerator (denominators.getD i 0)
      pure (field.add result (field.mul (ys.getD i 0) basis)))
    xs.length 0 (by rw [I.map_zero, Finset.range_zero, Finset.sum_empty]) (by
      intro i result hi hres
      have hnonzero : denominators.getD i 0 ≠ 0 := by
        intro hzero
        have hproduct := hdenominators i hi
        rw [hzero, I.map_zero, eq_comm, Finset.prod_eq_zero_iff] at hproduct
        obtain ⟨j, hj, hnodes⟩ := hproduct
        obtain ⟨hne, hmem⟩ := Finset.mem_erase.mp hj
        exact hne (hinj (by simpa using hmem) (by simpa using hi) (sub_eq_zero.mp hnodes).symm)
      obtain ⟨basis, hbasis, hquotient⟩ := I.map_div
        (productOfDifferences field xs i (BitVec.ofNat 16 targetX)) _ hnonzero
      refine ⟨field.add result (field.mul (ys.getD i 0) basis), ?_, ?_⟩
      · simp only [hbasis]
        rfl
      · rw [productOfDifferences_eq, hdenominators i hi] at hquotient
        rw [I.map_add, I.map_mul, hres, hquotient, Finset.sum_range_succ, eval_basis_eq_div]
        rfl)
  refine ⟨value, hval, ?_⟩
  rw [hsum, Lagrange.interpolate_apply, eval_finsetSum]
  apply Finset.sum_congr rfl
  intro i _
  rw [eval_mul, eval_C]

theorem eval_interpolate_eq {ys : List FieldElement} {p : K[X]} (target : K)
    (hrange : ∀ x ∈ xs, x < 65536) (hnodup : xs.Nodup) (hdegree : p.degree < xs.length)
    (hvals : ∀ i, i < xs.length → I.toField (ys.getD i 0) = p.eval (nodeAt I xs i)) :
    (Lagrange.interpolate (Finset.range xs.length) (nodeAt I xs)
      fun i => I.toField (ys.getD i 0)).eval target = p.eval target := by
  rw [← Lagrange.eq_interpolate_of_eval_eq _ (nodeAt_injOn I hrange hnodup)
    (by rwa [Finset.card_range])]
  intro i hi
  exact (hvals i (Finset.mem_range.mp hi)).symm

end SignalProtocol.Rs.LagrangeInterpolator

/-! ## The encoder's polynomials interpolate the data

`computePolynomialCoefficients` is Newton's method in place: the columns of the divided differences
table, then the expansion of the nodal polynomials. -/

namespace SignalProtocol.Rs.PolyEncoder

open Polynomial NewtonInterpolation List

variable {field : GaloisField16} {K : Type*} [Field K] (I : field.Interpretation K)
  (ys : List FieldElement) (j : ℕ) (count : ℕ)

/-- The field element at a position of an array. -/
def entry (list : List FieldElement) (index : ℕ) : K := I.toField (list.getD index 0)

theorem entry_set (list : List FieldElement) (index other : ℕ) (value : FieldElement)
    (hidx : index < list.length) :
    entry I (list.set index value) other =
      if other = index then I.toField value else entry I list other := by
  rw [entry, List.getD_set]
  by_cases hother : other = index <;> simp [hother, hidx, entry]

theorem dividedDifferenceColumn_ok (j left : ℕ) (divDiff : List FieldElement) (hj : 1 ≤ j)
    (hlen : j + left ≤ divDiff.length) (hrange : divDiff.length ≤ 65536) :
    ∃ result, dividedDifferenceColumn field j left divDiff = .ok result ∧
      result.length = divDiff.length ∧
      ∀ i, entry I result i =
        if j ≤ i ∧ i < j + left then
          (entry I divDiff i - entry I divDiff (i - 1)) / (I.node i - I.node (i - j))
        else entry I divDiff i := by
  induction left generalizing divDiff with
  | zero =>
    refine ⟨divDiff, rfl, rfl, fun i => ?_⟩
    rw [if_neg (by omega)]
  | succ left ih =>
    have hdenominator := I.xor_node_ne_zero (j + left) (j + left - j) (by omega)
      (by omega) (by omega)
    obtain ⟨quotient, hquotient, hval⟩ := I.map_div
      (divDiff.getD (j + left) 0 ^^^ divDiff.getD (j + left - 1) 0) _ hdenominator
    obtain ⟨result, hres, hsize, hentries⟩ := ih (divDiff.set (j + left) quotient)
      (by rw [length_set]; omega) (by rw [length_set]; omega)
    refine ⟨result, ?_, by rw [hsize, length_set], fun i => ?_⟩
    · rw [dividedDifferenceColumn]
      simp only [hquotient]
      exact hres
    · rw [I.map_xor_sub, I.map_xor_sub] at hval
      rw [hentries i]
      have hset := fun other => entry_set I divDiff (j + left) other quotient (by omega)
      -- The entry written here is read by no later iteration of the column.
      by_cases hi : i = j + left
      · subst hi
        rw [if_neg (by omega), if_pos (by omega), hset, if_pos rfl, hval]
        rfl
      · by_cases hcolumn : j ≤ i ∧ i < j + left
        · rw [if_pos hcolumn, if_pos (by omega), hset, hset, if_neg hi, if_neg (by omega)]
        · rw [if_neg hcolumn, if_neg (by omega), hset, if_neg hi]

theorem dividedDifferences_ok (hrange : ys.length ≤ 65536) (hpos : 0 < ys.length) :
    ∃ divDiff, dividedDifferences field ys = .ok divDiff ∧ divDiff.length = ys.length ∧
      ∀ i, i < ys.length → entry I divDiff i = dividedDifference I.node (entry I ys) i i := by
  -- After column `j`, entry `i` is the divided difference of order `min i j`.
  obtain ⟨divDiff, hok, hlen, hentries⟩ := Loops.foldlM_range'_ok
    (motive := fun j divDiff => divDiff.length = ys.length ∧ ∀ i, i < ys.length →
      entry I divDiff i = dividedDifference I.node (entry I ys) i (min i (j - 1)))
    (fun divDiff j => dividedDifferenceColumn field j (ys.length - j) divDiff)
    1 (ys.length - 1) ys ⟨rfl, fun i _ => by simp [dividedDifference]⟩ (by
      rintro j divDiff hlower hupper ⟨hlen, hentries⟩
      obtain ⟨result, hres, hsize, hcolumn⟩ := dividedDifferenceColumn_ok I j
        (ys.length - j) divDiff hlower (by omega) (by omega)
      refine ⟨result, hres, by rw [hsize, hlen], fun i hi => ?_⟩
      rw [hcolumn i]
      by_cases hji : j ≤ i
      · obtain ⟨order, rfl⟩ : ∃ order, j = order + 1 := ⟨j - 1, by omega⟩
        rw [if_pos (by omega), hentries i hi, hentries (i - 1) (by omega),
          show min i (order + 1 - 1) = order by omega,
          show min (i - 1) (order + 1 - 1) = order by omega,
          show min i (order + 1 + 1 - 1) = order + 1 by omega, dividedDifference]
      · rw [if_neg (by omega), hentries i hi, show min i (j - 1) = i by omega,
          show min i (j + 1 - 1) = i by omega])
  refine ⟨divDiff, hok, hlen, fun i hi => ?_⟩
  rw [hentries i hi, show min i (1 + (ys.length - 1) - 1) = i by omega]

def Represents (coeffs : List FieldElement) (p : K[X]) : Prop :=
  ∀ i, entry I coeffs i = p.coeff i

theorem nodal_succ :
    Lagrange.nodal (Finset.range (j + 1)) I.node =
      Lagrange.nodal (Finset.range j) I.node * (X - C (I.node j)) := by
  rw [Finset.range_add_one, Lagrange.nodal_insert_eq_nodal (by simp), mul_comm]

theorem multiplyExpansion_entry (j i : ℕ) (expansion : List FieldElement)
    (hlen : i < expansion.length) :
    (multiplyExpansion field j i expansion).length = expansion.length ∧
      ∀ other, entry I (multiplyExpansion field j i expansion) other =
        if other ≤ i then
          (if other = 0 then 0 else entry I expansion (other - 1)) -
            entry I expansion other * I.node (j - 1)
        else entry I expansion other := by
  induction i generalizing expansion with
  | zero =>
    refine ⟨by simp [multiplyExpansion], fun other => ?_⟩
    rw [multiplyExpansion, entry_set I _ _ _ _ hlen]
    by_cases hother : other = 0
    · subst hother
      simp [I.map_mul, entry, GaloisField16.Interpretation.node, I.sub_eq_add]
    · simp [hother]
  | succ i ih =>
    set updated := expansion.set (i + 1) (field.add (expansion.getD i 0)
      (field.mul (expansion.getD (i + 1) 0) (BitVec.ofNat 16 (j - 1)))) with hupdated
    have hsize : updated.length = expansion.length := by rw [hupdated, length_set]
    obtain ⟨hres, hentries⟩ := ih updated (by omega)
    refine ⟨by rw [multiplyExpansion, hres, hsize], fun other => ?_⟩
    have hset := fun other => entry_set I expansion (i + 1) other (field.add
      (expansion.getD i 0) (field.mul (expansion.getD (i + 1) 0) (BitVec.ofNat 16 (j - 1))))
      hlen
    rw [← hupdated] at hset
    rw [multiplyExpansion, ← hupdated, hentries other]
    by_cases hother : other = i + 1
    · subst hother
      rw [if_neg (by omega), if_pos le_rfl, if_neg (by omega), hset, if_pos rfl, I.map_add,
        I.map_mul, I.sub_eq_add]
      rfl
    · by_cases hle : other ≤ i
      · have hprev : entry I updated (other - 1) = entry I expansion (other - 1) := by
          rw [hset, if_neg (by omega)]
        rw [if_pos hle, if_pos (show other ≤ i + 1 by omega), hprev, hset, if_neg hother]
      · rw [if_neg hle, if_neg (by omega), hset, if_neg hother]

theorem multiplyExpansion_represents (expansion : List FieldElement)
    (hlen : j + 1 < expansion.length)
    (hexpansion : Represents I expansion (Lagrange.nodal (Finset.range j) I.node)) :
    Represents I (multiplyExpansion field (j + 1) (j + 1) expansion)
      (Lagrange.nodal (Finset.range (j + 1)) I.node) := by
  intro i
  have hdegree : (Lagrange.nodal (Finset.range j) I.node).natDegree = j := by
    simp [Lagrange.natDegree_nodal]
  rw [(multiplyExpansion_entry I (j + 1) (j + 1) expansion hlen).2 i, nodal_succ, mul_sub,
    coeff_sub, coeff_mul_C, Nat.add_sub_cancel]
  by_cases hi : i ≤ j + 1
  · rw [if_pos hi, hexpansion i]
    cases i with
    | zero => simp
    | succ i => rw [coeff_mul_X, if_neg (by omega), Nat.add_sub_cancel, hexpansion i]
  · obtain ⟨i, rfl⟩ : ∃ lower, i = lower + 1 := ⟨i - 1, by omega⟩
    rw [if_neg hi, hexpansion (i + 1), coeff_mul_X,
      coeff_eq_zero_of_natDegree_lt (n := i + 1) (by omega),
      coeff_eq_zero_of_natDegree_lt (n := i) (by omega)]
    ring

theorem addScaledExpansion_represents (d : FieldElement) (expansion coeffs : List FieldElement)
    {nodal p : K[X]} (hlen : j < coeffs.length) (hdegree : nodal.natDegree ≤ j)
    (hexpansion : Represents I expansion nodal) (hcoeffs : Represents I coeffs p) :
    (addScaledExpansion field j d expansion coeffs).length = coeffs.length ∧
      Represents I (addScaledExpansion field j d expansion coeffs)
        (p + C (I.toField d) * nodal) := by
  obtain ⟨hsize, hentries⟩ := Loops.foldl_range_induction
    (motive := fun count result => result.length = coeffs.length ∧ ∀ i,
      entry I result i = entry I coeffs i +
        if i < count then I.toField d * entry I expansion i else 0)
    (fun coeffs i => coeffs.set i
      (field.add (coeffs.getD i 0) (field.mul d (expansion.getD i 0))))
    (j + 1) coeffs ⟨rfl, fun i => by simp⟩ (by
      rintro index result hidx ⟨hsize, hentries⟩
      refine ⟨by rw [length_set, hsize], fun i => ?_⟩
      rw [entry_set I _ _ _ _ (by omega)]
      by_cases hi : i = index
      · subst hi
        have hold := hentries i
        rw [if_neg (by omega), add_zero] at hold
        rw [if_pos rfl, if_pos (by omega), I.map_add, I.map_mul, ← hold]
        rfl
      · rw [if_neg hi, hentries i]
        congr 1
        exact if_congr (by omega) rfl rfl)
  refine ⟨hsize, fun i => ?_⟩
  rw [addScaledExpansion, hentries i, hcoeffs i, coeff_add, coeff_C_mul]
  congr 1
  by_cases hi : i < j + 1
  · rw [if_pos hi, hexpansion i]
  · rw [if_neg hi, coeff_eq_zero_of_natDegree_lt (by omega), mul_zero]

noncomputable def interpolant (ys : List FieldElement) : K[X] :=
  Lagrange.interpolate (Finset.range ys.length) I.node (entry I ys)

theorem node_injOn_range (hrange : count ≤ 65536) : Set.InjOn I.node (Finset.range count) := by
  apply I.node_injOn.mono
  intro index hidx
  have hlt : index < count := by simpa using hidx
  exact hlt.trans_le hrange

theorem interpolant_degree_lt (hrange : ys.length ≤ 65536) :
    (interpolant I ys).degree < ys.length := by
  have hdegree := Lagrange.degree_interpolate_lt (entry I ys) (node_injOn_range I _ hrange)
  rwa [Finset.card_range] at hdegree

theorem represents_set_zero (hcount : 0 < count) (value : FieldElement) :
    Represents I ((List.replicate count 0).set 0 value) (C (I.toField value)) := by
  intro i
  rw [entry_set I _ _ _ _ (by simpa using hcount), coeff_C]
  split
  · rfl
  · rw [entry, List.getD_replicate_self, I.map_zero]

theorem computePolynomialCoefficients_ok (hrange : ys.length ≤ 65536) (hpos : 0 < ys.length) :
    ∃ coeffs, computePolynomialCoefficients field ys = .ok coeffs ∧
      coeffs.length = ys.length ∧ Represents I coeffs (interpolant I ys) := by
  rw [computePolynomialCoefficients]
  by_cases hone : ys.length = 1
  · obtain ⟨y, rfl⟩ := length_eq_one_iff.mp hone
    refine ⟨[y], rfl, rfl, fun i => ?_⟩
    rw [interpolant, length_singleton, Finset.range_one, Lagrange.interpolate_singleton]
    exact represents_set_zero I 1 one_pos y i
  obtain ⟨divDiff, hdivDiff, hlen, hdiff⟩ := dividedDifferences_ok I ys hrange hpos
  set step := fun (acc : List FieldElement × List FieldElement) j =>
    let expansion := multiplyExpansion field j j acc.2
    (addScaledExpansion field j (divDiff.getD j 0) expansion acc.1, expansion) with hstep
  set start : List FieldElement × List FieldElement :=
    ((List.replicate ys.length 0).set 0 (divDiff.getD 0 0), (List.replicate ys.length 0).set 0 1)
    with hstart
  -- After step `j`, the expansion is the nodal polynomial of the nodes below `j` and the
  -- coefficients are those of Newton's partial sum.
  have hloop : ∀ count, count ≤ ys.length - 1 →
      let acc := (List.range' 1 count).foldl step start
      acc.1.length = ys.length ∧ acc.2.length = ys.length ∧
        Represents I acc.2 (Lagrange.nodal (Finset.range count) I.node) ∧
        Represents I acc.1 (∑ order ∈ Finset.range (count + 1),
          C (dividedDifference I.node (entry I ys) order order) *
            Lagrange.nodal (Finset.range order) I.node) := by
    intro count
    induction count with
    | zero =>
      intro _
      have hzero := represents_set_zero I ys.length hpos (divDiff.getD 0 0)
      have hexpansion := represents_set_zero I ys.length hpos 1
      rw [I.map_one, C_1] at hexpansion
      refine ⟨by simp [hstart], by simp [hstart], ?_, ?_⟩
      · rw [Finset.range_zero, Lagrange.nodal_empty]
        exact hexpansion
      · have hval : I.toField (divDiff.getD 0 0) =
            dividedDifference I.node (entry I ys) 0 0 := hdiff 0 hpos
        rw [hval] at hzero
        rw [zero_add, Finset.sum_range_one, Finset.range_zero, Lagrange.nodal_empty, mul_one]
        exact hzero
    | succ count ih =>
      intro hcount
      obtain ⟨hcoeffsLength, hexpansionLength, hexpansion, hcoeffs⟩ := ih (by omega)
      rw [List.range'_concat, foldl_append, Nat.one_mul, Nat.add_comm 1 count]
      set acc := (List.range' 1 count).foldl step start
      have hnext := multiplyExpansion_represents I count acc.2 (by omega) hexpansion
      have hnextLength :=
        (multiplyExpansion_entry I (count + 1) (count + 1) acc.2 (by omega)).1
      have hdegree : (Lagrange.nodal (Finset.range (count + 1)) I.node).natDegree ≤ count + 1 := by
        simp [Lagrange.natDegree_nodal]
      obtain ⟨hsumLength, hsum⟩ := addScaledExpansion_represents I (count + 1)
        (divDiff.getD (count + 1) 0) _ acc.1 (by omega) hdegree hnext hcoeffs
      refine ⟨hsumLength.trans hcoeffsLength, hnextLength.trans hexpansionLength, hnext, ?_⟩
      have hval : I.toField (divDiff.getD (count + 1) 0) =
          dividedDifference I.node (entry I ys) (count + 1) (count + 1) :=
        hdiff (count + 1) (by omega)
      rw [Finset.sum_range_succ, ← hval]
      exact hsum
  obtain ⟨hcoeffsLength, -, -, hcoeffs⟩ := hloop (ys.length - 1) le_rfl
  refine ⟨((List.range' 1 (ys.length - 1)).foldl step start).1, ?_, hcoeffsLength, ?_⟩
  · simp only [Nat.pos_iff_ne_zero.mp hpos, hone, if_false, hdivDiff]
    rfl
  · rw [Nat.sub_add_cancel hpos,
      sum_dividedDifference_nodal ys.length (node_injOn_range I _ hrange)] at hcoeffs
    exact hcoeffs

theorem evaluatePolynomial_concat (init : List FieldElement) (last : FieldElement) (x : ℕ) :
    I.toField (evaluatePolynomial field (init ++ [last]) x) =
      ∑ i ∈ Finset.range (init.length + 1), entry I (init ++ [last]) i * I.node x ^ i := by
  rw [evaluatePolynomial, reverse_concat]
  simp only [foldl_reverse]
  induction init with
  | nil => simp [entry]
  | cons coeff init ih =>
    rw [foldr_cons, I.map_add, I.map_mul, ih, length_cons,
      Finset.sum_range_succ' _ (init.length + 1), Finset.sum_mul]
    congr 1
    · apply Finset.sum_congr rfl
      intro i _
      rw [pow_succ, ← mul_assoc]
      rfl
    · simp [entry]

theorem evaluatePolynomial_eval (coeffs : List FieldElement) (x : ℕ) {p : K[X]}
    (hpos : 0 < coeffs.length) (hdegree : p.degree < coeffs.length)
    (hrepresents : Represents I coeffs p) :
    I.toField (evaluatePolynomial field coeffs x) = p.eval (I.node x) := by
  obtain ⟨init, last, rfl⟩ := eq_nil_or_concat' coeffs |>.resolve_left
    (ne_nil_of_length_pos hpos)
  have hnatDegree : p.natDegree < (init ++ [last]).length := by
    rcases eq_or_ne p 0 with rfl | hp
    · rwa [natDegree_zero]
    · exact (natDegree_lt_iff_degree_lt hp).mpr hdegree
  rw [evaluatePolynomial_concat, eval_eq_sum_range' hnatDegree, length_append, length_singleton]
  apply Finset.sum_congr rfl
  intro i _
  rw [hrepresents i]

end SignalProtocol.Rs.PolyEncoder
