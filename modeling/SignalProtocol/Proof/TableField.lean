import SignalProtocol.Library.Loops
import SignalProtocol.Rs.Codec
import Mathlib.Algebra.Field.ZMod
import Mathlib.Data.FinEnum
import Mathlib.RingTheory.AdjoinRoot
import Mathlib.Tactic.NormNum.Prime

/-! # The tables implement a field

The quotient of the polynomials over `ZMod 2` by the reduction polynomial has the sixteen-bit words
as its elements. -/

namespace SignalProtocol.Rs.TableField

open Polynomial

variable {word : FieldElement} (bits : List Bool)
  (exponent : ℕ)

noncomputable def modulus : (ZMod 2)[X] := X ^ 16 + X ^ 12 + X ^ 3 + X + 1

theorem modulus_natDegree : modulus.natDegree = 16 := by
  unfold modulus
  compute_degree!

abbrev Quotient := AdjoinRoot modulus

noncomputable abbrev alpha : Quotient := AdjoinRoot.root modulus

theorem add_self (a : Quotient) : a + a = 0 := by
  have htwo : (2 : ZMod 2) = 0 := by decide
  have hmap := congrArg (AdjoinRoot.of modulus) htwo
  rw [map_ofNat, map_zero] at hmap
  rw [← two_mul, hmap, zero_mul]

theorem alpha_pow_sixteen : alpha ^ 16 = alpha ^ 12 + alpha ^ 3 + alpha + 1 := by
  have hroot : AdjoinRoot.mk modulus modulus = 0 := AdjoinRoot.mk_self
  conv at hroot => lhs; arg 2; unfold modulus
  simp only [map_add, map_pow, map_one, AdjoinRoot.mk_X] at hroot
  have hsum : alpha ^ 16 + (alpha ^ 12 + alpha ^ 3 + alpha + 1) = 0 := by
    rw [← hroot]
    ring
  rw [eq_comm, ← sub_eq_zero, ← hsum, sub_eq_iff_eq_add]
  have hcancel := add_self (alpha ^ 16)
  linear_combination -hcancel

noncomputable def ofWord (word : FieldElement) : Quotient :=
  ∑ bit ∈ Finset.range 16, if word.getLsbD bit then alpha ^ bit else 0

theorem ofWord_xor (first second : FieldElement) :
    ofWord (first ^^^ second) = ofWord first + ofWord second := by
  rw [ofWord, ofWord, ofWord, ← Finset.sum_add_distrib]
  apply Finset.sum_congr rfl
  intro bit _
  rw [BitVec.getLsbD_xor]
  cases first.getLsbD bit <;> cases second.getLsbD bit <;> simp [add_self]

theorem ofWord_zero : ofWord 0 = 0 := by simp [ofWord]

theorem ofWord_one : ofWord 1 = 1 := by
  rw [ofWord, Finset.sum_eq_single 0]
  · simp
  · intro bit _ hbit
    simp [BitVec.getLsbD_one, hbit]
  · simp

theorem ofWord_generator : ofWord gf16Generator = alpha ^ 12 + alpha ^ 3 + alpha + 1 := by
  simp only [ofWord, gf16Generator, Finset.sum_range_succ, Finset.sum_range_zero]
  simp
  ring

theorem ofWord_shiftLeft (word : FieldElement) :
    ofWord (word <<< 1) + (if word.getLsbD 15 then alpha ^ 16 else 0) = alpha * ofWord word := by
  have hshifted : ofWord (word <<< 1) =
      ∑ bit ∈ Finset.range 15, if word.getLsbD bit then alpha ^ (bit + 1) else 0 := by
    rw [ofWord, Finset.sum_range_succ']
    simp only [BitVec.getLsbD_shiftLeft]
    rw [show decide (0 < 16) = true by decide, show decide (0 < 1) = true by decide]
    simp only [Bool.not_true, Bool.and_false, Bool.false_and, Bool.false_eq_true, if_false,
      add_zero]
    apply Finset.sum_congr rfl
    intro bit hbit
    have hlt := Finset.mem_range.mp hbit
    simp [show bit + 1 < 16 by omega]
  rw [hshifted, ofWord, Finset.mul_sum, Finset.sum_range_succ _ 15]
  congr 1
  · apply Finset.sum_congr rfl
    intro bit _
    split
    · rw [pow_succ']
    · rw [mul_zero]
  · split
    · rw [← pow_succ']
    · rw [mul_zero]

theorem ofWord_timesAlpha (word : FieldElement) :
    ofWord (timesAlpha word) = alpha * ofWord word := by
  rw [← ofWord_shiftLeft, timesAlpha]
  split
  · rw [ofWord_xor, ofWord_generator, alpha_pow_sixteen]
  · rw [add_zero]

theorem ofWord_expTable : ofWord (expTable exponent) = alpha ^ exponent := by
  induction exponent with
  | zero => exact ofWord_one
  | succ exponent ih => rw [expTable, ofWord_timesAlpha, ih, pow_succ']

noncomputable def bitPolynomial (word : FieldElement) : (ZMod 2)[X] :=
  ∑ bit ∈ Finset.range 16, if word.getLsbD bit then X ^ bit else 0

theorem mk_bitPolynomial (word : FieldElement) :
    AdjoinRoot.mk modulus (bitPolynomial word) = ofWord word := by
  rw [bitPolynomial, ofWord, map_sum]
  apply Finset.sum_congr rfl
  intro bit _
  split
  · rw [map_pow, AdjoinRoot.mk_X]
  · rw [map_zero]

theorem bitPolynomial_natDegree_lt (word : FieldElement) : (bitPolynomial word).natDegree < 16 := by
  have hle : (bitPolynomial word).natDegree ≤ 15 := by
    apply natDegree_sum_le_of_forall_le
    intro bit hbit
    have hlt := Finset.mem_range.mp hbit
    split
    · rw [natDegree_X_pow]
      omega
    · rw [natDegree_zero]
      omega
  omega

theorem bitPolynomial_coeff (word : FieldElement) {bit : ℕ} (hbit : bit < 16) :
    (bitPolynomial word).coeff bit = if word.getLsbD bit then 1 else 0 := by
  rw [bitPolynomial, finsetSum_coeff, Finset.sum_eq_single bit]
  · split
    · rw [coeff_X_pow, if_pos rfl]
    · rw [coeff_zero]
  · intro other _ hother
    split
    · rw [coeff_X_pow, if_neg (Ne.symm hother)]
    · rw [coeff_zero]
  · intro habsent
    exact absurd (Finset.mem_range.mpr hbit) habsent

theorem eq_zero_of_ofWord_eq_zero (hzero : ofWord word = 0) : word = 0 := by
  rw [← mk_bitPolynomial, AdjoinRoot.mk_eq_zero] at hzero
  have hpolynomial : bitPolynomial word = 0 := by
    apply eq_zero_of_dvd_of_natDegree_lt hzero
    rw [modulus_natDegree]
    exact bitPolynomial_natDegree_lt word
  apply BitVec.eq_of_getLsbD_eq
  intro bit hbit
  have hcoeff := bitPolynomial_coeff word hbit
  rw [hpolynomial, coeff_zero] at hcoeff
  by_contra hne
  have hset : word.getLsbD bit = true := by
    simpa using hne
  rw [hset] at hcoeff
  exact absurd hcoeff (by decide)

theorem ofWord_injective : Function.Injective ofWord := by
  intro first second heq
  have hzero : ofWord (first ^^^ second) = 0 := by
    rw [ofWord_xor, heq, add_self]
  exact BitVec.xor_eq_zero_iff.mp (eq_zero_of_ofWord_eq_zero hzero)

theorem ofWord_surjective : Function.Surjective ofWord := by
  intro element
  induction element using AdjoinRoot.induction_on with
  | ih p =>
    induction p using Polynomial.induction_on' with
    | add p q hp hq =>
      obtain ⟨first, hfst⟩ := hp
      obtain ⟨second, hsnd⟩ := hq
      exact ⟨first ^^^ second, by rw [ofWord_xor, hfst, hsnd, map_add]⟩
    | monomial exponent c =>
      have hcases : c = 0 ∨ c = 1 := by
        revert c
        decide
      rcases hcases with rfl | rfl
      · exact ⟨0, by rw [ofWord_zero, monomial_zero_right, map_zero]⟩
      · refine ⟨expTable exponent, ?_⟩
        rw [ofWord_expTable, ← X_pow_eq_monomial, map_pow, AdjoinRoot.mk_X]

/-! ## The order of `alpha` -/

def reducedProduct (first second : FieldElement) : FieldElement :=
  ((List.range 16).foldl
    (fun (acc : FieldElement × FieldElement) bit =>
      (acc.1 ^^^ (if second.getLsbD bit then acc.2 else 0), timesAlpha acc.2)) (0, first)).1

theorem ofWord_reducedProduct (first second : FieldElement) :
    ofWord (reducedProduct first second) = ofWord first * ofWord second := by
  have hloop := Loops.foldl_range_induction
    (motive := fun count (acc : FieldElement × FieldElement) =>
      ofWord acc.1 = ofWord first *
        (∑ bit ∈ Finset.range count, if second.getLsbD bit then alpha ^ bit else 0) ∧
      ofWord acc.2 = alpha ^ count * ofWord first)
    (fun acc bit =>
      (acc.1 ^^^ (if second.getLsbD bit then acc.2 else 0), timesAlpha acc.2))
    16 (0, first) ⟨by rw [ofWord_zero, Finset.range_zero, Finset.sum_empty, mul_zero],
      by rw [pow_zero, one_mul]⟩ (by
      rintro bit ⟨acc, shifted⟩ _ ⟨hacc, hshifted⟩
      refine ⟨?_, ?_⟩
      · rw [ofWord_xor, hacc, Finset.sum_range_succ, mul_add]
        congr 1
        split
        · rw [hshifted, mul_comm]
        · rw [ofWord_zero, mul_zero]
      · rw [ofWord_timesAlpha, hshifted, pow_succ', mul_assoc])
  exact hloop.1

/-- A power of `alpha` by repeated squaring, from the highest bit of the exponent. -/
def alphaPower (bits : List Bool) : FieldElement :=
  bits.foldl
    (fun power bit =>
      if bit then timesAlpha (reducedProduct power power) else reducedProduct power power) 1

def exponentOf (bits : List Bool) : ℕ :=
  bits.foldl (fun exponent bit => if bit then exponent + exponent + 1 else exponent + exponent) 0

theorem ofWord_alphaPower :
    ofWord (alphaPower bits) = alpha ^ exponentOf bits := by
  suffices ∀ power exponent, ofWord power = alpha ^ exponent →
      ofWord (bits.foldl (fun power bit =>
        if bit then timesAlpha (reducedProduct power power) else reducedProduct power power)
        power) = alpha ^ bits.foldl (fun exponent bit =>
          if bit then exponent + exponent + 1 else exponent + exponent) exponent from
    this 1 0 (by rw [ofWord_one, pow_zero])
  induction bits with
  | nil => exact fun power exponent hpower => hpower
  | cons bit bits ih =>
    intro power exponent hpower
    apply ih
    cases bit with
    | true =>
      change ofWord (timesAlpha (reducedProduct power power)) = alpha ^ (exponent + exponent + 1)
      rw [ofWord_timesAlpha, ofWord_reducedProduct, hpower, ← pow_add, pow_succ']
    | false =>
      change ofWord (reducedProduct power power) = alpha ^ (exponent + exponent)
      rw [ofWord_reducedProduct, hpower, ← pow_add]

theorem alpha_pow_ne_one {exponent : ℕ} (hbits : exponentOf bits = exponent)
    (hword : alphaPower bits ≠ 1) : alpha ^ exponent ≠ 1 := by
  rw [← hbits, ← ofWord_alphaPower, ← ofWord_one]
  exact fun heq => hword (ofWord_injective heq)

theorem alpha_pow_order : alpha ^ 65535 = 1 := by
  have hbits : exponentOf (List.replicate 16 true) = 65535 := by decide
  have hword : alphaPower (List.replicate 16 true) = 1 := by decide +kernel
  rw [← hbits, ← ofWord_alphaPower, hword, ofWord_one]

theorem prime_dvd_order {p : ℕ} (hprime : p.Prime) (hdvd : p ∣ 65535) :
    p = 3 ∨ p = 5 ∨ p = 17 ∨ p = 257 := by
  rw [show 65535 = 3 * 5 * 17 * 257 by norm_num] at hdvd
  rcases (hprime.dvd_mul).mp hdvd with hdvd | hdvd
  · rcases (hprime.dvd_mul).mp hdvd with hdvd | hdvd
    · rcases (hprime.dvd_mul).mp hdvd with hdvd | hdvd
      · exact .inl ((Nat.prime_dvd_prime_iff_eq hprime (by norm_num)).mp hdvd)
      · exact .inr (.inl ((Nat.prime_dvd_prime_iff_eq hprime (by norm_num)).mp hdvd))
    · exact .inr (.inr (.inl ((Nat.prime_dvd_prime_iff_eq hprime (by norm_num)).mp hdvd)))
  · exact .inr (.inr (.inr ((Nat.prime_dvd_prime_iff_eq hprime (by norm_num)).mp hdvd)))

theorem orderOf_alpha : orderOf alpha = 65535 := by
  apply orderOf_eq_of_pow_and_pow_div_prime (by norm_num) alpha_pow_order
  intro p hprime hdvd
  rcases prime_dvd_order hprime hdvd with rfl | rfl | rfl | rfl
  · exact alpha_pow_ne_one ((Nat.toDigits 2 21845).map (· = '1')) (by decide)
      (by decide +kernel)
  · exact alpha_pow_ne_one ((Nat.toDigits 2 13107).map (· = '1')) (by decide)
      (by decide +kernel)
  · exact alpha_pow_ne_one ((Nat.toDigits 2 3855).map (· = '1')) (by decide)
      (by decide +kernel)
  · exact alpha_pow_ne_one ((Nat.toDigits 2 255).map (· = '1')) (by decide)
      (by decide +kernel)

theorem expTable_injOn : Set.InjOn expTable (Set.Iio 65535) := by
  intro first hfst second hsnd heq
  have hpow : alpha ^ first = alpha ^ second := by
    rw [← ofWord_expTable, ← ofWord_expTable, heq]
  rw [← orderOf_alpha] at hfst hsnd
  exact pow_injOn_Iio_orderOf hfst hsnd hpow

theorem expTable_ne_zero : expTable exponent ≠ 0 := by
  intro hzero
  have hpow : alpha ^ exponent = 0 := by
    rw [← ofWord_expTable, hzero, ofWord_zero]
  have hone : (alpha ^ exponent) ^ 65535 = 1 := by
    rw [← pow_mul, mul_comm, pow_mul, alpha_pow_order, one_pow]
  rw [hpow, zero_pow (by norm_num)] at hone
  have hword : (0 : FieldElement) = 1 := ofWord_injective (by rw [ofWord_zero, ofWord_one, hone])
  exact absurd hword (by decide)

/-- Every nonzero word is a power of `alpha`: the 65535 distinct powers exhaust them. -/
theorem exists_expTable_eq (hword : word ≠ 0) :
    ∃ exponent, exponent < 65535 ∧ expTable exponent = word := by
  have hmaps : ∀ exponent ∈ Finset.range 65535,
      (expTable exponent).toNat ∈ (Finset.range 65536).erase 0 := by
    intro exponent _
    rw [Finset.mem_erase, Finset.mem_range]
    refine ⟨fun hzero => expTable_ne_zero exponent ?_, (expTable exponent).isLt⟩
    exact BitVec.eq_of_toNat_eq hzero
  have hinj : Set.InjOn (fun exponent => (expTable exponent).toNat) (Finset.range 65535) := by
    intro first hfst second hsnd heq
    exact expTable_injOn (by simpa using hfst) (by simpa using hsnd)
      (BitVec.eq_of_toNat_eq heq)
  have hcard : ((Finset.range 65536).erase 0).card ≤ (Finset.range 65535).card := by
    rw [Finset.card_erase_of_mem (Finset.mem_range.mpr (by norm_num)), Finset.card_range,
      Finset.card_range]
  have hsurj := Finset.surjOn_of_injOn_of_card_le _ hmaps hinj hcard
  have hmem : word.toNat ∈ (Finset.range 65536).erase 0 := by
    rw [Finset.mem_erase, Finset.mem_range]
    exact ⟨fun hzero => hword (BitVec.eq_of_toNat_eq hzero), word.isLt⟩
  obtain ⟨exponent, hexponent, heq⟩ := hsurj hmem
  exact ⟨exponent, by simpa using hexponent, BitVec.eq_of_toNat_eq heq⟩

theorem findLog_spec (word : FieldElement) (fuel exponent : ℕ)
    (hexists : ∃ later, exponent ≤ later ∧ later < exponent + fuel ∧ expTable later = word) :
    expTable (findLog word fuel exponent (expTable exponent)) = word ∧
      findLog word fuel exponent (expTable exponent) < exponent + fuel := by
  induction fuel generalizing exponent with
  | zero =>
    obtain ⟨later, hlower, hupper, -⟩ := hexists
    omega
  | succ fuel ih =>
    rw [findLog]
    by_cases hfound : expTable exponent = word
    · rw [if_pos hfound]
      exact ⟨hfound, by omega⟩
    · rw [if_neg hfound]
      obtain ⟨later, hlower, hupper, hlater⟩ := hexists
      have hne : later ≠ exponent := fun heq => hfound (heq ▸ hlater)
      obtain ⟨hpower, hbound⟩ := ih (exponent + 1) ⟨later, by omega, by omega, hlater⟩
      exact ⟨hpower, by change findLog word fuel (exponent + 1) (expTable (exponent + 1)) < _; omega⟩

theorem expTable_logTable (hword : word ≠ 0) :
    expTable (logTable word) = word ∧ logTable word < 65535 := by
  obtain ⟨exponent, hexponent, heq⟩ := exists_expTable_eq hword
  have hspec := findLog_spec word 65535 0 ⟨exponent, by omega, by omega, heq⟩
  rwa [Nat.zero_add] at hspec

theorem ofWord_eq_alpha_pow (hword : word ≠ 0) : ofWord word = alpha ^ logTable word := by
  rw [← ofWord_expTable, (expTable_logTable hword).1]

theorem quotient_isField : IsField Quotient where
  exists_pair_ne := ⟨ofWord 0, ofWord 1, fun heq => absurd (ofWord_injective heq) (by decide)⟩
  mul_comm := mul_comm
  mul_inv_cancel := by
    intro element hne
    obtain ⟨word, rfl⟩ := ofWord_surjective element
    have hword : word ≠ 0 := fun hzero => hne (by rw [hzero, ofWord_zero])
    have hbound := (expTable_logTable hword).2
    refine ⟨alpha ^ (65535 - logTable word), ?_⟩
    rw [ofWord_eq_alpha_pow hword, ← pow_add, Nat.add_sub_cancel' hbound.le, alpha_pow_order]

noncomputable instance : Field Quotient := quotient_isField.toField

theorem ofWord_mul (x y : FieldElement) : ofWord (gf16.mul x y) = ofWord x * ofWord y := by
  rw [GaloisField16.mul]
  by_cases hzero : x = 0 ∨ y = 0
  · rw [if_pos hzero, ofWord_zero]
    rcases hzero with rfl | rfl
    · rw [ofWord_zero, zero_mul]
    · rw [ofWord_zero, mul_zero]
  · obtain ⟨hx, hy⟩ := not_or.mp hzero
    rw [if_neg hzero, ofWord_eq_alpha_pow hx, ofWord_eq_alpha_pow hy, ← pow_add]
    exact ofWord_expTable _

theorem ofWord_div (x y : FieldElement) (hy : y ≠ 0) :
    ∃ quotient, gf16.div x y = .ok quotient ∧ ofWord quotient = ofWord x / ofWord y := by
  rw [GaloisField16.div, if_neg hy]
  refine ⟨_, rfl, ?_⟩
  by_cases hx : x = 0
  · rw [if_pos hx, hx, ofWord_zero, zero_div]
  · have hbound := (expTable_logTable hy).2
    have hdenominator : ofWord y ≠ 0 := fun hzero => hy (eq_zero_of_ofWord_eq_zero hzero)
    rw [if_neg hx, if_neg hx, eq_div_iff hdenominator, ofWord_eq_alpha_pow hx,
      ofWord_eq_alpha_pow hy]
    change ofWord (expTable (logTable x + 65535 - logTable y)) * _ = _
    rw [ofWord_expTable, ← pow_add, show logTable x + 65535 - logTable y + logTable y =
      logTable x + 65535 by omega, pow_add, alpha_pow_order, mul_one]

theorem gf16_implementsField : gf16.ImplementsField :=
  ⟨Quotient, inferInstance, ⟨{
    toField := ofWord
    injective := ofWord_injective
    map_xor := ofWord_xor
    map_one := ofWord_one
    map_mul := ofWord_mul
    map_div := ofWord_div }⟩⟩

end SignalProtocol.Rs.TableField
