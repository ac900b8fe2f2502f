import Mathlib

/-!
# Bit strings as polynomials over the two-element field

A natural number is read as the polynomial over `ZMod 2` whose coefficients are its bits.
-/

namespace LibSignal.Lib
open Polynomial

noncomputable def bitPoly (w n : Nat) : (ZMod 2)[X] :=
  ∑ i ∈ Finset.range w, if n.testBit i then X ^ i else 0

lemma bitPoly_coeff (w n i : Nat) : (bitPoly w n).coeff i = if i < w ∧ n.testBit i then 1 else 0 := by
  have hterm : ∀ j, (if n.testBit j then (X : (ZMod 2)[X]) ^ j else 0).coeff i
      = if j = i then (if n.testBit i then 1 else 0) else 0 := by
    intro j
    by_cases hji : j = i
    · subst hji
      by_cases hb : n.testBit j <;> simp [hb]
    · by_cases hb : n.testBit j <;> simp [hb, coeff_X_pow, Ne.symm hji, hji]
  rw [bitPoly, finsetSum_coeff, Finset.sum_congr rfl (fun j _ => hterm j)]
  by_cases hi : i < w
  · simp [hi]
  · simp [hi]

@[simp] lemma bitPoly_zero (w : Nat) : bitPoly w 0 = 0 := by
  simp [bitPoly]

lemma bitPoly_succ (w n : Nat) : bitPoly (w + 1) n = bitPoly w n + if n.testBit w then X ^ w else 0 := by
  rw [bitPoly, bitPoly, Finset.sum_range_succ]

lemma bitPoly_degree_lt (w n : Nat) : (bitPoly w n).degree < w := by
  rw [degree_lt_iff_coeff_zero]
  intro m hm
  rw [bitPoly_coeff, if_neg]
  exact fun h => absurd h.1 (Nat.not_lt.mpr hm)

lemma bitPoly_xor (w a b : Nat) : bitPoly w (a ^^^ b) = bitPoly w a + bitPoly w b := by
  ext i
  simp only [coeff_add, bitPoly_coeff, Nat.testBit_xor]
  by_cases hi : i < w
  · cases a.testBit i <;> cases b.testBit i <;> simp [hi]
    decide
  · simp [hi]

lemma bitPoly_shiftLeft {w v a k : Nat} (ha : a < 2 ^ v) (hw : v + k ≤ w) :
    bitPoly w (a <<< k) = X ^ k * bitPoly v a := by
  ext i
  rw [coeff_X_pow_mul', bitPoly_coeff, Nat.testBit_shiftLeft]
  by_cases hk : k ≤ i
  · rw [if_pos hk, bitPoly_coeff]
    by_cases hv : i - k < v
    · have hi : i < w := by omega
      simp [hk, hv, hi]
    · have hbit : a.testBit (i - k) = false :=
        Nat.testBit_lt_two_pow (lt_of_lt_of_le ha (Nat.pow_le_pow_right (by norm_num) (by omega)))
      simp [hv, hbit]
  · simp [hk]

lemma bitPoly_of_lt {w v a : Nat} (ha : a < 2 ^ v) (hw : v ≤ w) : bitPoly w a = bitPoly v a := by
  have h := bitPoly_shiftLeft (w := w) (k := 0) ha (by omega)
  simpa using h

lemma bitPoly_injOn {w a b : Nat} (ha : a < 2 ^ w) (hb : b < 2 ^ w)
    (h : bitPoly w a = bitPoly w b) : a = b := by
  apply Nat.eq_of_testBit_eq
  intro i
  by_cases hi : i < w
  · have hc := congrArg (fun p => coeff p i) h
    simp only [bitPoly_coeff, hi, true_and] at hc
    cases ha' : a.testBit i <;> cases hb' : b.testBit i <;> simp [ha', hb'] at hc ⊢
  · have hpow : 2 ^ w ≤ 2 ^ i := Nat.pow_le_pow_right (by norm_num) (by omega)
    rw [Nat.testBit_lt_two_pow (lt_of_lt_of_le ha hpow), Nat.testBit_lt_two_pow (lt_of_lt_of_le hb hpow)]

end LibSignal.Lib
