import LibSignal.Lib.BitPoly

/-!
# 64-bit words as polynomials over the two-element field

The coefficients of a polynomial below `X ^ 64` are the bits of a word, and those of a longer one are the bits
of a list of words, lowest first (`limbsPoly`).
-/

namespace LibSignal.Lib
open Polynomial

noncomputable def wordPoly (x : UInt64) : (ZMod 2)[X] := bitPoly 64 x.toNat

lemma wordPoly_coeff (x : UInt64) (i : Nat) :
    (wordPoly x).coeff i = if i < 64 ∧ x.toNat.testBit i then 1 else 0 := bitPoly_coeff 64 x.toNat i

@[simp] lemma wordPoly_zero : wordPoly 0 = 0 := bitPoly_zero 64

lemma wordPoly_xor (x y : UInt64) : wordPoly (x ^^^ y) = wordPoly x + wordPoly y := by
  rw [wordPoly, UInt64.toNat_xor, bitPoly_xor]
  rfl

variable {i : Nat}

lemma toNat_shiftLeft64 (x : UInt64) (hi : i < 64) : (x <<< i.toUInt64).toNat = x.toNat <<< i % 2 ^ 64 := by
  have hmod : i.toUInt64.toNat % 64 = i := by
    show i % 2 ^ 64 % 64 = i
    omega
  rw [UInt64.toNat_shiftLeft, hmod]

lemma toNat_shiftRight64 (x : UInt64) (hi : i < 64) : (x >>> i.toUInt64).toNat = x.toNat >>> i := by
  have hmod : i.toUInt64.toNat % 64 = i := by
    show i % 2 ^ 64 % 64 = i
    omega
  rw [UInt64.toNat_shiftRight, hmod]

lemma wordPoly_shift (x : UInt64) (hpos : 0 < i) (hi : i < 64) :
    wordPoly (x <<< i.toUInt64) + X ^ 64 * wordPoly (x >>> (64 - i).toUInt64) = X ^ i * wordPoly x := by
  ext j
  rw [coeff_add, coeff_X_pow_mul', coeff_X_pow_mul', wordPoly_coeff, wordPoly_coeff, wordPoly_coeff,
    toNat_shiftLeft64 x hi, toNat_shiftRight64 x (by omega), Nat.testBit_mod_two_pow,
    Nat.testBit_shiftLeft, Nat.testBit_shiftRight]
  have hhigh : 64 ≤ j → 64 - i + (j - 64) = j - i := by omega
  -- below the first word boundary only the left shift counts, above it only the right shift
  by_cases hlow : j < 64
  · by_cases hij : i ≤ j
    · have hsub : j - i < 64 := by omega
      simp [hlow, hij, hsub, Nat.not_le.mpr hlow]
    · simp [hij, Nat.not_le.mpr hlow]
  · have hj : 64 ≤ j := Nat.not_lt.mp hlow
    have hij : i ≤ j := by omega
    rw [hhigh hj]
    by_cases hsub : j - i < 64
    · have hbit : j - 64 < 64 := by omega
      simp [hlow, hj, hij, hsub, hbit]
    · have hbit : x.toNat.testBit (j - i) = false :=
        Nat.testBit_lt_two_pow (lt_of_lt_of_le x.toNat_lt (Nat.pow_le_pow_right (by norm_num) (by omega)))
      simp [hlow, hbit]

lemma shiftRight_and_one (x : UInt64) (hi : i < 64) :
    (x >>> i.toUInt64) &&& 1 = if x.toNat.testBit i then 1 else 0 := by
  rw [← UInt64.toNat_inj, UInt64.toNat_and, toNat_shiftRight64 x hi]
  show x.toNat >>> i &&& 1 = _
  rw [Nat.and_one_is_mod, Nat.testBit_eq_decide_div_mod_eq, ← Nat.shiftRight_eq_div_pow]
  rcases Nat.mod_two_eq_zero_or_one (x.toNat >>> i) with h | h <;> simp [h]

lemma and_zero_sub (v : UInt64) (b : Bool) : v &&& (0 - (if b then 1 else 0)) = if b then v else 0 := by
  cases b with
  | false => simp
  | true =>
    have hones : (0 - 1 : UInt64) = -1 := rfl
    simp [hones]

lemma wordPoly_bit {b : Bool} {k : Nat} (hk : k < 64) :
    wordPoly ((if b then 1 else 0) <<< k.toUInt64) = if b then X ^ k else 0 := by
  cases b with
  | false => simp
  | true =>
    ext j
    rw [if_pos rfl, if_pos rfl, wordPoly_coeff, toNat_shiftLeft64 1 hk, coeff_X_pow, Nat.testBit_mod_two_pow]
    show (if j < 64 ∧ (decide (j < 64) && (1 <<< k).testBit j) = true then (1 : ZMod 2) else 0) = _
    rw [Nat.one_shiftLeft, Nat.testBit_two_pow]
    by_cases hj : j = k
    · subst hj
      simp [hk]
    · simp [hj, Ne.symm hj]

noncomputable def limbsPoly : List UInt64 → (ZMod 2)[X]
  | [] => 0
  | w :: ws => wordPoly w + X ^ 64 * limbsPoly ws

lemma limbsPoly_coeff (ws : List UInt64) (i : Nat) :
    (limbsPoly ws).coeff i = if (ws.getD (i / 64) 0).toNat.testBit (i % 64) then 1 else 0 := by
  induction ws generalizing i with
  | nil => simp [limbsPoly]
  | cons w ws ih =>
    rw [limbsPoly, coeff_add, coeff_X_pow_mul', wordPoly_coeff]
    by_cases hi : i < 64
    · simp [hi, Nat.div_eq_of_lt hi, Nat.mod_eq_of_lt hi, Nat.not_le.mpr hi]
    · have hle : 64 ≤ i := Nat.not_lt.mp hi
      have hdiv : i / 64 = (i - 64) / 64 + 1 := by omega
      have hmod : i % 64 = (i - 64) % 64 := by omega
      rw [if_pos hle, ih, hdiv, hmod, List.getD_cons_succ]
      simp [hi]

lemma limbsPoly_set (ws : List UInt64) {n : Nat} (hn : n < ws.length) (d : UInt64) :
    limbsPoly (ws.set n (ws.getD n 0 ^^^ d)) = limbsPoly ws + X ^ (64 * n) * wordPoly d := by
  induction ws generalizing n with
  | nil => exact absurd hn (Nat.not_lt_zero n)
  | cons w ws ih =>
    cases n with
    | zero =>
      rw [List.set_cons_zero, List.getD_cons_zero, limbsPoly, limbsPoly, wordPoly_xor]
      ring
    | succ n =>
      rw [List.set_cons_succ, List.getD_cons_succ, limbsPoly, limbsPoly, ih (Nat.lt_of_succ_lt_succ hn)]
      ring

lemma limbsPoly_flip (ws : List UInt64) {p : Nat} (hp : p < 64 * ws.length) (b : Bool) :
    limbsPoly (ws.set (p / 64) (ws.getD (p / 64) 0 ^^^ ((if b then 1 else 0) <<< (p % 64).toUInt64))) =
      limbsPoly ws + if b then X ^ p else 0 := by
  rw [limbsPoly_set ws (by omega), wordPoly_bit (by omega)]
  cases b with
  | false => simp
  | true => rw [if_pos rfl, if_pos rfl, ← pow_add, Nat.div_add_mod]

end LibSignal.Lib
