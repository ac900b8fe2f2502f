import LibSignal.Crypto.GcmSiv
import LibSignal.Lib.WordPoly

/-!
# The algebra of POLYVAL

What the limb arithmetic of `polyval.go` computes, as polynomials over the two-element field.
-/

namespace LibSignal.Crypto
open Chunked (Bytes)
open Lib Polynomial

namespace FieldElement

noncomputable def toPoly (e : FieldElement) : (ZMod 2)[X] := bitPoly 128 (e.lo.toNat + 2 ^ 64 * e.hi.toNat)

lemma toPoly_eq (e : FieldElement) : e.toPoly = wordPoly e.lo + X ^ 64 * wordPoly e.hi := by
  ext j
  have hlo := e.lo.toNat_lt
  rw [toPoly, bitPoly_coeff, coeff_add, coeff_X_pow_mul', wordPoly_coeff, wordPoly_coeff, Nat.add_comm,
    Nat.testBit_two_pow_mul_add _ hlo]
  by_cases hj : j < 64
  · simp [hj, Nat.not_le.mpr hj, show j < 128 by omega]
  · have hle : 64 ≤ j := Nat.not_lt.mp hj
    simp [hj, hle, show j < 128 ↔ j - 64 < 64 by omega]

lemma toPoly_xor (a b : FieldElement) : toPoly ⟨a.lo ^^^ b.lo, a.hi ^^^ b.hi⟩ = a.toPoly + b.toPoly := by
  rw [toPoly_eq, toPoly_eq, toPoly_eq, wordPoly_xor, wordPoly_xor]
  ring

lemma toPoly_degree (e : FieldElement) : e.toPoly.degree < 128 := bitPoly_degree_lt 128 _

noncomputable def pairPoly (p : UInt64 × UInt64) : (ZMod 2)[X] := wordPoly p.2 + X ^ 64 * wordPoly p.1

lemma clmulStep_spec (x y : UInt64) (acc : UInt64 × UInt64) {i : Nat} (hi : i < 64) :
    pairPoly (clmulStep x y acc i) = pairPoly acc + (if y.toNat.testBit i then X ^ i else 0) * wordPoly x := by
  rw [clmulStep, shiftRight_and_one y hi, and_zero_sub, and_zero_sub]
  cases hbit : y.toNat.testBit i with
  | false => by_cases hzero : i = 0 <;> simp [hzero, pairPoly]
  | true =>
    by_cases hzero : i = 0
    · subst hzero
      have hshift : x <<< (0 : Nat).toUInt64 = x := by simp
      simp only [if_true, hshift, pairPoly, wordPoly_xor, pow_zero]
      ring
    · simp only [if_true, if_neg hzero, pairPoly, wordPoly_xor,
        ← wordPoly_shift x (Nat.pos_of_ne_zero hzero) hi]
      ring

lemma clmul64_spec (x y : UInt64) : pairPoly (clmul64 x y) = wordPoly x * wordPoly y := by
  -- after `n` rounds the low `n` bits of `y` have been used
  have hfold : ∀ n ≤ 64, pairPoly ((List.range n).foldl (clmulStep x y) (0, 0)) =
      bitPoly n y.toNat * wordPoly x := by
    intro n hn
    induction n with
    | zero => simp [pairPoly, bitPoly]
    | succ n ih =>
      rw [List.range_succ, List.foldl_append, List.foldl_cons, List.foldl_nil,
        clmulStep_spec x y _ (by omega), ih (by omega), bitPoly_succ, add_mul]
  rw [clmul64, hfold 64 (le_refl _), mul_comm]
  rfl

lemma limbsPoly_clmul128 (a b : FieldElement) : limbsPoly (clmul128 a b) = a.toPoly * b.toPoly := by
  have h0 := clmul64_spec a.lo b.lo
  have h1 := clmul64_spec a.hi b.hi
  have hm := clmul64_spec (a.lo ^^^ a.hi) (b.lo ^^^ b.hi)
  rw [clmul128]
  generalize clmul64 a.lo b.lo = p0 at h0 ⊢
  generalize clmul64 a.hi b.hi = p1 at h1 ⊢
  generalize clmul64 (a.lo ^^^ a.hi) (b.lo ^^^ b.hi) = pm at hm ⊢
  simp only [pairPoly, wordPoly_xor] at h0 h1 hm
  simp only [limbsPoly, wordPoly_xor, toPoly_eq]
  have htwo : (2 : (ZMod 2)[X]) = 0 := CharTwo.two_eq_zero
  linear_combination (1 + X ^ 64) * h0 + X ^ 64 * hm + (X ^ 64 + X ^ 128) * h1 +
    X ^ 64 * (wordPoly a.lo * wordPoly b.lo + wordPoly a.hi * wordPoly b.hi) * htwo

/-! ## The reduction -/

@[irreducible] noncomputable def polyvalModulus : (ZMod 2)[X] := X ^ 128 + X ^ 127 + X ^ 126 + X ^ 121 + 1

lemma polyvalModulus_degree : polyvalModulus.degree = 128 := by
  unfold polyvalModulus
  compute_degree!

lemma polyvalModulus_monic : polyvalModulus.Monic := by
  unfold polyvalModulus
  monicity!

variable {z : List UInt64}

lemma limbsPoly_flipBit {p : Nat} (hp : p < 64 * z.length) (b : Bool) :
    limbsPoly (flipBit z p (if b then 1 else 0)) = limbsPoly z + if b then X ^ p else 0 :=
  limbsPoly_flip z hp b

@[simp] lemma length_flipBit (z : List UInt64) (p : Nat) (bit : UInt64) : (flipBit z p bit).length = z.length :=
  List.length_set

@[simp] lemma length_reduceStep (z : List UInt64) (j : Nat) : (reduceStep z j).length = z.length := by
  simp [reduceStep]

lemma add_shifted_modulus (p : (ZMod 2)[X]) (m : Nat) :
    p + X ^ (m + 128) + X ^ (m + 127) + X ^ (m + 126) + X ^ (m + 121) + X ^ (m + 0) =
      p + X ^ m * polyvalModulus := by
  unfold polyvalModulus
  simp only [mul_add, ← pow_add, mul_one, add_zero, add_assoc]

lemma reduceStep_spec (hz : z.length = 4) {j : Nat} (hj : j < 128) : limbsPoly (reduceStep z j) =
      limbsPoly z + C ((limbsPoly z).coeff (255 - j)) * (X ^ (127 - j) * polyvalModulus) := by
  have hword : (255 - j) / 64 < 4 ∧ (255 - j) % 64 < 64 := by omega
  rw [limbsPoly_coeff, reduceStep]
  simp only [List.foldl_cons, List.foldl_nil]
  rw [shiftRight_and_one _ hword.2]
  generalize ((z.getD ((255 - j) / 64) 0).toNat.testBit ((255 - j) % 64)) = b
  rw [limbsPoly_flipBit (by simp [hz]; omega), limbsPoly_flipBit (by simp [hz]; omega),
    limbsPoly_flipBit (by simp [hz]; omega), limbsPoly_flipBit (by simp [hz]; omega),
    limbsPoly_flipBit (by simp [hz]; omega)]
  cases b with
  | false => simp only [Bool.false_eq_true, if_false, add_zero, map_zero, zero_mul]
  | true =>
    have hbase : 255 - j - 128 = 127 - j := by omega
    rw [hbase, show 255 - j = 127 - j + 128 by omega]
    simp only [if_true, map_one, one_mul]
    exact add_shifted_modulus (limbsPoly z) (127 - j)

lemma reduceStep_degree (hz : z.length = 4) {j : Nat} (hj : j < 128)
    (hdeg : (limbsPoly z).degree < (256 - j : Nat)) :
    (limbsPoly (reduceStep z j)).degree < (256 - (j + 1) : Nat) := by
  rw [degree_lt_iff_coeff_zero] at hdeg ⊢
  intro i hi
  have hmodulus : ∀ n, 128 < n → polyvalModulus.coeff n = 0 := fun n hn =>
    coeff_eq_zero_of_degree_lt (by rw [polyvalModulus_degree]; exact_mod_cast hn)
  have hlead : polyvalModulus.coeff 128 = 1 := by
    have hdegree : polyvalModulus.natDegree = 128 := natDegree_eq_of_degree_eq_some polyvalModulus_degree
    rw [← hdegree]
    exact polyvalModulus_monic
  rw [reduceStep_spec hz hj, coeff_add, coeff_C_mul, coeff_X_pow_mul', if_pos (by omega)]
  by_cases htop : i = 255 - j
  · subst htop
    rw [show 255 - j - (127 - j) = 128 by omega, hlead, mul_one]
    exact CharTwo.add_self_eq_zero _
  · rw [hdeg i (by omega), hmodulus _ (by omega), mul_zero, add_zero]

lemma foldl_reduceStep (hz : z.length = 4) {n : Nat} (hn : n ≤ 128) :
    ((List.range n).foldl reduceStep z).length = 4 ∧
    polyvalModulus ∣ limbsPoly z - limbsPoly ((List.range n).foldl reduceStep z) ∧
      (limbsPoly ((List.range n).foldl reduceStep z)).degree < (256 - n : Nat) := by
  induction n with
  | zero =>
    refine ⟨hz, by simp, ?_⟩
    rw [degree_lt_iff_coeff_zero]
    intro i hi
    have hout : z.getD (i / 64) 0 = 0 := List.getD_eq_default _ _ (by rw [hz]; omega)
    rw [List.range_zero, List.foldl_nil, limbsPoly_coeff, hout]
    simp
  | succ n ih =>
    obtain ⟨hlen, hdvd, hdeg⟩ := ih (by omega)
    rw [List.range_succ, List.foldl_append, List.foldl_cons, List.foldl_nil]
    refine ⟨by rw [length_reduceStep, hlen], ?_, reduceStep_degree hlen (by omega) hdeg⟩
    rw [reduceStep_spec hlen (by omega), sub_add_eq_sub_sub]
    exact dvd_sub hdvd (Dvd.dvd.mul_left (Dvd.intro_left _ rfl) _)

lemma toPoly_reduce (hz : z.length = 4) : (reduce z).toPoly = limbsPoly z %ₘ polyvalModulus := by
  obtain ⟨hlen, hdvd, hdeg⟩ := foldl_reduceStep hz (le_refl 128)
  rw [reduce]
  generalize (List.range 128).foldl reduceStep z = r at hlen hdvd hdeg ⊢
  obtain ⟨r0, r1, rest, rfl⟩ : ∃ r0 r1 rest, r = r0 :: r1 :: rest := by
    rcases r with _ | ⟨r0, _ | ⟨r1, rest⟩⟩
    · cases hlen
    · cases hlen
    · exact ⟨r0, r1, rest, rfl⟩
  -- the upper words are cleared
  have hrest : limbsPoly rest = 0 := by
    ext i
    have hzero := (degree_lt_iff_coeff_zero _ _).mp hdeg (i + 128) (by omega)
    rw [limbsPoly_coeff, show (i + 128) / 64 = i / 64 + 1 + 1 by omega,
      show (i + 128) % 64 = i % 64 by omega, List.getD_cons_succ, List.getD_cons_succ] at hzero
    rw [limbsPoly_coeff, hzero, coeff_zero]
  have hpoly : toPoly ⟨r0, r1⟩ = limbsPoly (r0 :: r1 :: rest) := by
    rw [toPoly_eq, limbsPoly, limbsPoly, hrest]
    ring
  have hlow : (toPoly ⟨r0, r1⟩).degree < polyvalModulus.degree := by
    rw [polyvalModulus_degree]
    exact toPoly_degree _
  rw [← hpoly] at hdvd
  have hmod := (modByMonic_eq_zero_iff_dvd polyvalModulus_monic).mpr hdvd
  rw [sub_modByMonic, (modByMonic_eq_self_iff polyvalModulus_monic).mpr hlow, sub_eq_zero] at hmod
  exact hmod.symm

lemma toPoly_mul (a b : FieldElement) : (a.mul b).toPoly = (a.toPoly * b.toPoly) %ₘ polyvalModulus := by
  rw [mul, toPoly_reduce rfl, limbsPoly_clmul128]

abbrev Residue : Type := AdjoinRoot polyvalModulus

noncomputable def residue (e : FieldElement) : Residue := AdjoinRoot.mk polyvalModulus e.toPoly

lemma residue_mul (a b : FieldElement) : (a.mul b).residue = a.residue * b.residue := by
  rw [residue, residue, residue, toPoly_mul, ← map_mul, AdjoinRoot.mk_eq_mk, modByMonic_eq_sub_mul_div,
    sub_sub_cancel_left, dvd_neg]
  exact Dvd.intro _ rfl

def xPow128 : FieldElement := ⟨1, 0xC200000000000000⟩

lemma xPow128_mul : xPow128.mul xInv128 = ⟨1, 0⟩ := by decide +kernel

lemma wordPoly_one_shift {k : Nat} (hk : k < 64) : wordPoly (1 <<< k.toUInt64) = X ^ k :=
  wordPoly_bit (b := true) hk

lemma wordPoly_one : wordPoly 1 = 1 := by
  have hshift : (1 : UInt64) <<< (0 : Nat).toUInt64 = 1 := by decide
  have hpow := wordPoly_one_shift (show 0 < 64 by decide)
  rwa [hshift, pow_zero] at hpow

lemma residue_xPow128 : xPow128.residue = AdjoinRoot.root polyvalModulus ^ 128 := by
  have hhigh : xPow128.hi =
      (1 <<< (63 : Nat).toUInt64) ^^^ (1 <<< (62 : Nat).toUInt64) ^^^ (1 <<< (57 : Nat).toUInt64) := by decide
  have hlow : xPow128.lo = 1 := rfl
  have htwo : (2 : (ZMod 2)[X]) = 0 := CharTwo.two_eq_zero
  have hsum : xPow128.toPoly = polyvalModulus + X ^ 128 := by
    rw [toPoly_eq, hhigh, hlow, wordPoly_one, wordPoly_xor, wordPoly_xor, wordPoly_one_shift (by decide),
      wordPoly_one_shift (by decide), wordPoly_one_shift (by decide)]
    unfold polyvalModulus
    linear_combination -X ^ 128 * htwo
  rw [residue, hsum, map_add, AdjoinRoot.mk_self, zero_add, map_pow, AdjoinRoot.mk_X]

lemma residue_one : residue ⟨1, 0⟩ = 1 := by
  have hone : toPoly ⟨1, 0⟩ = 1 := by
    rw [toPoly_eq, wordPoly_one, wordPoly_zero, mul_zero, add_zero]
  rw [residue, hone, map_one]

lemma root_pow_mul_xInv128 : AdjoinRoot.root polyvalModulus ^ 128 * xInv128.residue = 1 := by
  rw [← residue_xPow128, ← residue_mul, xPow128_mul, residue_one]

noncomputable def xUnit : Residueˣ :=
  Units.mkOfMulEqOne (AdjoinRoot.root polyvalModulus)
    (AdjoinRoot.root polyvalModulus ^ 127 * xInv128.residue)
    (by rw [← mul_assoc, ← pow_succ', root_pow_mul_xInv128])

lemma residue_xInv128 : xInv128.residue = ↑(xUnit ^ (-128 : ℤ)) := by
  have hinv : ((xUnit ^ 128 : Residueˣ) : Residue) * xInv128.residue = 1 := by
    rw [Units.val_pow_eq_pow_val]
    exact root_pow_mul_xInv128
  have hzpow : xUnit ^ (-128 : ℤ) = (xUnit ^ 128)⁻¹ := by
    rw [zpow_neg]
    rfl
  rw [hzpow, Units.inv_eq_of_mul_eq_one_right hinv]

lemma residue_dot (a b : FieldElement) : (a.dot b).residue = a.residue * b.residue * ↑(xUnit ^ (-128 : ℤ)) := by
  rw [dot, residue_mul, residue_mul, residue_xInv128]

end FieldElement

/-! ## POLYVAL -/

open FieldElement

lemma toPoly_bytesToFieldElement {b : Bytes} (hb : b.length = 16) :
    (bytesToFieldElement b).toPoly = bitPoly 128 (ofLe b) := by
  have hlimb : ∀ l : Bytes, l.length = 8 → (ofLe l).toUInt64.toNat = ofLe l := by
    intro l hl
    have hlt := ofLe_lt l
    rw [hl] at hlt
    exact Nat.mod_eq_of_lt hlt
  have hlo : (b.take 8).length = 8 := by rw [List.length_take, hb]; rfl
  have hhi : ((b.drop 8).take 8).length = 8 := by rw [List.length_take, List.length_drop, hb]; rfl
  have hdrop : (b.drop 8).take 8 = b.drop 8 := List.take_of_length_le (by rw [List.length_drop, hb])
  rw [toPoly, bytesToFieldElement, le64, le64, hlimb _ hlo, hlimb _ hhi, hdrop]
  have hsplit := ofLe_append (b.take 8) (b.drop 8)
  rw [List.take_append_drop, hlo, show 256 ^ 8 = 2 ^ 64 by norm_num] at hsplit
  rw [hsplit]

lemma residue_polyvalLoop (h : FieldElement) (blocks : List Bytes) (hblocks : ∀ b ∈ blocks, b.length = 16)
    (acc : FieldElement) : (polyvalLoop h blocks.length acc blocks.flatten).residue =
      acc.residue * (h.residue * ↑(xUnit ^ (-128 : ℤ))) ^ blocks.length +
        ∑ i ∈ Finset.range blocks.length, (bytesToFieldElement (blocks.getD i [])).residue *
          (h.residue * ↑(xUnit ^ (-128 : ℤ))) ^ (blocks.length - i) := by
  induction blocks generalizing acc with
  | nil => simp [polyvalLoop]
  | cons b bs ih =>
    rw [List.forall_mem_cons] at hblocks
    have hlong : 16 ≤ (b ++ bs.flatten).length := by
      rw [List.length_append, hblocks.1]
      exact Nat.le_add_right _ _
    rw [List.length_cons, List.flatten_cons, polyvalLoop, if_pos hlong, List.take_left' hblocks.1,
      List.drop_left' hblocks.1, ih hblocks.2, residue_dot, Finset.sum_range_succ']
    simp only [List.getD_cons_succ, List.getD_cons_zero, Nat.add_sub_add_right, Nat.sub_zero]
    have hsum : residue ⟨acc.lo ^^^ (bytesToFieldElement b).lo, acc.hi ^^^ (bytesToFieldElement b).hi⟩ =
        acc.residue + (bytesToFieldElement b).residue := by
      rw [residue, toPoly_xor, map_add]
      rfl
    rw [hsum]
    ring

lemma length_flatten_blocks {blocks : List Bytes} (hblocks : ∀ b ∈ blocks, b.length = 16) :
    blocks.flatten.length = 16 * blocks.length := by
  induction blocks with
  | nil => rfl
  | cons b bs ih =>
    rw [List.forall_mem_cons] at hblocks
    rw [List.flatten_cons, List.length_append, hblocks.1, ih hblocks.2, List.length_cons]
    omega

/-- POLYVAL matches its algebraic definition: `mul` is the product modulo the reducing polynomial, `dot`
multiplies that by `x ^ -128`, and `polyval` is the sum of the blocks by the powers of the key, each factor
by `x ^ -128`. -/
theorem polyval_algebra : (∀ a b : FieldElement, (a.mul b).toPoly = (a.toPoly * b.toPoly) %ₘ polyvalModulus) ∧
    (∀ a b : FieldElement, (a.dot b).residue = (a.mul b).residue * ↑(xUnit ^ (-128 : ℤ))) ∧
    ∀ (h : FieldElement) (blocks : List Bytes), (∀ b ∈ blocks, b.length = 16) →
      (polyval h blocks.flatten).residue = ∑ i ∈ Finset.range blocks.length,
          AdjoinRoot.mk polyvalModulus (bitPoly 128 (ofLe (blocks.getD i []))) *
            h.residue ^ (blocks.length - i) * ↑(xUnit ^ (-128 * (blocks.length - i : ℕ) : ℤ)) := by
  refine ⟨toPoly_mul, fun a b => ?_, fun h blocks hblocks => ?_⟩
  · rw [residue_dot, residue_mul]
  · have hlength : blocks.flatten.length / 16 = blocks.length := by
      rw [length_flatten_blocks hblocks]
      exact Nat.mul_div_cancel_left _ (by decide)
    have hzero : residue ⟨0, 0⟩ = 0 := by
      rw [residue, toPoly_eq, wordPoly_zero, mul_zero, add_zero, map_zero]
    rw [polyval, hlength, residue_polyvalLoop h blocks hblocks, hzero, zero_mul, zero_add]
    refine Finset.sum_congr rfl fun i hi => ?_
    have hb : (blocks.getD i []).length = 16 := by
      rw [List.getD_eq_getElem _ _ (Finset.mem_range.mp hi)]
      exact hblocks _ (List.getElem_mem _)
    rw [residue, toPoly_bytesToFieldElement hb, mul_pow, mul_assoc, zpow_mul, zpow_natCast,
      Units.val_pow_eq_pow_val]

/-- The theorem on two blocks. -/
theorem polyval_algebra_two : (∀ b ∈ [zeros 16, 1 :: zeros 15], b.length = 16) ∧
    (polyval xPow128 [zeros 16, 1 :: zeros 15].flatten).residue = ∑ i ∈ Finset.range 2,
        AdjoinRoot.mk polyvalModulus (bitPoly 128 (ofLe ([zeros 16, 1 :: zeros 15].getD i []))) *
          xPow128.residue ^ (2 - i) * ↑(xUnit ^ (-128 * (2 - i : ℕ) : ℤ)) :=
  ⟨by decide, polyval_algebra.2.2 xPow128 [zeros 16, 1 :: zeros 15] (by decide)⟩

end LibSignal.Crypto
