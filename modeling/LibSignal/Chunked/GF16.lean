import LibSignal.Lib.BitPoly

/-!
# The field `GF(2^16)` of the chunk code

Model of `internal/spqr/chunked/gf.go`: carryless multiplication of 16-bit words, reduction modulo `x^16 +
x^12 + x^3 + x + 1` and division by the Fermat power.
-/

namespace LibSignal.Chunked
open Polynomial Lib

/-- The reducing polynomial of the source, `x^16 + x^12 + x^3 + x + 1`. -/
def gfPoly : UInt32 := 0x1100b

@[ext]
structure GF16 where
  value : UInt16
deriving DecidableEq, Repr

def polyMulStep (a b : UInt16) (acc : UInt32) (shift : Nat) : UInt32 :=
  if b &&& (1 <<< shift.toUInt16) ≠ 0 then acc ^^^ (a.toUInt32 <<< shift.toUInt32) else acc

def polyMul (a b : UInt16) : UInt32 :=
  (List.range 16).foldl (polyMulStep a b) 0

def gfReduceStep (v : UInt32) (k : Nat) : UInt32 :=
  if v &&& (1 <<< (31 - k).toUInt32) ≠ 0 then v ^^^ (gfPoly <<< (15 - k).toUInt32) else v

def gfReduce (v : UInt32) : UInt16 :=
  ((List.range 16).foldl gfReduceStep v).toUInt16

def gfMul (a b : UInt16) : UInt16 :=
  gfReduce (polyMul a b)

def gfDivStep (s : UInt16 × UInt16) : UInt16 × UInt16 :=
  (gfMul s.2 s.1, gfMul s.2 s.2)

def gfDiv (a b : UInt16) : UInt16 :=
  (gfDivStep^[15] (a, gfMul b b)).1

namespace GF16

instance : Zero GF16 := ⟨⟨0⟩⟩
instance : One GF16 := ⟨⟨1⟩⟩
instance : Inhabited GF16 := ⟨0⟩

instance : Add GF16 := ⟨fun a b => ⟨a.value ^^^ b.value⟩⟩

instance : Sub GF16 := ⟨fun a b => ⟨a.value ^^^ b.value⟩⟩

instance : Neg GF16 := ⟨fun a => a⟩

instance : Mul GF16 := ⟨fun a b => ⟨gfMul a.value b.value⟩⟩

instance : Div GF16 := ⟨fun a b => ⟨gfDiv a.value b.value⟩⟩

end GF16

/-! ## The product as a product of polynomials -/

noncomputable def modulus : (ZMod 2)[X] := X ^ 16 + X ^ 12 + X ^ 3 + X + 1

lemma bitPoly_gfPoly : bitPoly 17 gfPoly.toNat = modulus := by
  have h : gfPoly.toNat = 0x1100b := by decide
  rw [h, bitPoly, modulus]
  simp [Finset.sum_range_succ, Nat.testBit, Nat.shiftRight_eq_div_pow]
  ring

lemma modulus_degree : modulus.degree = 16 := by
  unfold modulus
  compute_degree!

variable {k : Nat}

lemma and_mask32_ne_zero (v : UInt32) (hk : k < 32) : v &&& (1 <<< k.toUInt32) ≠ 0 ↔ v.toNat.testBit k := by
  have hmask : (v &&& (1 <<< k.toUInt32)).toNat = v.toNat &&& 2 ^ k := by
    have hk' : k % 4294967296 = k := Nat.mod_eq_of_lt (by omega)
    have hp : 2 ^ k < 4294967296 := by
      calc 2 ^ k ≤ 2 ^ 31 := Nat.pow_le_pow_right (by norm_num) (by omega)
        _ < 4294967296 := by norm_num
    simp [UInt32.toNat_and, UInt32.toNat_shiftLeft, Nat.shiftLeft_eq, Nat.toUInt32,
      hk', Nat.mod_eq_of_lt hk, Nat.mod_eq_of_lt hp]
  rw [ne_eq, ← UInt32.toNat_inj, hmask, UInt32.toNat_zero, Nat.and_two_pow]
  cases v.toNat.testBit k <;> simp

lemma and_mask16_ne_zero (v : UInt16) (hk : k < 16) : v &&& (1 <<< k.toUInt16) ≠ 0 ↔ v.toNat.testBit k := by
  have hmask : (v &&& (1 <<< k.toUInt16)).toNat = v.toNat &&& 2 ^ k := by
    have hk' : k % 65536 = k := Nat.mod_eq_of_lt (by omega)
    have hp : 2 ^ k < 65536 := by
      calc 2 ^ k ≤ 2 ^ 15 := Nat.pow_le_pow_right (by norm_num) (by omega)
        _ < 65536 := by norm_num
    simp [UInt16.toNat_and, UInt16.toNat_shiftLeft, Nat.shiftLeft_eq, Nat.toUInt16,
      hk', Nat.mod_eq_of_lt hk, Nat.mod_eq_of_lt hp]
  rw [ne_eq, ← UInt16.toNat_inj, hmask, UInt16.toNat_zero, Nat.and_two_pow]
  cases v.toNat.testBit k <;> simp

lemma toNat_shiftLeft32 {v : UInt32} {w : Nat} (hv : v.toNat < 2 ^ w) (hw : w + k ≤ 32) (hk : k < 32) :
    (v <<< k.toUInt32).toNat = v.toNat <<< k := by
  have hk' : k % 4294967296 = k := Nat.mod_eq_of_lt (by omega)
  have hlt : v.toNat <<< k < 4294967296 := by
    rw [Nat.shiftLeft_eq]
    calc v.toNat * 2 ^ k < 2 ^ w * 2 ^ k := Nat.mul_lt_mul_of_pos_right hv (by positivity)
      _ = 2 ^ (w + k) := (pow_add 2 w k).symm
      _ ≤ 2 ^ 32 := Nat.pow_le_pow_right (by norm_num) hw
  simp [UInt32.toNat_shiftLeft, Nat.toUInt32, hk', Nat.mod_eq_of_lt hk, Nat.mod_eq_of_lt hlt]

lemma polyMulStep_spec (a b : UInt16) (acc : UInt32) (hk : k < 16) : bitPoly 32 (polyMulStep a b acc k).toNat
      = bitPoly 32 acc.toNat + (if b.toNat.testBit k then X ^ k else 0) * bitPoly 16 a.toNat := by
  have ha : a.toUInt32.toNat < 2 ^ 16 := by simpa using a.toNat_lt
  unfold polyMulStep
  by_cases hb : b.toNat.testBit k
  · rw [if_pos ((and_mask16_ne_zero b hk).mpr hb), if_pos hb, UInt32.toNat_xor, bitPoly_xor,
      toNat_shiftLeft32 ha (by omega) (by omega), bitPoly_shiftLeft ha (by omega)]
    simp
  · rw [if_neg (mt (and_mask16_ne_zero b hk).mp hb), if_neg hb]
    simp

lemma polyMul_spec (a b : UInt16) :
    bitPoly 32 (polyMul a b).toNat = bitPoly 16 a.toNat * bitPoly 16 b.toNat := by
  have hfold : ∀ n ≤ 16, bitPoly 32 ((List.range n).foldl (polyMulStep a b) 0).toNat
      = bitPoly n b.toNat * bitPoly 16 a.toNat := by
    intro n hn
    induction n with
    | zero => simp [bitPoly]
    | succ n ih =>
      rw [List.range_succ, List.foldl_append, List.foldl_cons, List.foldl_nil,
        polyMulStep_spec a b _ (by omega), ih (by omega), bitPoly_succ n, add_mul]
  rw [polyMul, hfold 16 (le_refl _), mul_comm]

lemma gfReduceStep_spec {v : UInt32} (hk : k < 16) (hv : v.toNat < 2 ^ (32 - k)) :
    modulus ∣ bitPoly 32 v.toNat - bitPoly 32 (gfReduceStep v k).toNat ∧
      (gfReduceStep v k).toNat < 2 ^ (32 - (k + 1)) := by
  have hbits : ∀ n : Nat, n < 2 ^ (32 - k) → n.testBit (31 - k) = false → n < 2 ^ (32 - (k + 1)) := by
    intro n hn hbit
    apply Nat.lt_pow_two_of_testBit
    intro i hi
    rcases Nat.lt_or_ge i (32 - k) with hlt | hge
    · rw [show i = 31 - k by omega]; exact hbit
    · exact Nat.testBit_lt_two_pow
        (lt_of_lt_of_le hn (Nat.pow_le_pow_right (by norm_num) hge))
  unfold gfReduceStep
  by_cases hb : v.toNat.testBit (31 - k)
  · have hp : gfPoly.toNat < 2 ^ 17 := by decide
    have hsh : (gfPoly <<< (15 - k).toUInt32).toNat = gfPoly.toNat <<< (15 - k) :=
      toNat_shiftLeft32 hp (by omega) (by omega)
    rw [if_pos ((and_mask32_ne_zero v (by omega)).mpr hb), UInt32.toNat_xor, hsh]
    refine ⟨?_, hbits _ (Nat.xor_lt_two_pow hv ?_) ?_⟩
    · rw [bitPoly_xor, bitPoly_shiftLeft hp (by omega), bitPoly_gfPoly]
      exact ⟨-X ^ (15 - k), by ring⟩
    · rw [Nat.shiftLeft_eq]
      calc gfPoly.toNat * 2 ^ (15 - k) < 2 ^ 17 * 2 ^ (15 - k) :=
            Nat.mul_lt_mul_of_pos_right hp (by positivity)
        _ = 2 ^ (32 - k) := by rw [← pow_add]; congr 1; omega
    · have htop : gfPoly.toNat.testBit 16 = true := by decide
      rw [Nat.testBit_xor, hb, Nat.testBit_shiftLeft, show 31 - k - (15 - k) = 16 by omega, htop]
      simp; omega
  · rw [if_neg (mt (and_mask32_ne_zero v (by omega)).mp hb)]
    exact ⟨by simp, hbits _ hv (by simpa using hb)⟩

lemma gfReduce_spec (v : UInt32) : modulus ∣ bitPoly 32 v.toNat - bitPoly 16 (gfReduce v).toNat := by
  have hfold : ∀ n ≤ 16, modulus ∣ bitPoly 32 v.toNat
        - bitPoly 32 ((List.range n).foldl gfReduceStep v).toNat ∧
      ((List.range n).foldl gfReduceStep v).toNat < 2 ^ (32 - n) := by
    intro n hn
    induction n with
    | zero => exact ⟨by simp, by simpa using v.toNat_lt⟩
    | succ n ih =>
      obtain ⟨hd, hlt⟩ := ih (by omega)
      obtain ⟨hd', hlt'⟩ := gfReduceStep_spec (by omega) hlt
      rw [List.range_succ, List.foldl_append, List.foldl_cons, List.foldl_nil]
      refine ⟨?_, hlt'⟩
      have := dvd_add hd hd'
      rwa [sub_add_sub_cancel] at this
  obtain ⟨hd, hlt⟩ := hfold 16 (le_refl _)
  have hval : (gfReduce v).toNat = ((List.range 16).foldl gfReduceStep v).toNat := by
    rw [gfReduce, UInt32.toNat_toUInt16]
    exact Nat.mod_eq_of_lt hlt
  rwa [hval, ← bitPoly_of_lt (w := 32) hlt (by norm_num)]

lemma gfMul_spec (a b : UInt16) :
    modulus ∣ bitPoly 16 a.toNat * bitPoly 16 b.toNat - bitPoly 16 (gfMul a b).toNat := by
  rw [← polyMul_spec]
  exact gfReduce_spec (polyMul a b)

namespace GF16

noncomputable def toRoot (a : GF16) : AdjoinRoot modulus :=
  AdjoinRoot.mk modulus (bitPoly 16 a.value.toNat)

lemma toRoot_injective : Function.Injective toRoot := by
  intro a b h
  have hd : modulus ∣ bitPoly 16 a.value.toNat - bitPoly 16 b.value.toNat :=
    AdjoinRoot.mk_eq_mk.mp h
  have hdeg : (bitPoly 16 a.value.toNat - bitPoly 16 b.value.toNat).degree < modulus.degree := by
    rw [modulus_degree]
    exact lt_of_le_of_lt (degree_sub_le _ _)
      (max_lt (bitPoly_degree_lt 16 _) (bitPoly_degree_lt 16 _))
  have hz := sub_eq_zero.mp (eq_zero_of_dvd_of_degree_lt hd hdeg)
  apply GF16.ext
  apply UInt16.toNat_inj.mp
  exact bitPoly_injOn a.value.toNat_lt b.value.toNat_lt hz

@[simp] lemma toRoot_zero : toRoot 0 = 0 := by
  have h : (0 : GF16).value.toNat = 0 := rfl
  rw [toRoot, h, bitPoly_zero, map_zero]

@[simp] lemma toRoot_one : toRoot 1 = 1 := by
  have h : (1 : GF16).value.toNat = 1 := rfl
  have hp : bitPoly 16 1 = 1 := by
    simp [bitPoly, Finset.sum_range_succ, Nat.testBit, Nat.shiftRight_eq_div_pow]
  rw [toRoot, h, hp, map_one]

@[simp] lemma toRoot_add (a b : GF16) : toRoot (a + b) = toRoot a + toRoot b := by
  have h : (a + b).value.toNat = a.value.toNat ^^^ b.value.toNat := UInt16.toNat_xor _ _
  rw [toRoot, h, bitPoly_xor, map_add, toRoot, toRoot]

@[simp] lemma toRoot_mul (a b : GF16) : toRoot (a * b) = toRoot a * toRoot b := by
  rw [toRoot, toRoot, toRoot, ← map_mul]
  exact (AdjoinRoot.mk_eq_mk.mpr (gfMul_spec a.value b.value)).symm

lemma add_self (a : GF16) : a + a = 0 := by
  apply GF16.ext
  exact UInt16.xor_self

instance : CommRing GF16 where
  add_assoc a b c := toRoot_injective (by simp [add_assoc])
  zero_add a := toRoot_injective (by simp)
  add_zero a := toRoot_injective (by simp)
  add_comm a b := toRoot_injective (by simp [add_comm])
  neg_add_cancel a := add_self a
  sub_eq_add_neg _ _ := rfl
  left_distrib a b c := toRoot_injective (by simp [mul_add])
  right_distrib a b c := toRoot_injective (by simp [add_mul])
  zero_mul a := toRoot_injective (by simp)
  mul_zero a := toRoot_injective (by simp)
  mul_assoc a b c := toRoot_injective (by simp [mul_assoc])
  one_mul a := toRoot_injective (by simp)
  mul_one a := toRoot_injective (by simp)
  mul_comm a b := toRoot_injective (by simp [mul_comm])
  nsmul := nsmulRec
  zsmul := zsmulRec

/-! ## The element `x` generates the nonzero elements -/

def gen : GF16 := ⟨2⟩

variable {a : GF16}

lemma pow_of_pow {g b : GF16} {n : Nat} (h : g ^ n = a) (k : Nat) (hb : a ^ k = b) : g ^ (n * k) = b := by
  rw [pow_mul, h, hb]

lemma evaluated_powers : gen ^ 16 = ⟨4107⟩ ∧ (⟨4107⟩ : GF16) ^ 16 = ⟨2863⟩ ∧ (⟨2863⟩ : GF16) ^ 16 = ⟨6951⟩ ∧
    (⟨6951⟩ * ⟨2863⟩ * ⟨4107⟩ * gen : GF16) ^ 15 = 1 ∧ (⟨6951⟩ * ⟨2863⟩ * ⟨4107⟩ * gen : GF16) ^ 5 ≠ 1 ∧
    (⟨6951⟩ * ⟨2863⟩ * ⟨4107⟩ * gen : GF16) ^ 3 ≠ 1 ∧ (⟨2863⟩ * gen : GF16) ^ 15 ≠ 1 ∧
    (gen ^ 15) ^ 17 ≠ 1 := by decide +kernel

lemma gen_pow_16 : gen ^ 16 = ⟨4107⟩ := evaluated_powers.1

lemma gen_pow_256 : gen ^ 256 = ⟨2863⟩ := pow_of_pow gen_pow_16 16 evaluated_powers.2.1

lemma gen_pow_4096 : gen ^ 4096 = ⟨6951⟩ := pow_of_pow gen_pow_256 16 evaluated_powers.2.2.1

lemma gen_pow_4369 : gen ^ 4369 = (⟨6951⟩ * ⟨2863⟩ * ⟨4107⟩ * gen : GF16) := by
  rw [show 4369 = 4096 + 256 + 16 + 1 from rfl, pow_add, pow_add, pow_add, gen_pow_4096,
    gen_pow_256, gen_pow_16, pow_one]

lemma gen_pow_257 : gen ^ 257 = (⟨2863⟩ * gen : GF16) := by
  rw [show 257 = 256 + 1 from rfl, pow_add, gen_pow_256, pow_one]

lemma gen_pow_order : gen ^ 65535 = 1 := pow_of_pow gen_pow_4369 15 evaluated_powers.2.2.2.1

lemma gen_pow_div_ne_one {p : Nat} (hp : p.Prime) (hd : p ∣ 65535) : gen ^ (65535 / p) ≠ 1 := by
  have hcases : p = 3 ∨ p = 5 ∨ p = 17 ∨ p = 257 := by
    rw [show 65535 = 3 * 5 * 17 * 257 from rfl, hp.dvd_mul, hp.dvd_mul, hp.dvd_mul,
      Nat.prime_dvd_prime_iff_eq hp (by norm_num), Nat.prime_dvd_prime_iff_eq hp (by norm_num),
      Nat.prime_dvd_prime_iff_eq hp (by norm_num), Nat.prime_dvd_prime_iff_eq hp (by norm_num)] at hd
    tauto
  obtain ⟨_, _, _, _, h3, h5, h17, h257⟩ := evaluated_powers
  rcases hcases with rfl | rfl | rfl | rfl
  · rw [show 65535 / 3 = 4369 * 5 from rfl, pow_mul, gen_pow_4369]
    exact h3
  · rw [show 65535 / 5 = 4369 * 3 from rfl, pow_mul, gen_pow_4369]
    exact h5
  · rw [show 65535 / 17 = 257 * 15 from rfl, pow_mul, gen_pow_257]
    exact h17
  · rw [show 65535 / 257 = 15 * 17 from rfl, pow_mul]
    exact h257

lemma orderOf_gen : orderOf gen = 65535 :=
  orderOf_eq_of_pow_and_pow_div_prime (by norm_num) gen_pow_order
    (fun _ hp hd => gen_pow_div_ne_one hp hd)

instance : Fintype GF16 :=
  Fintype.ofEquiv (Fin 65536)
    { toFun := fun i => ⟨⟨⟨i⟩⟩⟩
      invFun := fun a => a.value.toBitVec.toFin
      left_inv := fun _ => rfl
      right_inv := fun _ => rfl }

lemma card_eq : Fintype.card GF16 = 65536 := by
  rw [Fintype.ofEquiv_card, Fintype.card_fin]

lemma exists_gen_pow (ha : a ≠ 0) : ∃ n, gen ^ n = a := by
  have hne : ∀ i : Fin 65535, gen ^ i.val ≠ 0 := by
    intro i h0
    have h1 : gen ^ i.val * gen ^ (65535 - i.val) = 1 := by
      rw [← pow_add, Nat.add_sub_cancel' i.isLt.le, gen_pow_order]
    rw [h0, zero_mul] at h1
    exact absurd h1 (by decide)
  let f : Fin 65535 → {a : GF16 // a ≠ 0} := fun i => ⟨gen ^ i.val, hne i⟩
  have hinj : Function.Injective f := by
    intro i j hij
    have hpow : gen ^ i.val = gen ^ j.val := congrArg Subtype.val hij
    apply Fin.ext
    exact pow_injOn_Iio_orderOf (by simp [orderOf_gen]) (by simp [orderOf_gen]) hpow
  have hcard : Fintype.card (Fin 65535) = Fintype.card {a : GF16 // a ≠ 0} := by
    rw [Fintype.card_subtype_compl, card_eq, Fintype.card_fin, Fintype.card_subtype_eq]
  obtain ⟨i, hi⟩ := ((Fintype.bijective_iff_injective_and_card f).mpr ⟨hinj, hcard⟩).2 ⟨a, ha⟩
  exact ⟨i.val, congrArg Subtype.val hi⟩

lemma pow_card_sub_one (ha : a ≠ 0) : a ^ 65535 = 1 := by
  obtain ⟨n, rfl⟩ := exists_gen_pow ha
  rw [← pow_mul, mul_comm, pow_mul, gen_pow_order, one_pow]

lemma gfDivStep_iterate (n : Nat) (a s : GF16) :
    gfDivStep^[n] (a.value, s.value) = ((a * s ^ (2 ^ n - 1)).value, (s ^ 2 ^ n).value) := by
  induction n generalizing a s with
  | zero => simp
  | succ n ih =>
    rw [Function.iterate_succ_apply]
    have hstep : gfDivStep (a.value, s.value) = ((s * a).value, (s * s).value) := rfl
    have hexp : 2 ^ (n + 1) - 1 = 1 + 2 * (2 ^ n - 1) := by
      have := Nat.one_le_two_pow (n := n)
      rw [pow_succ]
      omega
    rw [hstep, ih, hexp]
    refine Prod.ext (congrArg GF16.value ?_) (congrArg GF16.value ?_)
    · rw [pow_add, pow_mul, pow_one, pow_two, mul_comm s a, mul_assoc]
    · rw [pow_succ, mul_comm (2 ^ n), pow_mul, pow_two]

lemma div_eq_mul_pow (a b : GF16) : a / b = a * b ^ 65534 := by
  have h := gfDivStep_iterate 15 a (b * b)
  apply GF16.ext
  calc (a / b).value = (gfDivStep^[15] (a.value, (b * b).value)).1 := rfl
    _ = (a * (b * b) ^ (2 ^ 15 - 1)).value := by rw [h]
    _ = (a * b ^ 65534).value := by rw [← pow_two, ← pow_mul]; norm_num

instance : Inv GF16 := ⟨fun b => 1 / b⟩

instance : Field GF16 where
  exists_pair_ne := ⟨0, 1, by decide⟩
  mul_inv_cancel a ha := by
    change a * (1 / a) = 1
    rw [div_eq_mul_pow, one_mul, ← pow_succ', pow_card_sub_one ha]
  inv_zero := by
    change (1 : GF16) / 0 = 0
    rw [div_eq_mul_pow, one_mul, zero_pow (by norm_num)]
  div_eq_mul_inv a b := by
    change a / b = a * (1 / b)
    rw [div_eq_mul_pow, div_eq_mul_pow, one_mul]
  nnqsmul := _
  qsmul := _

end GF16

end LibSignal.Chunked
