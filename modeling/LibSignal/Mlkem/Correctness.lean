import LibSignal.Mlkem.Incremental

/-!
# Decapsulation of honest ciphertexts

What decryption computes from an honest ciphertext differs from the message by an error that is a sum of
products of small polynomials and of the rounding errors of compression (`error_identity`, in the ring of
polynomials modulo `X ^ 256 + 1`).
-/

namespace LibSignal.Mlkem
open Polynomial Lib
open Chunked (Bytes)
open Crypto (zeros length_zeros)

/-! ## The ring -/

abbrev Ring := AdjoinRoot (ringModulus n)

noncomputable def Poly.inRing (f : Poly) : Ring := AdjoinRoot.mk (ringModulus n) f.toPolynomial

noncomputable def Poly.inRingOfNtt (f : Poly) : Ring := (inverseNTT f).inRing

namespace Poly
variable (f g : Poly)

lemma classes_polySub :
    classes (polySub f g).coeffs = List.zipWith (fun a b => a + -1 * b) (classes f.coeffs) (classes g.coeffs) := by
  simp only [classes, polySub, List.map_zipWith, List.zipWith_map, FieldElement.toZ_fieldSub, neg_one_mul,
    sub_eq_add_neg]

lemma toPolynomial_polySub : (polySub f g).toPolynomial = f.toPolynomial - g.toPolynomial := by
  rw [toPolynomial, classes_polySub, ofCoeffs_zipWith_scaled _ (f.length_classes.trans g.length_classes.symm), map_neg,
    map_one, neg_one_mul, ← sub_eq_add_neg]
  rfl

@[simp] lemma inRing_polyAdd : (polyAdd f g).inRing = f.inRing + g.inRing := by
  rw [inRing, toPolynomial_polyAdd, map_add]
  rfl

@[simp] lemma inRing_polySub : (polySub f g).inRing = f.inRing - g.inRing := by
  rw [inRing, toPolynomial_polySub, map_sub]
  rfl

@[simp] lemma inRingOfNtt_ntt : (ntt f).inRingOfNtt = f.inRing := by
  rw [inRingOfNtt, inverseNTT_ntt]

@[simp] lemma inRingOfNtt_polyAdd : (polyAdd f g).inRingOfNtt = f.inRingOfNtt + g.inRingOfNtt := by
  have hsum := ntt_polyAdd (inverseNTT f) (inverseNTT g)
  rw [ntt_inverseNTT, ntt_inverseNTT] at hsum
  rw [← hsum, inRingOfNtt_ntt, inRing_polyAdd]
  rfl

@[simp] lemma inRingOfNtt_nttMul : (nttMul f g).inRingOfNtt = f.inRingOfNtt * g.inRingOfNtt := by
  have hproduct := toPolynomial_inverseNTT_nttMul (inverseNTT f) (inverseNTT g)
  rw [ntt_inverseNTT, ntt_inverseNTT] at hproduct
  have hremainder : ∀ P M : (ZMod q)[X], AdjoinRoot.mk M (P %ₘ M) = AdjoinRoot.mk M P :=
    fun P M => AdjoinRoot.mk_eq_mk.mpr (dvd_modByMonic_sub P M)
  rw [inRingOfNtt, inRing, hproduct, hremainder, map_mul]
  rfl

lemma polyAdd_zero_zero : polyAdd Poly.zero Poly.zero = Poly.zero := by
  have hzero : fieldAdd ⟨0, by decide⟩ ⟨0, by decide⟩ = ⟨0, by decide⟩ := by decide
  refine Poly.ext ?_
  change List.zipWith fieldAdd (List.replicate n _) (List.replicate n _) = List.replicate n _
  rw [List.zipWith_replicate', hzero]

@[simp] lemma inRing_zero : Poly.zero.inRing = 0 := by
  have hadd := inRing_polyAdd Poly.zero Poly.zero
  rw [polyAdd_zero_zero] at hadd
  exact left_eq_add.mp hadd

@[simp] lemma inRingOfNtt_zero : Poly.zero.inRingOfNtt = 0 := by
  have hadd := inRingOfNtt_polyAdd Poly.zero Poly.zero
  rw [polyAdd_zero_zero] at hadd
  exact left_eq_add.mp hadd

lemma inRing_injective : Function.Injective inRing := by
  intro f g h
  have hequal : ∀ P Q M : (ZMod q)[X], AdjoinRoot.mk M P = AdjoinRoot.mk M Q → M ∣ P - Q :=
    fun _ _ _ hmk => AdjoinRoot.mk_eq_mk.mp hmk
  have hdvd : ringModulus n ∣ f.toPolynomial - g.toPolynomial := hequal _ _ _ h
  refine toPolynomial_injective (sub_eq_zero.mp ?_)
  by_contra hne
  refine ringModulus_monic.not_dvd_of_degree_lt hne ?_ hdvd
  rw [degree_ringModulus]
  exact (degree_sub_le _ _).trans_lt (max_lt f.degree_toPolynomial_lt g.degree_toPolynomial_lt)

lemma inRingOfNtt_addProducts (acc : Poly) (f g : Vec) :
    (addProducts acc f g).inRingOfNtt = acc.inRingOfNtt + ∑ j, (f j).inRingOfNtt * (g j).inRingOfNtt := by
  have hrange : List.finRange k = [0, 1, 2] := by decide
  rw [addProducts, hrange]
  simp only [List.foldl_cons, List.foldl_nil, inRingOfNtt_polyAdd, inRingOfNtt_nttMul, Fin.sum_univ_three]
  ring

end Poly

/-! ## The error of decryption -/

lemma noise_identity {R ι : Type*} [CommRing R] [Fintype ι] (a : ι → ι → R) (s e r e1 du : ι → R) (e2 mu dv : R) :
    ∑ i, (e i + ∑ j, a i j * s j) * r i + e2 + mu + dv - ∑ i, s i * (e1 i + ∑ j, a j i * r j + du i) - mu =
      ∑ i, e i * r i + e2 + dv - ∑ i, s i * (e1 i + du i) := by
  have hswap : ∑ i, (∑ j, a i j * s j) * r i = ∑ i, s i * ∑ j, a j i * r j := by
    simp only [Finset.sum_mul, Finset.mul_sum]
    rw [Finset.sum_comm]
    refine Finset.sum_congr rfl fun i _ => Finset.sum_congr rfl fun j _ => ?_
    ring
  have hleft : ∑ i, (e i + ∑ j, a i j * s j) * r i = ∑ i, e i * r i + ∑ i, (∑ j, a i j * s j) * r i := by
    simp only [add_mul, Finset.sum_add_distrib]
  have hright : ∑ i, s i * (e1 i + ∑ j, a j i * r j + du i) =
      ∑ i, s i * (e1 i + du i) + ∑ i, s i * ∑ j, a j i * r j := by
    rw [← Finset.sum_add_distrib]
    refine Finset.sum_congr rfl fun i _ => ?_
    ring
  rw [hleft, hright, hswap]
  ring

lemma inRing_decryptW (s : Vec) (c : { c : Bytes // c.length = ciphertextSize768 }) :
    (decryptW s c).inRing = (decodeV c).inRing - ∑ i, (s i).inRingOfNtt * (decodeU c i).inRing := by
  have hmask := Poly.inRingOfNtt_addProducts Poly.zero s fun i => ntt (decodeU c i)
  simp only [Poly.inRingOfNtt_zero, zero_add, Poly.inRingOfNtt_ntt] at hmask
  rw [decryptW, Poly.inRing_polySub, ← hmask]
  rfl

lemma inRing_encryptU (a : Matrix) (noise : Noise) (i : Fin k) :
    (encryptU a noise i).inRing = (noise.e1 i).inRing + ∑ j, (a j i).inRingOfNtt * (noise.r j).inRingOfNtt := by
  have hproducts := Poly.inRingOfNtt_addProducts Poly.zero (fun j => a j i) noise.r
  rw [Poly.inRingOfNtt_zero, zero_add] at hproducts
  rw [encryptU, Poly.inRing_polyAdd, ← hproducts]
  rfl

lemma inRing_encryptV (t r : Vec) (e2 : Poly) (m : Message) : (encryptV t r e2 m).inRing =
      ∑ i, (t i).inRingOfNtt * (r i).inRingOfNtt + e2.inRing + (ringDecodeAndDecompress1 m).inRing := by
  have hproducts := Poly.inRingOfNtt_addProducts Poly.zero t r
  rw [Poly.inRingOfNtt_zero, zero_add] at hproducts
  rw [encryptV, Poly.inRing_polyAdd, Poly.inRing_polyAdd, ← hproducts]
  rfl

section Model
variable [Sha3]

def DecapsulationKey768.encryptionSeed (dk : DecapsulationKey768) (m : Message) : Bytes :=
  (secondHalf (sha3_512 (m.1 ++ dk.h.1))).1

def DecapsulationKey768.honestU (dk : DecapsulationKey768) (m : Message) : Vec :=
  encryptU dk.encryptionKey.a (sampleNoise (dk.encryptionSeed m))

def DecapsulationKey768.honestV (dk : DecapsulationKey768) (m : Message) : Poly :=
  encryptV dk.encryptionKey.t (sampleNoise (dk.encryptionSeed m)).r (sampleNoise (dk.encryptionSeed m)).e2 m

def DecapsulationKey768.decryptionError (dk : DecapsulationKey768) (m : Message)
    (c : { c : Bytes // c.length = ciphertextSize768 }) : Poly :=
  polySub (decryptW dk.s c) (ringDecodeAndDecompress1 m)

noncomputable def DecapsulationKey768.noiseTerms (dk : DecapsulationKey768) (m : Message)
    (c : { c : Bytes // c.length = ciphertextSize768 }) : Ring :=
  let rnd := dk.encryptionSeed m
  let s := fun i : Fin k => (samplePolyCBD dk.sigma i.val.toUInt8).inRing
  let e := fun i : Fin k => (samplePolyCBD dk.sigma (k + i.val).toUInt8).inRing
  let r := fun i : Fin k => (samplePolyCBD rnd i.val.toUInt8).inRing
  let e1 := fun i : Fin k => (samplePolyCBD rnd (k + i.val).toUInt8).inRing
  let e2 := (samplePolyCBD rnd (2 * k).toUInt8).inRing
  let du := fun i : Fin k => (polySub (decodeU c i) (dk.honestU m i)).inRing
  let dv := (polySub (decodeV c) (dk.honestV m)).inRing
  ∑ i, e i * r i + e2 + dv - ∑ i, s i * (e1 i + du i)

lemma error_identity {reads : Nat} {dk : DecapsulationKey768} (h : Expanded reads dk) (m : Message)
    (c : { c : Bytes // c.length = ciphertextSize768 }) :
    (dk.decryptionError m c).inRing = dk.noiseTerms m c := by
  have ht : ∀ i, (dk.encryptionKey.t i).inRingOfNtt = (samplePolyCBD dk.sigma (k + i.val).toUInt8).inRing +
      ∑ j, (dk.encryptionKey.a i j).inRingOfNtt * (dk.s j).inRingOfNtt := by
    intro i
    rw [h.vector, Poly.inRingOfNtt_addProducts, Poly.inRingOfNtt_ntt]
  have hs : ∀ i, (dk.s i).inRingOfNtt = (samplePolyCBD dk.sigma i.val.toUInt8).inRing := by
    intro i
    rw [h.secret, Poly.inRingOfNtt_ntt]
  have hr : ∀ i, ((sampleNoise (dk.encryptionSeed m)).r i).inRingOfNtt =
      (samplePolyCBD (dk.encryptionSeed m) i.val.toUInt8).inRing := fun i => Poly.inRingOfNtt_ntt _
  have hu : ∀ i, (decodeU c i).inRing = (dk.honestU m i).inRing + (polySub (decodeU c i) (dk.honestU m i)).inRing := by
    intro i
    rw [Poly.inRing_polySub, add_sub_cancel]
  have hv : (decodeV c).inRing = (dk.honestV m).inRing + (polySub (decodeV c) (dk.honestV m)).inRing := by
    rw [Poly.inRing_polySub, add_sub_cancel]
  have hhonestU : ∀ i, (dk.honestU m i).inRing = (samplePolyCBD (dk.encryptionSeed m) (k + i.val).toUInt8).inRing +
      ∑ j, (dk.encryptionKey.a j i).inRingOfNtt * (samplePolyCBD (dk.encryptionSeed m) j.val.toUInt8).inRing := by
    intro i
    rw [DecapsulationKey768.honestU, inRing_encryptU]
    simp only [hr]
    rfl
  rw [DecapsulationKey768.decryptionError, Poly.inRing_polySub, inRing_decryptW, hv, DecapsulationKey768.honestV,
    inRing_encryptV]
  simp only [hu, hhonestU, ht, hs, hr]
  exact noise_identity _ _ _ _ _ _ _ _ _

end Model

/-! ## Rounding to one bit -/

lemma toNat_underflow {x : Nat} {r : UInt32} (hx : x < 2 ^ 31) (hr : r.toNat < 2 ^ 31) :
    ((UInt32.ofNat x - r) >>> 31 &&& 1).toNat = if x < r.toNat then 1 else 0 := by
  have hword : (UInt32.ofNat x - r).toNat = (2 ^ 32 - r.toNat + x) % 2 ^ 32 := by
    rw [UInt32.toNat_sub, UInt32.toNat_ofNat', Nat.add_mod_mod]
  have hshift : ((UInt32.ofNat x - r) >>> 31).toNat = (2 ^ 32 - r.toNat + x) % 2 ^ 32 / 2 ^ 31 := by
    rw [UInt32.toNat_shiftRight, hword]
    exact Nat.shiftRight_eq_div_pow _ 31
  rw [UInt32.toNat_and, hshift]
  change (2 ^ 32 - r.toNat + x) % 2 ^ 32 / 2 ^ 31 &&& 1 = _
  rw [Nat.and_one_is_mod]
  split <;> omega

lemma toNat_compress_one (x : FieldElement) :
    (compress x 1).toNat = if 833 ≤ x.val.toNat ∧ x.val.toNat ≤ 2496 then 1 else 0 := by
  have hx := x.toNat_lt
  have hdividend : (x.val.toUInt32 <<< (1 : Nat).toUInt32).toNat = 2 * x.val.toNat := by
    rw [UInt32.toNat_shiftLeft, UInt16.toNat_toUInt32]
    change x.val.toNat <<< 1 % 2 ^ 32 = _
    rw [Nat.shiftLeft_eq]
    omega
  have hquotient : (((x.val.toUInt32 <<< (1 : Nat).toUInt32).toUInt64 * 5039) >>> 24).toUInt32.toNat =
      if x.val.toNat ≤ 1664 then 0 else 1 := by
    rw [UInt64.toNat_toUInt32, UInt64.toNat_shiftRight, UInt64.toNat_mul, UInt32.toNat_toUInt64, hdividend]
    change (2 * x.val.toNat * 5039 % 2 ^ 64) >>> 24 % 2 ^ 32 = _
    have hproduct : 2 * x.val.toNat * 5039 < 2 ^ 64 := by omega
    rw [Nat.mod_eq_of_lt hproduct, Nat.shiftRight_eq_div_pow, Nat.mod_eq_of_lt (by omega)]
    split <;> omega
  rw [compress]
  generalize x.val.toUInt32 <<< (1 : Nat).toUInt32 = dividend at *
  generalize ((dividend.toUInt64 * 5039) >>> 24).toUInt32 = quotient at *
  have hremainder : (dividend - quotient * 3329).toNat =
      if x.val.toNat ≤ 1664 then 2 * x.val.toNat else 2 * x.val.toNat - 3329 := by
    rw [UInt32.toNat_sub, UInt32.toNat_mul, hquotient, hdividend]
    change (2 ^ 32 - (if x.val.toNat ≤ 1664 then 0 else 1) * 3329 % 2 ^ 32 + 2 * x.val.toNat) % 2 ^ 32 = _
    split <;> omega
  generalize dividend - quotient * 3329 = remainder at *
  have hsmall : remainder.toNat < 2 ^ 31 := by
    rw [hremainder]
    split <;> omega
  have hfirst := toNat_underflow (x := 1664) (by decide) hsmall
  have hsecond := toNat_underflow (x := 4993) (by decide) hsmall
  have hsum : (quotient + ((1664 - remainder) >>> (31 : UInt32) &&& 1) +
      ((4993 - remainder) >>> (31 : UInt32) &&& 1)).toNat =
      if x.val.toNat ≤ 832 then 0 else if x.val.toNat ≤ 2496 then 1 else 2 := by
    rw [UInt32.toNat_add, UInt32.toNat_add, hquotient]
    change (((if x.val.toNat ≤ 1664 then 0 else 1) + ((UInt32.ofNat 1664 - remainder) >>> 31 &&& 1).toNat) % 2 ^ 32 +
      ((UInt32.ofNat 4993 - remainder) >>> 31 &&& 1).toNat) % 2 ^ 32 = _
    rw [hfirst, hsecond, hremainder]
    split_ifs <;> omega
  rw [UInt32.toNat_toUInt16, UInt32.toNat_and, hsum]
  change (_ &&& 1) % 2 ^ 16 = _
  rw [Nat.and_one_is_mod]
  split_ifs <;> omega

lemma compress_of_near {w : FieldElement} {b : UInt8} {i : Nat}
    (h : |(fieldSub w (decompressBit b i)).centered| ≤ 831) : compress w 1 = (b >>> i.toUInt8 &&& 1).toUInt16 := by
  have hw := w.toNat_lt
  have hbit : (b >>> i.toUInt8 &&& 1).toNat ≤ 1 := by
    rw [UInt8.toNat_and]
    exact Nat.and_le_right
  have hmu : (decompressBit b i).val.toNat = (b >>> i.toUInt8 &&& 1).toNat * 1665 := by
    change ((b >>> i.toUInt8 &&& 1).toUInt16 * 1665).toNat = _
    rw [UInt16.toNat_mul, UInt8.toNat_toUInt16]
    change (b >>> i.toUInt8 &&& 1).toNat * 1665 % 2 ^ 16 = _
    omega
  have herror := toNat_fieldSub w (decompressBit b i)
  rw [hmu] at herror
  rw [FieldElement.centered, herror, abs_le] at h
  refine UInt16.toNat_inj.mp ?_
  rw [toNat_compress_one, UInt8.toNat_toUInt16]
  generalize (b >>> i.toUInt8 &&& 1).toNat = bit at *
  obtain rfl | rfl : bit = 0 ∨ bit = 1 := by omega
  · split at h <;> split <;> omega
  · split at h <;> split <;> omega

lemma byte_of_bits : ∀ byte : UInt8, (List.range 8).foldl
    (fun b i => b ||| ((byte >>> i.toUInt8 &&& 1).toUInt16 <<< i.toUInt16).toUInt8) 0 = byte := by
  decide +kernel

variable {f : List FieldElement}

lemma encode1_of_near {bytes : Bytes} (hlen : f.length = 8 * bytes.length)
    (h : ∀ x ∈ List.zipWith fieldSub f (decode1 bytes), |x.centered| ≤ 831) : encode1 bytes.length f = bytes := by
  induction bytes generalizing f with
  | nil => rfl
  | cons byte bytes ih =>
    rw [List.length_cons] at hlen
    have htake : (f.take 8).length = 8 := by
      rw [List.length_take]
      omega
    rw [← List.take_append_drop 8 f, decode1, List.flatMap_cons, ← decode1, List.zipWith_append (by simp [htake])] at h
    have hrest := ih (f := f.drop 8) (by rw [List.length_drop]; omega)
      fun x hx => h x (List.mem_append_right _ hx)
    have hbits : ∀ i ∈ List.range 8, compress (f.getD i ⟨0, by decide⟩) 1 = (byte >>> i.toUInt8 &&& 1).toUInt16 := by
      intro i hi
      have hlt := List.mem_range.mp hi
      refine compress_of_near (h _ (List.mem_append_left _ ?_))
      refine List.mem_iff_getElem.mpr ⟨i, by simp [htake, hlt], ?_⟩
      rw [List.getElem_zipWith, List.getElem_take, List.getElem_map, List.getElem_range,
        List.getD_eq_getElem _ _ (by omega)]
    have hbyte := List.foldl_ext
      (fun b i => b ||| (compress (f.getD i ⟨0, by decide⟩) 1 <<< i.toUInt16).toUInt8)
      (fun b i => b ||| ((byte >>> i.toUInt8 &&& 1).toUInt16 <<< i.toUInt16).toUInt8) 0
      (fun b i hi => by rw [hbits i hi])
    rw [List.length_cons, encode1, hrest, hbyte, byte_of_bits]

/-! ## Decapsulation -/

lemma length_encode4 {blocks : Nat} (h : f.length = blocks * 2) : (encode4 f).length = blocks := by
  induction blocks generalizing f with
  | zero =>
    rw [List.eq_nil_of_length_eq_zero (h.trans (Nat.zero_mul _))]
    rfl
  | succ blocks ih =>
    obtain ⟨a, b, f, rfl, hf⟩ := exists_pair h
    rw [encode4, List.length_cons, ih hf]

lemma length_encode10 {blocks : Nat} (h : f.length = 2 * blocks * 2) : (encode10 f).length = 5 * blocks := by
  induction blocks generalizing f with
  | zero =>
    rw [List.eq_nil_of_length_eq_zero (h.trans (Nat.zero_mul _))]
    rfl
  | succ blocks ih =>
    obtain ⟨f0, f1, f, rfl, hf⟩ := exists_pair (show f.length = (2 * blocks + 1 + 1) * 2 by omega)
    obtain ⟨f2, f3, f, rfl, hf'⟩ := exists_pair hf
    simp only [encode10, List.length_cons, ih hf']
    omega

lemma length_ringCompressAndEncode4 (f : Poly) : (ringCompressAndEncode4 f).length = 128 :=
  length_encode4 f.length_coeffs

lemma length_encodeU (u : Vec) : (encodeU u).length = 960 := by
  have hrange : List.finRange k = [0, 1, 2] := by decide
  have hpoly : ∀ f : Poly, (ringCompressAndEncode10 f).length = 320 := fun f =>
    length_encode10 (show f.coeffs.length = 2 * 64 * 2 from f.length_coeffs)
  simp only [encodeU, hrange, List.flatMap_cons, List.flatMap_nil, List.length_append, hpoly, List.length_nil]

lemma pkeDecrypt_of_small {dk : DecapsulationKey768} {m : Message} {c : { c : Bytes // c.length = ciphertextSize768 }}
    (h : ∀ x ∈ (dk.decryptionError m c).coeffs, |x.centered| ≤ 831) : pkeDecrypt dk.s c = m := by
  refine Subtype.ext ?_
  have hlen : (decryptW dk.s c).coeffs.length = 8 * m.1.length := by
    rw [(decryptW dk.s c).length_coeffs, m.2]
  have hencoded := encode1_of_near hlen h
  rwa [m.2] at hencoded

section Decapsulation
variable [Sha3]

lemma length_pkeEncrypt (ex : EncryptionKey) (m : Message) (rnd : Bytes) :
    (pkeEncrypt ex m rnd).length = ciphertextSize768 := by
  rw [pkeEncrypt, List.length_append, length_encodeU, length_ringCompressAndEncode4]
  rfl

def DecapsulationKey768.honestCiphertext (dk : DecapsulationKey768) (m : Message) :
    { c : Bytes // c.length = ciphertextSize768 } :=
  ⟨(dk.encapsulationKey.encapsulateInternal m).2, length_pkeEncrypt _ _ _⟩

lemma coeffs_decodeV_honestCiphertext (dk : DecapsulationKey768) (m : Message) :
    (decodeV (dk.honestCiphertext m)).coeffs = decode4 (encode4 (dk.honestV m).coeffs) := by
  have hsplit : (dk.honestCiphertext m).1 = encodeU (dk.honestU m) ++ ringCompressAndEncode4 (dk.honestV m) := rfl
  have hslice : ((dk.honestCiphertext m).1.drop 960).take 128 = encode4 (dk.honestV m).coeffs := by
    rw [hsplit, List.drop_left' (length_encodeU _)]
    exact List.take_of_length_le (length_ringCompressAndEncode4 _).le
  rw [← hslice]
  rfl

lemma decapsulate_of_decrypted {dk : DecapsulationKey768} {m : Message}
    (h : pkeDecrypt dk.s (dk.honestCiphertext m) = m) :
    dk.decapsulate (dk.honestCiphertext m).1 = .ok (dk.encapsulationKey.encapsulateInternal m).1 := by
  have hdecrypted : pkeDecrypt dk.s ⟨(dk.honestCiphertext m).1, (dk.honestCiphertext m).2⟩ = m := h
  rw [DecapsulationKey768.decapsulate, dif_pos (dk.honestCiphertext m).2, hdecrypted]
  exact congrArg Except.ok (if_pos rfl)

/-- Decapsulation of an honest ciphertext returns the key of encapsulation when the error is small, and the error
is made of the noise of the key, the noise of the encapsulation and the rounding errors. -/
theorem decapsulation_correct (reads : Nat) (seed : Bytes) (dk : DecapsulationKey768)
    (hdk : newDecapsulationKey768 reads seed = .ok dk) (m : Message) :
    ((∀ x ∈ (dk.decryptionError m (dk.honestCiphertext m)).coeffs, |x.centered| ≤ 831) →
      pkeDecrypt dk.s (dk.honestCiphertext m) = m ∧
        dk.decapsulate (dk.honestCiphertext m).1 = .ok (dk.encapsulationKey.encapsulateInternal m).1) ∧
      (dk.decryptionError m (dk.honestCiphertext m)).inRing = dk.noiseTerms m (dk.honestCiphertext m) := by
  refine ⟨fun hsmall => ?_, error_identity (newDecapsulationKey768_expanded hdk) m _⟩
  have hdecrypted := pkeDecrypt_of_small hsmall
  exact ⟨hdecrypted, decapsulate_of_decrypted hdecrypted⟩

end Decapsulation

/-! ### Hash functions that return zeros -/

lemma cbdCoeffs_zeros (size : Nat) : cbdCoeffs (zeros size) = List.replicate (2 * size) ⟨0, by decide⟩ := by
  induction size with
  | zero => rfl
  | succ size ih =>
    have hstep : zeros (size + 1) = 0 :: zeros size := rfl
    have hzero : fieldSub (.ofByte (0 + 0)) (.ofByte (0 + 0)) = ⟨0, by decide⟩ := by decide
    rw [hstep, cbdCoeffs, ih]
    change fieldSub (.ofByte (0 + 0)) (.ofByte (0 + 0)) :: fieldSub (.ofByte (0 + 0)) (.ofByte (0 + 0)) :: _ = _
    rw [hzero]
    rfl

lemma decode1_zeros (size : Nat) : decode1 (zeros size) = List.replicate (8 * size) ⟨0, by decide⟩ := by
  induction size with
  | zero => rfl
  | succ size ih =>
    have hstep : zeros (size + 1) = 0 :: zeros size := rfl
    have hbits : (List.range 8).map (decompressBit 0) = List.replicate 8 ⟨0, by decide⟩ := by decide
    rw [hstep, decode1, List.flatMap_cons, ← decode1, ih, hbits, List.replicate_append_replicate, Nat.mul_succ,
      Nat.add_comm]

lemma decode4_encode4_zeros (size : Nat) :
    decode4 (encode4 (List.replicate (size * 2) ⟨0, by decide⟩)) = List.replicate (size * 2) ⟨0, by decide⟩ := by
  induction size with
  | zero => rfl
  | succ size ih =>
    have hbyte : (compress ⟨0, by decide⟩ 4 ||| compress ⟨0, by decide⟩ 4 <<< 4).toUInt8 = 0 := by decide
    have hhalf : ∀ h, decompress 0 4 (by decide) (by decide) h = ⟨0, by decide⟩ := by decide
    rw [Nat.succ_mul, List.replicate_succ, List.replicate_succ, encode4, hbyte, decode4, ih]
    exact congrArg₂ List.cons (hhalf _) (congrArg (· :: _) (hhalf _))

lemma samplePolyCBD_zeroSha3 (s : Bytes) (b : UInt8) : @samplePolyCBD zeroSha3 s b = Poly.zero :=
  Poly.ext (cbdCoeffs_zeros 128)

lemma decryptionError_zeroSha3 {reads : Nat} {dk : DecapsulationKey768} (h : @Expanded zeroSha3 reads dk) :
    @DecapsulationKey768.decryptionError dk ⟨zeros 32, length_zeros 32⟩
      (@DecapsulationKey768.honestCiphertext zeroSha3 dk ⟨zeros 32, length_zeros 32⟩) = Poly.zero := by
  let _ : Sha3 := zeroSha3
  let m : Message := ⟨zeros 32, length_zeros 32⟩
  have hmessage : ringDecodeAndDecompress1 m = Poly.zero := Poly.ext (decode1_zeros 32)
  have hr : ∀ i, ((sampleNoise (dk.encryptionSeed m)).r i).inRingOfNtt = 0 := by
    intro i
    have hntt : (sampleNoise (dk.encryptionSeed m)).r i = ntt Poly.zero := congrArg ntt (samplePolyCBD_zeroSha3 _ _)
    rw [hntt, Poly.inRingOfNtt_ntt, Poly.inRing_zero]
  have hv : dk.honestV m = Poly.zero := by
    refine Poly.inRing_injective ?_
    have he2 : (sampleNoise (dk.encryptionSeed m)).e2 = Poly.zero := samplePolyCBD_zeroSha3 _ _
    rw [DecapsulationKey768.honestV, inRing_encryptV, hmessage, he2]
    simp only [hr, mul_zero, Finset.sum_const_zero, add_zero, Poly.inRing_zero]
  have hdecoded : decodeV (dk.honestCiphertext m) = Poly.zero := by
    refine Poly.ext ?_
    rw [coeffs_decodeV_honestCiphertext, hv]
    exact decode4_encode4_zeros 128
  refine Poly.inRing_injective ?_
  rw [error_identity h, DecapsulationKey768.noiseTerms, hdecoded, hv]
  simp only [samplePolyCBD_zeroSha3, Poly.inRing_zero, mul_zero, zero_mul, Finset.sum_const_zero, add_zero, sub_zero,
    Poly.inRing_polySub]

/-- A key for hash functions that return zeros decapsulates to the key of encapsulation. -/
theorem decapsulation_correct_zeros :
    ∃ dk, @newDecapsulationKey768 zeroSha3 16 (zeros 64) = .ok dk ∧
      @DecapsulationKey768.decapsulate zeroSha3 dk
          (@DecapsulationKey768.honestCiphertext zeroSha3 dk ⟨zeros 32, length_zeros 32⟩).1 =
        .ok (@EncapsulationKey768.encapsulateInternal zeroSha3 dk.encapsulationKey ⟨zeros 32, length_zeros 32⟩).1 := by
  let _ : Sha3 := zeroSha3
  obtain ⟨dk, hdk⟩ := newDecapsulationKey768_zeroSha3
  refine ⟨dk, hdk, ((decapsulation_correct 16 (zeros 64) dk hdk ⟨zeros 32, length_zeros 32⟩).1 ?_).2⟩
  intro x hx
  rw [decryptionError_zeroSha3 (newDecapsulationKey768_expanded hdk)] at hx
  rw [List.eq_of_mem_replicate hx]
  decide

end LibSignal.Mlkem
