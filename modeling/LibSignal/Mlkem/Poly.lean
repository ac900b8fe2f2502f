import LibSignal.Mlkem.Field

/-!
# Polynomials of ML-KEM and their encodings

Model of the polynomials of `internal/mlkem768incr/field.go`: compression and the byte encodings of 1, 4, 10
and 12 bits.
-/

namespace LibSignal.Mlkem
open Chunked (Bytes)
open Crypto (zeros)

inductive MlkemErr where
  | invalidEncodingLength
  | invalidPolynomialEncoding
  | invalidSeedLength
  | invalidEncapsulationKeyLength
  | invalidCiphertextLength
  | invalidPk1Length
  | invalidPk2Length
  | hashMismatch
  | invalidDecapsulationKeyLength
  | invalidCt1Length
  | invalidCt2Length
  | expandedHashMismatch
  | invalidEncapsStateLength
  | unfinishedSampling
deriving DecidableEq, Repr

abbrev n : Nat := 256
abbrev k : Nat := 3

@[ext]
structure Poly where
  coeffs : List FieldElement
  length_coeffs : coeffs.length = n
deriving DecidableEq, Repr

def Poly.zero : Poly := ⟨List.replicate n ⟨0, by decide⟩, List.length_replicate⟩

def polyAdd (a b : Poly) : Poly :=
  ⟨List.zipWith fieldAdd a.coeffs b.coeffs, by
    rw [List.length_zipWith, a.length_coeffs, b.length_coeffs, Nat.min_self]⟩

def polySub (a b : Poly) : Poly :=
  ⟨List.zipWith fieldSub a.coeffs b.coeffs, by
    rw [List.length_zipWith, a.length_coeffs, b.length_coeffs, Nat.min_self]⟩

def compress (x : FieldElement) (d : Nat) : UInt16 :=
  let dividend := x.val.toUInt32 <<< d.toUInt32
  let quotient := ((dividend.toUInt64 * 5039) >>> 24).toUInt32
  let remainder := dividend - quotient * 3329
  let quotient := quotient + ((1664 - remainder) >>> 31 &&& 1)
  let quotient := quotient + ((4993 - remainder) >>> 31 &&& 1)
  let mask : UInt32 := (1 <<< d.toUInt32) - 1
  (quotient &&& mask).toUInt16

def decompressWord (y : UInt16) (d : Nat) : UInt16 :=
  let dividend := y.toUInt32 * 3329
  let quotient := dividend >>> d.toUInt32
  (quotient + (dividend >>> (d - 1).toUInt32 &&& 1)).toUInt16

lemma toNat_decompressWord (y : UInt16) {d : Nat} (hpos : 1 ≤ d) (hd : d ≤ 10) (hy : y.toNat < 2 ^ d) :
    (decompressWord y d).toNat = y.toNat * 3329 / 2 ^ d + y.toNat * 3329 / 2 ^ (d - 1) % 2 ∧
      y.toNat * 3329 / 2 ^ d < 3328 := by
  have hpow : 2 ^ d ≤ 2 ^ 10 := Nat.pow_le_pow_right (by decide) hd
  have hdividend : (y.toUInt32 * 3329).toNat = y.toNat * 3329 := by
    rw [UInt32.toNat_mul, UInt16.toNat_toUInt32]
    change y.toNat * 3329 % 2 ^ 32 = _
    omega
  have hquotient : y.toNat * 3329 / 2 ^ d < 3328 := Nat.div_lt_of_lt_mul (by omega)
  have hshift : ∀ e ≤ 10, ((y.toUInt32 * 3329) >>> e.toUInt32).toNat = y.toNat * 3329 / 2 ^ e := by
    intro e he
    have hword : e.toUInt32.toNat % 32 = e := by
      change e % 2 ^ 32 % 32 = e
      omega
    rw [UInt32.toNat_shiftRight, hdividend, hword, Nat.shiftRight_eq_div_pow]
  have hbit : ((y.toUInt32 * 3329) >>> (d - 1).toUInt32 &&& 1).toNat = y.toNat * 3329 / 2 ^ (d - 1) % 2 := by
    rw [UInt32.toNat_and, hshift (d - 1) (by omega)]
    exact Nat.and_one_is_mod _
  refine ⟨?_, hquotient⟩
  rw [decompressWord, UInt32.toNat_toUInt16, UInt32.toNat_add, hbit, hshift d hd]
  have hsmall : y.toNat * 3329 / 2 ^ (d - 1) % 2 < 2 := Nat.mod_lt _ (by decide)
  generalize y.toNat * 3329 / 2 ^ (d - 1) % 2 = bit at hsmall ⊢
  generalize y.toNat * 3329 / 2 ^ d = quotient at hquotient ⊢
  change (quotient + bit) % 2 ^ 32 % 2 ^ 16 = quotient + bit
  omega

def decompress (y : UInt16) (d : Nat) (hpos : 1 ≤ d) (hd : d ≤ 10) (hy : y.toNat < 2 ^ d) : FieldElement :=
  ⟨decompressWord y d, by
    obtain ⟨hword, hlt⟩ := toNat_decompressWord y hpos hd hy
    rw [hword]
    change _ < 3329
    omega⟩

/-! ## Byte encodings -/

def encode12 : List FieldElement → Bytes
  | a :: b :: f =>
    let x := a.val.toUInt32 ||| b.val.toUInt32 <<< 12
    x.toUInt8 :: (x >>> 8).toUInt8 :: (x >>> 16).toUInt8 :: encode12 f
  | _ => []

def polyByteEncode (f : Poly) : Bytes := encode12 f.coeffs

def decode12 : Bytes → Option (List FieldElement)
  | b0 :: b1 :: b2 :: b => do
    let d := b0.toUInt32 ||| b1.toUInt32 <<< 8 ||| b2.toUInt32 <<< 16
    let f0 ← fieldCheckReduced (d &&& 0xFFF).toUInt16
    let f1 ← fieldCheckReduced (d >>> 12).toUInt16
    let f ← decode12 b
    return f0 :: f1 :: f
  | _ => some []

lemma length_decode12 {b : Bytes} {f : List FieldElement} (h : decode12 b = some f) :
    f.length = 2 * (b.length / 3) := by
  induction b using decode12.induct generalizing f with
  | case1 b0 b1 b2 b ih =>
    simp only [decode12, Option.bind_eq_bind, Option.bind_eq_some_iff, Option.pure_def, Option.some.injEq] at h
    obtain ⟨f0, _, f1, _, rest, hrest, rfl⟩ := h
    simp only [List.length_cons, ih hrest]
    omega
  | case2 b hb =>
    rw [decode12.eq_2 _ hb] at h
    cases h
    match b, hb with
    | [], _ => rfl
    | [_], _ => simp
    | [_, _], _ => simp
    | b0 :: b1 :: b2 :: b, hb => exact (hb b0 b1 b2 b rfl).elim

def encodingSize12 : Nat := n * 12 / 8

def polyByteDecode (b : Bytes) : Except MlkemErr Poly :=
  if hlen : b.length ≠ encodingSize12 then .error .invalidEncodingLength
  else
    match h : decode12 b with
    | none => .error .invalidPolynomialEncoding
    | some f => .ok ⟨f, by rw [length_decode12 h, not_not.mp hlen]; rfl⟩

def encode1 : Nat → List FieldElement → Bytes
  | 0, _ => []
  | m + 1, f =>
    ((List.range 8).foldl (fun b i => b ||| (compress (f.getD i ⟨0, by decide⟩) 1 <<< i.toUInt16).toUInt8) 0) ::
      encode1 m (f.drop 8)

def ringCompressAndEncode1 (f : Poly) : Bytes := encode1 (n / 8) f.coeffs

def decompressBit (b : UInt8) (i : Nat) : FieldElement :=
  ⟨((b >>> i.toUInt8) &&& 1).toUInt16 * 1665, by
    have hbit : ((b >>> i.toUInt8) &&& 1).toNat ≤ 1 := by
      rw [UInt8.toNat_and]
      exact Nat.and_le_right
    rw [UInt16.toNat_mul, UInt8.toNat_toUInt16]
    exact (Nat.mod_le _ _).trans_lt ((Nat.mul_le_mul_right 1665 hbit).trans_lt (by decide))⟩

def decode1 (b : Bytes) : List FieldElement := b.flatMap fun byte => (List.range 8).map (decompressBit byte)

lemma length_decode1 (b : Bytes) : (decode1 b).length = 8 * b.length := by
  induction b with
  | nil => rfl
  | cons byte b ih =>
    rw [decode1, List.flatMap_cons, List.length_append, ← decode1, ih, List.length_map, List.length_range,
      List.length_cons]
    ring

abbrev Message := { b : Bytes // b.length = 32 }

def ringDecodeAndDecompress1 (m : Message) : Poly := ⟨decode1 m.1, by rw [length_decode1, m.2]⟩

def encode4 : List FieldElement → Bytes
  | a :: b :: f => (compress a 4 ||| compress b 4 <<< 4).toUInt8 :: encode4 f
  | _ => []

def ringCompressAndEncode4 (f : Poly) : Bytes := encode4 f.coeffs

lemma low_half_lt (byte : UInt8) : (byte &&& 15).toUInt16.toNat < 2 ^ 4 := by
  rw [UInt8.toNat_toUInt16, UInt8.toNat_and]
  exact Nat.and_le_right.trans_lt (by decide)

lemma high_half_lt (byte : UInt8) : (byte >>> 4).toUInt16.toNat < 2 ^ 4 := by
  have hbyte := byte.toNat_lt
  rw [UInt8.toNat_toUInt16, UInt8.toNat_shiftRight]
  change byte.toNat >>> 4 < 2 ^ 4
  rw [Nat.shiftRight_eq_div_pow]
  omega

def decode4 : Bytes → List FieldElement
  | [] => []
  | byte :: b =>
    decompress (byte &&& 15).toUInt16 4 (by decide) (by decide) (low_half_lt byte) ::
      decompress (byte >>> 4).toUInt16 4 (by decide) (by decide) (high_half_lt byte) :: decode4 b

lemma length_decode4 (b : Bytes) : (decode4 b).length = 2 * b.length := by
  induction b with
  | nil => rfl
  | cons byte b ih =>
    rw [decode4, List.length_cons, List.length_cons, ih, List.length_cons]
    ring

def ringDecodeAndDecompress4 (b : { b : Bytes // b.length = 128 }) : Poly :=
  ⟨decode4 b.1, by rw [length_decode4, b.2]⟩

def encode10 : List FieldElement → Bytes
  | f0 :: f1 :: f2 :: f3 :: f =>
    let x := (compress f0 10).toUInt64 ||| (compress f1 10).toUInt64 <<< 10 |||
      (compress f2 10).toUInt64 <<< 20 ||| (compress f3 10).toUInt64 <<< 30
    x.toUInt8 :: (x >>> 8).toUInt8 :: (x >>> 16).toUInt8 :: (x >>> 24).toUInt8 :: (x >>> 32).toUInt8 :: encode10 f
  | _ => []

def ringCompressAndEncode10 (f : Poly) : Bytes := encode10 f.coeffs

lemma ten_bits_lt (x : UInt64) : (x &&& 0x3FF).toUInt16.toNat < 2 ^ 10 := by
  rw [UInt64.toNat_toUInt16, UInt64.toNat_and]
  exact (Nat.mod_le _ _).trans_lt (Nat.and_le_right.trans_lt (by decide))

def decompress10 (x : UInt64) : FieldElement :=
  decompress (x &&& 0x3FF).toUInt16 10 (by decide) (by decide) (ten_bits_lt x)

def decode10 : Bytes → List FieldElement
  | b0 :: b1 :: b2 :: b3 :: b4 :: b =>
    let x := b0.toUInt64 ||| b1.toUInt64 <<< 8 ||| b2.toUInt64 <<< 16 ||| b3.toUInt64 <<< 24 ||| b4.toUInt64 <<< 32
    decompress10 x :: decompress10 (x >>> 10) :: decompress10 (x >>> 20) :: decompress10 (x >>> 30) :: decode10 b
  | _ => []

lemma length_decode10 {m : Nat} {b : Bytes} (h : b.length = 5 * m) : (decode10 b).length = 4 * m := by
  induction m generalizing b with
  | zero =>
    rw [List.eq_nil_of_length_eq_zero h]
    rfl
  | succ m ih =>
    match b, h with
    | b0 :: b1 :: b2 :: b3 :: b4 :: b, h =>
      simp only [List.length_cons] at h
      simp only [decode10, List.length_cons, ih (show b.length = 5 * m by omega)]
      omega

def ringDecodeAndDecompress10 (b : { b : Bytes // b.length = 320 }) : Poly :=
  ⟨decode10 b.1, length_decode10 (m := 64) b.2⟩

end LibSignal.Mlkem
