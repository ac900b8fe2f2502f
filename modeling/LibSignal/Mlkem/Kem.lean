import LibSignal.Mlkem.Codec
import LibSignal.Lib.ExceptBind

/-!
# ML-KEM-768

Model of the samplers of `internal/mlkem768incr/field.go` and of `internal/mlkem768incr/mlkem.go`: key
generation, encapsulation with a given message, and decapsulation with implicit rejection.
-/

namespace LibSignal.Mlkem
open Chunked (Bytes ofBe16)
open Crypto (zeros length_zeros)

abbrev Bytes32 := { b : Bytes // b.length = 32 }

/-- SHA-3 and SHAKE (`crypto/sha3`). Block `i` of the stream of SHAKE128 is what read number `i` of 24 bytes
returns. -/
class Sha3 where
  sha3_256 : Bytes → Bytes32
  sha3_512 : Bytes → { b : Bytes // b.length = 64 }
  shake256 : Bytes → (size : Nat) → { b : Bytes // b.length = size }
  shake128 : Bytes → (i : Nat) → { b : Bytes // b.length = 24 }

export Sha3 (sha3_256 sha3_512 shake256 shake128)

/-! ## Samplers -/

def accept (d : UInt16) (a : List FieldElement) : List FieldElement :=
  if h : d.toNat < q then a ++ [⟨d, h⟩] else a

def sampleBuffer : Bytes → List FieldElement → Poly ⊕ List FieldElement
  | b₀ :: b₁ :: b₂ :: b, a =>
    let d1 := ofBe16 b₁ b₀ &&& 0xFFF
    let d2 := ofBe16 b₂ b₁ >>> 4
    let a1 := accept d1 a
    if h1 : a1.length = n then .inl ⟨a1, h1⟩
    else
      let a2 := accept d2 a1
      if h2 : a2.length = n then .inl ⟨a2, h2⟩ else sampleBuffer b a2
  | _, a => .inr a

section Model
variable [Sha3]

def sampleLoop (input : Bytes) : (reads : Nat) → (i : Nat) → List FieldElement → Option Poly
  | 0, _, _ => none
  | reads + 1, i, a =>
    match sampleBuffer (shake128 input i).1 a with
    | .inl f => some f
    | .inr a' => sampleLoop input reads (i + 1) a'

def sampleNTT (reads : Nat) (rho : Bytes) (ii jj : UInt8) : Option Poly :=
  sampleLoop (rho ++ [ii, jj]) reads 0 []

/-! ### What the rejection sampler returns -/

def reducedValues : Bytes → List FieldElement
  | b₀ :: b₁ :: b₂ :: b =>
    accept (ofBe16 b₂ b₁ >>> 4) (accept (ofBe16 b₁ b₀ &&& 0xFFF) []) ++ reducedValues b
  | _ => []

omit [Sha3] in
lemma accept_eq_append (d : UInt16) (a : List FieldElement) : accept d a = a ++ accept d [] := by
  rw [accept, accept]
  split
  · rw [List.nil_append]
  · rw [List.append_nil]

omit [Sha3] in
lemma length_accept_nil_le (d : UInt16) : (accept d []).length ≤ 1 := by
  rw [accept]
  split
  · exact le_rfl
  · exact Nat.zero_le _

omit [Sha3] in
lemma accept_accept (d1 d2 : UInt16) (a : List FieldElement) :
    accept d2 (accept d1 a) = a ++ accept d2 (accept d1 []) := by
  rw [accept_eq_append d1 a, accept_eq_append d2 (a ++ accept d1 []), accept_eq_append d2 (accept d1 []),
    List.append_assoc]

omit [Sha3] in
lemma sampleBuffer_spec (b : Bytes) (a : List FieldElement) (ha : a.length < n) :
    (∃ f : Poly, sampleBuffer b a = .inl f ∧ f.coeffs <+: a ++ reducedValues b) ∨
      sampleBuffer b a = .inr (a ++ reducedValues b) ∧ (a ++ reducedValues b).length < n := by
  induction b, a using sampleBuffer.induct with
  | case1 b₀ b₁ b₂ b a d1 a1 h1 =>
    refine .inl ⟨⟨a1, h1⟩, ?_, ?_⟩
    · rw [sampleBuffer, dif_pos h1]
    · change accept d1 a <+: _
      rw [reducedValues, accept_eq_append (ofBe16 b₂ b₁ >>> 4), List.append_assoc, ← List.append_assoc,
        accept_eq_append d1 a]
      exact List.prefix_append _ _
  | case2 b₀ b₁ b₂ b a d1 d2 a1 h1 a2 h2 =>
    refine .inl ⟨⟨a2, h2⟩, ?_, ?_⟩
    · rw [sampleBuffer, dif_neg h1, dif_pos h2]
    · change accept d2 (accept d1 a) <+: _
      rw [reducedValues, ← List.append_assoc, accept_accept d1 d2 a]
      exact List.prefix_append _ _
  | case3 b₀ b₁ b₂ b a d1 d2 a1 h1 a2 h2 ih =>
    have hvalue : a2 = a ++ accept d2 (accept d1 []) := accept_accept d1 d2 a
    -- a candidate adds at most one coefficient, so that the polynomial is not passed by
    have hlen1 : a1.length ≤ a.length + 1 := by
      rw [show a1 = a ++ accept d1 [] from accept_eq_append d1 a, List.length_append]
      exact Nat.add_le_add_left (length_accept_nil_le d1) _
    have hlen2 : a2.length ≤ a1.length + 1 := by
      rw [show a2 = a1 ++ accept d2 [] from accept_eq_append d2 a1, List.length_append]
      exact Nat.add_le_add_left (length_accept_nil_le d2) _
    have hstep : sampleBuffer (b₀ :: b₁ :: b₂ :: b) a = sampleBuffer b a2 := by
      rw [sampleBuffer, dif_neg h1, dif_neg h2]
    rw [hstep, reducedValues, ← List.append_assoc, ← hvalue]
    exact ih (by omega)
  | case4 b a hb =>
    have hnone : reducedValues b = [] := reducedValues.eq_2 b hb
    rw [hnone, List.append_nil]
    exact .inr ⟨sampleBuffer.eq_2 b a hb, ha⟩

def streamValues (input : Bytes) (reads i : Nat) : List FieldElement :=
  (List.range reads).flatMap fun j => reducedValues (shake128 input (i + j)).1

lemma streamValues_succ (input : Bytes) (reads i : Nat) :
    streamValues input (reads + 1) i = reducedValues (shake128 input i).1 ++ streamValues input reads (i + 1) := by
  rw [streamValues, List.range_succ_eq_map, List.flatMap_cons, List.flatMap_map, streamValues]
  simp only [Nat.add_zero, Nat.succ_eq_add_one, Nat.add_assoc, Nat.add_comm 1]

lemma sampleLoop_spec (input : Bytes) (reads i : Nat) (a : List FieldElement) (ha : a.length < n) :
    match sampleLoop input reads i a with
    | some f => f.coeffs <+: a ++ streamValues input reads i
    | none => (a ++ streamValues input reads i).length < n := by
  induction reads generalizing i a with
  | zero => simpa [sampleLoop, streamValues] using ha
  | succ reads ih =>
    rw [streamValues_succ, ← List.append_assoc]
    obtain ⟨f, hbuffer, hpre⟩ | ⟨hbuffer, hlt⟩ := sampleBuffer_spec (shake128 input i).1 a ha
    · simp only [sampleLoop, hbuffer]
      exact hpre.trans (List.prefix_append _ _)
    · simp only [sampleLoop, hbuffer]
      exact ih (i + 1) _ hlt

lemma sampleNTT_eq (reads : Nat) (rho : Bytes) (ii jj : UInt8) :
    (sampleNTT reads rho ii jj).map Poly.coeffs =
      if n ≤ (streamValues (rho ++ [ii, jj]) reads 0).length then
        some ((streamValues (rho ++ [ii, jj]) reads 0).take n) else none := by
  have hspec := sampleLoop_spec (rho ++ [ii, jj]) reads 0 [] (by decide)
  rw [sampleNTT]
  cases hloop : sampleLoop (rho ++ [ii, jj]) reads 0 [] with
  | none =>
    rw [hloop, List.nil_append] at hspec
    rw [if_neg (not_le.mpr hspec)]
    rfl
  | some f =>
    rw [hloop, List.nil_append] at hspec
    have hlen := f.length_coeffs
    rw [if_pos (hlen ▸ hspec.length_le), Option.map_some, List.prefix_iff_eq_take.mp hspec, hlen]

/-! ### Small coefficients -/

def FieldElement.ofByte (b : UInt8) : FieldElement :=
  ⟨b.toUInt16, by
    have hb := b.toNat_lt
    rw [UInt8.toNat_toUInt16]
    change _ < 3329
    omega⟩

def cbdCoeffs : Bytes → List FieldElement
  | [] => []
  | b :: bs =>
    let b7 := b >>> 7
    let b6 := b >>> 6 &&& 1
    let b5 := b >>> 5 &&& 1
    let b4 := b >>> 4 &&& 1
    let b3 := b >>> 3 &&& 1
    let b2 := b >>> 2 &&& 1
    let b1 := b >>> 1 &&& 1
    let b0 := b &&& 1
    fieldSub (.ofByte (b0 + b1)) (.ofByte (b2 + b3)) :: fieldSub (.ofByte (b4 + b5)) (.ofByte (b6 + b7)) ::
      cbdCoeffs bs

omit [Sha3] in
lemma length_cbdCoeffs (b : Bytes) : (cbdCoeffs b).length = 2 * b.length := by
  induction b with
  | nil => rfl
  | cons b bs ih =>
    rw [cbdCoeffs, List.length_cons, List.length_cons, ih, List.length_cons]
    ring

def samplePolyCBD (s : Bytes) (b : UInt8) : Poly :=
  ⟨cbdCoeffs (shake256 (s ++ [b]) 128).1, by rw [length_cbdCoeffs, (shake256 (s ++ [b]) 128).2]⟩

/-! ## Keys -/

abbrev Matrix := Fin k → Fin k → Poly

def sampleMatrix (reads : Nat) (rho : Bytes) : Except MlkemErr Matrix :=
  if h : ∀ i j : Fin k, (sampleNTT reads rho j.val.toUInt8 i.val.toUInt8).isSome then
    .ok fun i j => (sampleNTT reads rho j.val.toUInt8 i.val.toUInt8).get (h i j)
  else .error .unfinishedSampling

structure EncryptionKey where
  t : Vec
  a : Matrix

structure DecapsulationKey768 where
  d : Bytes32
  z : Bytes32
  rho : Bytes32
  h : Bytes32
  encryptionKey : EncryptionKey
  s : Vec

structure EncapsulationKey768 where
  rho : Bytes32
  h : Bytes32
  encryptionKey : EncryptionKey

def DecapsulationKey768.encapsulationKey (dk : DecapsulationKey768) : EncapsulationKey768 where
  rho := dk.rho
  h := dk.h
  encryptionKey := dk.encryptionKey

def encodeVec (v : Vec) : Bytes := (List.finRange k).flatMap fun i => polyByteEncode (v i)

def EncapsulationKey768.bytes (ek : EncapsulationKey768) : Bytes := encodeVec ek.encryptionKey.t ++ ek.rho.1

def addProducts (acc : Poly) (f g : Vec) : Poly :=
  (List.finRange k).foldl (fun acc j => polyAdd acc (nttMul (f j) (g j))) acc

def firstHalf (b : { b : Bytes // b.length = 64 }) : Bytes32 :=
  ⟨b.1.take 32, by rw [List.length_take, b.2]; rfl⟩

def secondHalf (b : { b : Bytes // b.length = 64 }) : Bytes32 :=
  ⟨b.1.drop 32, by rw [List.length_drop, b.2]⟩

def kemKeyGen (reads : Nat) (d z : Bytes32) : Except MlkemErr DecapsulationKey768 := do
  let digest := sha3_512 (d.1 ++ [k.toUInt8])
  let rho := firstHalf digest
  let sigma := secondHalf digest
  let a ← sampleMatrix reads rho.1
  let s : Vec := fun i => ntt (samplePolyCBD sigma.1 i.val.toUInt8)
  let e : Vec := fun i => ntt (samplePolyCBD sigma.1 (k + i.val).toUInt8)
  let t : Vec := fun i => addProducts (e i) (a i) s
  let h := sha3_256 (encodeVec t ++ rho.1)
  return { d := d, z := z, rho := rho, h := h, encryptionKey := ⟨t, a⟩, s := s }

def newDecapsulationKey768 (reads : Nat) (seed : Bytes) : Except MlkemErr DecapsulationKey768 :=
  if h : seed.length = 64 then kemKeyGen reads (firstHalf ⟨seed, h⟩) (secondHalf ⟨seed, h⟩)
  else .error .invalidSeedLength

/-- The seed of the secret and the error of a key. -/
def DecapsulationKey768.sigma (dk : DecapsulationKey768) : Bytes := (secondHalf (sha3_512 (dk.d.1 ++ [k.toUInt8]))).1

structure Expanded (reads : Nat) (dk : DecapsulationKey768) : Prop where
  matrix : sampleMatrix reads dk.rho.1 = .ok dk.encryptionKey.a
  hash : dk.h = sha3_256 dk.encapsulationKey.bytes
  secret : ∀ i, dk.s i = ntt (samplePolyCBD dk.sigma i.val.toUInt8)
  vector : ∀ i, dk.encryptionKey.t i =
    addProducts (ntt (samplePolyCBD dk.sigma (k + i.val).toUInt8)) (dk.encryptionKey.a i) dk.s

lemma newDecapsulationKey768_expanded {reads : Nat} {seed : Bytes} {dk : DecapsulationKey768}
    (h : newDecapsulationKey768 reads seed = .ok dk) : Expanded reads dk := by
  rw [newDecapsulationKey768] at h
  split at h
  · rw [kemKeyGen] at h
    obtain ⟨a, ha, hkey⟩ := Lib.bind_eq_ok h
    cases hkey
    exact ⟨ha, rfl, fun _ => rfl, fun _ => rfl⟩
  · cases h

def decodeVec (b : Bytes) : Except MlkemErr Vec := do
  let f0 ← polyByteDecode (b.take encodingSize12)
  let f1 ← polyByteDecode ((b.drop encodingSize12).take encodingSize12)
  let f2 ← polyByteDecode ((b.drop (2 * encodingSize12)).take encodingSize12)
  return ![f0, f1, f2]

def encapsulationKeySize768 : Nat := k * encodingSize12 + 32

def newEncapsulationKey768 (reads : Nat) (b : Bytes) : Except MlkemErr EncapsulationKey768 :=
  if hlen : b.length = encapsulationKeySize768 then do
    let h := sha3_256 b
    let t ← decodeVec b
    let rho : Bytes32 := slice b (k * encodingSize12) 32 hlen.ge
    let a ← sampleMatrix reads rho.1
    return { rho := rho, h := h, encryptionKey := ⟨t, a⟩ }
  else .error .invalidEncapsulationKeyLength

structure Noise where
  r : Vec
  e1 : Vec
  e2 : Poly

def sampleNoise (rnd : Bytes) : Noise where
  r i := ntt (samplePolyCBD rnd i.val.toUInt8)
  e1 i := samplePolyCBD rnd (k + i.val).toUInt8
  e2 := samplePolyCBD rnd (2 * k).toUInt8

def encryptU (a : Matrix) (noise : Noise) : Vec :=
  fun i => polyAdd (noise.e1 i) (inverseNTT (addProducts Poly.zero (fun j => a j i) noise.r))

def encryptV (t r : Vec) (e2 : Poly) (m : Message) : Poly :=
  polyAdd (polyAdd (inverseNTT (addProducts Poly.zero t r)) e2) (ringDecodeAndDecompress1 m)

def encodeU (u : Vec) : Bytes := (List.finRange k).flatMap fun i => ringCompressAndEncode10 (u i)

def pkeEncrypt (ex : EncryptionKey) (m : Message) (rnd : Bytes) : Bytes :=
  let noise := sampleNoise rnd
  encodeU (encryptU ex.a noise) ++ ringCompressAndEncode4 (encryptV ex.t noise.r noise.e2 m)

def EncapsulationKey768.encapsulateInternal (ek : EncapsulationKey768) (m : Message) : Bytes × Bytes :=
  let digest := sha3_512 (m.1 ++ ek.h.1)
  ((firstHalf digest).1, pkeEncrypt ek.encryptionKey m (secondHalf digest).1)

def ciphertextSize768 : Nat := 1088

def decodeU (c : { c : Bytes // c.length = ciphertextSize768 }) : Vec :=
  fun i => ringDecodeAndDecompress10 (slice c.1 (320 * i) 320 (by
    have hi : (i : Nat) < 3 := i.isLt
    rw [c.2, ciphertextSize768]
    omega))

def decodeV (c : { c : Bytes // c.length = ciphertextSize768 }) : Poly :=
  ringDecodeAndDecompress4 (slice c.1 960 128 c.2.ge)

def decryptW (s : Vec) (c : { c : Bytes // c.length = ciphertextSize768 }) : Poly :=
  polySub (decodeV c) (inverseNTT (addProducts Poly.zero s fun i => ntt (decodeU c i)))

omit [Sha3] in
lemma length_encode1 (m : Nat) (f : List FieldElement) : (encode1 m f).length = m := by
  induction m generalizing f with
  | zero => rfl
  | succ m ih => rw [encode1, List.length_cons, ih]

def pkeDecrypt (s : Vec) (c : { c : Bytes // c.length = ciphertextSize768 }) : Message :=
  ⟨ringCompressAndEncode1 (decryptW s c), length_encode1 _ _⟩

def DecapsulationKey768.decapsulate (dk : DecapsulationKey768) (ciphertext : Bytes) : Except MlkemErr Bytes :=
  if h : ciphertext.length = ciphertextSize768 then
    let m := pkeDecrypt dk.s ⟨ciphertext, h⟩
    let digest := sha3_512 (m.1 ++ dk.h.1)
    let kout := shake256 (dk.z.1 ++ ciphertext) 32
    let c1 := pkeEncrypt dk.encryptionKey m (secondHalf digest).1
    .ok (if ciphertext = c1 then (firstHalf digest).1 else kout.1)
  else .error .invalidCiphertextLength

end Model

@[reducible] def zeroSha3 : Sha3 where
  sha3_256 _ := ⟨zeros 32, length_zeros 32⟩
  sha3_512 _ := ⟨zeros 64, length_zeros 64⟩
  shake256 _ size := ⟨zeros size, length_zeros size⟩
  shake128 _ _ := ⟨zeros 24, length_zeros 24⟩

/-- Zeros are below `q`, so that sixteen blocks of sixteen candidates are enough. -/
lemma sampleMatrix_zeroSha3 (rho : Bytes) : ∃ a, @sampleMatrix zeroSha3 16 rho = .ok a := by
  let _ : Sha3 := zeroSha3
  have hvalues : ∀ input : Bytes, streamValues input 16 0 = (List.range 16).flatMap fun _ => reducedValues (zeros 24) :=
    fun _ => rfl
  have hcount : ((List.range 16).flatMap fun _ => reducedValues (zeros 24)).length = n := by decide +kernel
  have hsome : ∀ i j : Fin k, (sampleNTT 16 rho j.val.toUInt8 i.val.toUInt8).isSome := by
    intro i j
    have hsample := sampleNTT_eq 16 rho j.val.toUInt8 i.val.toUInt8
    rw [hvalues, hcount, if_pos le_rfl] at hsample
    rw [← Option.isSome_map (f := Poly.coeffs), hsample]
    rfl
  exact ⟨_, dif_pos hsome⟩

lemma newDecapsulationKey768_zeroSha3 : ∃ dk, @newDecapsulationKey768 zeroSha3 16 (zeros 64) = .ok dk := by
  let _ : Sha3 := zeroSha3
  obtain ⟨a, ha⟩ := sampleMatrix_zeroSha3 (zeros 32)
  have hrho : (firstHalf (sha3_512 ((firstHalf ⟨zeros 64, length_zeros 64⟩).1 ++ [k.toUInt8]))).1 = zeros 32 := rfl
  rw [newDecapsulationKey768, dif_pos (length_zeros 64), kemKeyGen]
  simp only [hrho, ha, Lib.ok_bind, Lib.pure_eq_ok]
  exact ⟨_, rfl⟩

end LibSignal.Mlkem
