import LibSignal.Chunked.Stream

/-!
# Cryptographic primitives

The hash functions and the incremental KEM the ratchets are built from.
-/

namespace LibSignal.Crypto
open Chunked (Bytes)

def ascii (s : String) : Bytes := s.toList.map fun c => c.toNat.toUInt8

class Hash where
  hmacSHA256 : (key input : Bytes) → Bytes
  hmacSHA256_length : ∀ key input, (hmacSHA256 key input).length = 32
  hkdfSHA256 : (ikm salt info : Bytes) → Nat → Bytes
  hkdfSHA256_length : ∀ ikm salt info n, n ≤ 8160 → (hkdfSHA256 ikm salt info n).length = n

attribute [simp] Hash.hmacSHA256_length

export Hash (hmacSHA256 hkdfSHA256 hmacSHA256_length hkdfSHA256_length)

class Sha512 where
  sha512 : Bytes → Bytes
  sha512_length : ∀ input, (sha512 input).length = 64

export Sha512 (sha512 sha512_length)

structure IncrementalKey where
  pk1 : Bytes
  pk2 : Bytes
  dk : Bytes

structure EncapsulationResult where
  ciphertext1 : Bytes
  encapsState : Bytes
  sharedSecret : Bytes

def seedSize : Nat := 64
def publicKey1Size : Nat := 64
def publicKey2Size : Nat := 1152
def ciphertext1Size : Nat := 960
def ciphertext2Size : Nat := 128

structure KemErr where
  text : String
deriving DecidableEq, Repr

class IncrementalKem where
  generateIncrementalKey : (seed : Bytes) → Except KemErr IncrementalKey
  generate_ok : ∀ seed, seed.length = seedSize → ∃ k, generateIncrementalKey seed = .ok k ∧
    k.pk1.length = publicKey1Size ∧ k.pk2.length = publicKey2Size
  encapsulate1Internal : (pk1 m : Bytes) → Except KemErr EncapsulationResult
  encapsulate1_ok : ∀ pk1 m, pk1.length = publicKey1Size →
    ∃ r, encapsulate1Internal pk1 m = .ok r ∧ r.ciphertext1.length = ciphertext1Size
  validatePublicKeyParts : (pk1 pk2 : Bytes) → Except KemErr Unit
  encapsulate2 : (state pk2 : Bytes) → Except KemErr Bytes
  encapsulate2_length : ∀ state pk2 ct2, encapsulate2 state pk2 = .ok ct2 →
    ct2.length = ciphertext2Size
  decapsulateCompressedKey : (dk ct1 ct2 : Bytes) → Except KemErr Bytes

namespace IncrementalKem

/-- Honest ML-KEM correctness: the parts of a generated key match, and encapsulating to it in two phases
and decapsulating yields one shared secret. -/
structure Correct [IncrementalKem] : Prop where
  validate : ∀ seed k, generateIncrementalKey seed = .ok k →
    validatePublicKeyParts k.pk1 k.pk2 = .ok ()
  exchange : ∀ seed k m r, m.length = 32 → generateIncrementalKey seed = .ok k →
    encapsulate1Internal k.pk1 m = .ok r →
    ∃ ct2, encapsulate2 r.encapsState k.pk2 = .ok ct2 ∧
      decapsulateCompressedKey k.dk r.ciphertext1 ct2 = .ok r.sharedSecret

end IncrementalKem

export IncrementalKem (generateIncrementalKey generate_ok encapsulate1Internal encapsulate1_ok
  validatePublicKeyParts encapsulate2 encapsulate2_length decapsulateCompressedKey)

structure Reader where
  read : Nat → Option Bytes
  read_length : ∀ n b, read n = some b → b.length = n

/-- The random source of a call that reads more than once, by the number of the read. -/
abbrev Readers := Nat → Reader

/-! ## A trivial instance

All outputs are zero bytes. It satisfies every law above and serves to evaluate the model on fixed
inputs. -/

def zeros (n : Nat) : Bytes := List.replicate n 0

@[simp] lemma length_zeros (n : Nat) : (zeros n).length = n := List.length_replicate ..

lemma length_zeros_16 : (zeros 16).length = 16 := length_zeros 16

lemma length_zeros_32 : (zeros 32).length = 32 := length_zeros 32

lemma length_one_zeros : (1 :: zeros 31).length = 32 := rfl

lemma length_some_zeros (n : Nat) (b : Bytes) (h : some (zeros n) = some b) : b.length = n := by
  cases h
  exact length_zeros n

@[reducible] def zeroHash : Hash where
  hmacSHA256 _ _ := zeros 32
  hmacSHA256_length _ _ := length_zeros 32
  hkdfSHA256 _ _ _ n := zeros n
  hkdfSHA256_length _ _ _ n _ := length_zeros n

@[reducible] def zeroKem : IncrementalKem where
  generateIncrementalKey _ := .ok ⟨zeros 64, zeros 1152, zeros 2400⟩
  generate_ok _ _ := ⟨_, rfl, length_zeros _, length_zeros _⟩
  encapsulate1Internal _ _ := .ok ⟨zeros 960, zeros 2080, zeros 32⟩
  encapsulate1_ok _ _ _ := ⟨_, rfl, length_zeros _⟩
  validatePublicKeyParts _ _ := .ok ()
  encapsulate2 _ _ := .ok (zeros 128)
  encapsulate2_length _ _ _ h := by cases h; exact length_zeros _
  decapsulateCompressedKey _ _ _ := .ok (zeros 32)

lemma zeroKem_correct : @IncrementalKem.Correct zeroKem := by
  refine @IncrementalKem.Correct.mk zeroKem ?_ ?_
  · intro seed k _
    rfl
  · rintro seed k m r hm hk hr
    cases hr
    exact ⟨_, rfl, rfl⟩

def zeroReader : Reader := ⟨fun n => some (zeros n), by rintro n b h; cases h; exact length_zeros n⟩

@[reducible] def zeroSha512 : Sha512 where
  sha512 _ := zeros 64
  sha512_length _ := length_zeros 64

end LibSignal.Crypto
