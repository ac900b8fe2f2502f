import LibSignal.Crypto.Primitives
import LibSignal.Lib.ExceptBind

/-!
# Curve25519 keys

Model of `curve/curve.go` and `curve/keypair.go`: the key types with their wire form, key agreement and key
pairs.
-/

namespace LibSignal.Curve
open Chunked (Bytes)
open Crypto Lib

inductive KeyType where
  | djb
deriving DecidableEq, Repr

def KeyType.toByte : KeyType → UInt8
  | .djb => 0x05

inductive CurveErr where
  | noKeyTypeIdentifier
  | badKeyType (type : UInt8)
  | badKeyLength (keyType : KeyType) (length : Nat)
  | invalidKeyAgreement
  | degenerateScalar
  | randomSource
  | scalarInput (length : Nat)
  | hashInput (length : Nat)
  | uniformBytes
deriving DecidableEq, Repr

def keyTypeFromByte (b : UInt8) : Except CurveErr KeyType :=
  if b = 0x05 then .ok .djb else .error (.badKeyType b)

def publicKeyLength : Nat := 32
def privateKeyLength : Nat := 32

@[ext]
structure PublicKey where
  keyType : KeyType
  data : Bytes
  length_data : data.length = publicKeyLength
deriving DecidableEq, Repr

def newPublicKey (bytes : Bytes) : Except CurveErr PublicKey :=
  if h : bytes.length = publicKeyLength then .ok ⟨.djb, bytes, h⟩
  else .error (.badKeyLength .djb bytes.length)

/-- Parse a public key; bytes after the key are allowed. -/
def deserializePublicKey (value : Bytes) : Except CurveErr PublicKey :=
  match value with
  | [] => .error .noKeyTypeIdentifier
  | t :: body => do
    let keyType ← keyTypeFromByte t
    match keyType with
    | .djb =>
      if body.length < publicKeyLength then .error (.badKeyLength .djb (body.length + 1))
      else newPublicKey (body.take publicKeyLength)

namespace PublicKey

def publicKeyBytes (p : PublicKey) : Bytes := p.data

def serialize (p : PublicKey) : Bytes := p.keyType.toByte :: p.data

def equal (p other : PublicKey) : Bool :=
  if p.keyType ≠ other.keyType then false else p.data == other.data

lemma equal_iff {p other : PublicKey} : p.equal other = true ↔ p = other := by
  rw [equal]
  constructor
  · intro h
    split at h
    · cases h
    · exact PublicKey.ext (not_not.mp ‹_›) (eq_of_beq h)
  · rintro rfl
    rw [if_neg (not_not.mpr rfl)]
    exact beq_self_eq_true _

@[simp] lemma length_serialize (p : PublicKey) : p.serialize.length = 33 := by
  rw [serialize, List.length_cons, p.length_data]
  rfl

lemma serialize_injective {p q : PublicKey} (h : p.serialize = q.serialize) : p = q := by
  obtain ⟨hd, tl⟩ := List.cons.inj h
  exact PublicKey.ext (by cases p.keyType; cases q.keyType; rfl) tl

end PublicKey

lemma newPublicKey_data (p : PublicKey) : newPublicKey p.data = .ok p := by
  obtain ⟨⟨⟩, data, hlen⟩ := p
  exact dif_pos hlen

lemma deserializePublicKey_serialize (p : PublicKey) : deserializePublicKey p.serialize = .ok p := by
  have htype : keyTypeFromByte p.keyType.toByte = .ok .djb := by cases p.keyType; rfl
  rw [PublicKey.serialize, deserializePublicKey, htype, ok_bind]
  have hlen : ¬ p.data.length < publicKeyLength := by rw [p.length_data]; exact lt_irrefl _
  dsimp only
  rw [if_neg hlen, List.take_of_length_le (le_of_eq p.length_data)]
  exact newPublicKey_data p

/-! ## Private keys and agreement -/

def clamp (scalar : Bytes) : Bytes :=
  let s := scalar.set 0 (scalar.getD 0 0 &&& 248)
  let s := s.set 31 (s.getD 31 0 &&& 127)
  s.set 31 (s.getD 31 0 ||| 64)

@[simp] lemma length_clamp (scalar : Bytes) : (clamp scalar).length = scalar.length := by
  simp [clamp]

lemma clamp_high (b : UInt8) : (b &&& 127 ||| 64) &&& 127 ||| 64 = b &&& 127 ||| 64 := by
  apply UInt8.eq_of_toBitVec_eq
  simp only [UInt8.toBitVec_or, UInt8.toBitVec_and]
  generalize b.toBitVec = x
  revert x
  decide

lemma clamp_eq {scalar : Bytes} (h : scalar.length = privateKeyLength) :
    clamp scalar = (scalar.set 0 (scalar.getD 0 0 &&& 248)).set 31 (scalar.getD 31 0 &&& 127 ||| 64) := by
  have h31 : 31 < scalar.length := by rw [h]; decide
  simp [clamp, List.getD_eq_getElem?_getD, h31]

lemma clamp_clamp {scalar : Bytes} (h : scalar.length = privateKeyLength) :
    clamp (clamp scalar) = clamp scalar := by
  have h0 : 0 < scalar.length := by rw [h]; decide
  have h31 : 31 < scalar.length := by rw [h]; decide
  have hlow : ∀ b : UInt8, b &&& 248 &&& 248 = b &&& 248 := by
    intro b
    rw [UInt8.and_assoc]
    rfl
  rw [clamp_eq ((length_clamp scalar).trans h), clamp_eq h]
  apply List.ext_getElem?
  intro i
  simp only [List.getElem?_set, List.length_set, List.getD_eq_getElem?_getD, h0, h31, if_true]
  split
  · simp [clamp_high]
  · split
    · simp [hlow]
    · rfl

structure PrivateKey where
  keyType : KeyType
  data : Bytes
  length_data : data.length = privateKeyLength
  clamped : clamp data = data
deriving DecidableEq, Repr

def privateKeyFromBytes (bytes : Bytes) (h : bytes.length = privateKeyLength) : PrivateKey :=
  ⟨.djb, clamp bytes, (length_clamp bytes).trans h, clamp_clamp h⟩

def deserializePrivateKey (value : Bytes) : Except CurveErr PrivateKey :=
  if h : value.length = privateKeyLength then .ok (privateKeyFromBytes value h)
  else .error (.badKeyLength .djb value.length)

lemma deserializePrivateKey_data (p : PrivateKey) : deserializePrivateKey p.data = .ok p := by
  obtain ⟨⟨⟩, data, hlen, hclamped⟩ := p
  rw [deserializePrivateKey, dif_pos hlen, privateKeyFromBytes]
  simp only [hclamped]

/-- Scalar multiplication (`curve25519.X25519`); `none` is its error for a low-order result. -/
class X25519 where
  x25519 : (scalar point : Bytes) → Option Bytes
  x25519_length : ∀ scalar point out, x25519 scalar point = some out → out.length = 32

export X25519 (x25519 x25519_length)

def basepoint : Bytes := 9 :: zeros 31

structure KeyPair where
  publicKey : PublicKey
  privateKey : PrivateKey
deriving DecidableEq, Repr

section
variable [X25519]

def pointOf (scalar point : Bytes) : Option PublicKey :=
  match h : x25519 scalar point with
  | some out => some ⟨.djb, out, x25519_length _ _ _ h⟩
  | none => none

namespace PrivateKey

def publicKey (p : PrivateKey) : Except CurveErr PublicKey :=
  match pointOf p.data basepoint with
  | some pub => .ok pub
  | none => .error .degenerateScalar

def calculateAgreement (p : PrivateKey) (theirKey : PublicKey) : Except CurveErr Bytes :=
  match x25519 p.data theirKey.data with
  | some shared => .ok shared
  | none => .error .invalidKeyAgreement

end PrivateKey

def readKeyBytes (rng : Reader) (n : Nat) : Except CurveErr Bytes :=
  match rng.read n with
  | some b => .ok b
  | none => .error .randomSource

def keyPairFromPrivateKey (p : PrivateKey) : Except CurveErr KeyPair := do
  let pub ← p.publicKey
  return ⟨pub, p⟩

def generateKeyPair (rng : Reader) : Except CurveErr KeyPair :=
  match h : rng.read privateKeyLength with
  | some seed => keyPairFromPrivateKey (privateKeyFromBytes seed (rng.read_length _ _ h))
  | none => .error .randomSource

/-- The public key belongs to the private key. -/
def KeyPair.Valid (k : KeyPair) : Prop := k.privateKey.publicKey = .ok k.publicKey

/-- Honest agreements: every private key has a public key, and two key pairs agree on one secret. -/
structure X25519.Commutes : Prop where
  publicKey : ∀ p : PrivateKey, ∃ pub, p.publicKey = .ok pub
  agreement : ∀ k k' : KeyPair, k.Valid → k'.Valid →
    ∃ s, k.privateKey.calculateAgreement k'.publicKey = .ok s ∧
      k'.privateKey.calculateAgreement k.publicKey = .ok s

lemma keyPairFromPrivateKey_inv {p : PrivateKey} {k : KeyPair}
    (h : keyPairFromPrivateKey p = .ok k) : k.Valid ∧ k.privateKey = p := by
  obtain ⟨pub, hpub, hk⟩ := bind_eq_ok h
  cases hk
  exact ⟨hpub, rfl⟩

lemma generateKeyPair_valid {rng : Reader} {k : KeyPair} (h : generateKeyPair rng = .ok k) : k.Valid := by
  rw [generateKeyPair] at h
  split at h
  · exact (keyPairFromPrivateKey_inv h).1
  · cases h

lemma length_agreement {p : PrivateKey} {pub : PublicKey} {s : Bytes}
    (h : p.calculateAgreement pub = .ok s) : s.length = 32 := by
  rw [PrivateKey.calculateAgreement] at h
  split at h
  · cases h
    exact x25519_length _ _ _ ‹_›
  · cases h

end

/-- Arithmetic on the Edwards curve, as far as it decides whether a point has a small-order part
(`IsTorsionFree`). -/
class EdwardsPoints where
  isTorsionFree : PublicKey → Bool

export EdwardsPoints (isTorsionFree)

def PublicKey.scalarIsInRange (p : PublicKey) : Bool :=
  let highBitSet := p.data.getD 31 0 &&& 0x80 != 0
  let allHighOnes := p.data.getD 31 0 == 0x7F && ((p.data.drop 1).take 30).all (· == 0xFF)
  let aboveModulus := p.data.getD 0 0 ≥ 237 && allHighOnes
  !highBitSet && !aboveModulus

def PublicKey.isCanonical [EdwardsPoints] (p : PublicKey) : Bool := isTorsionFree p && p.scalarIsInRange

/-- XEdDSA signatures (`curve/xeddsa.go`): signing with 64 random bytes, and verification. -/
class XEdDSA where
  sign : PrivateKey → (random message : Bytes) → Bytes
  sign_length : ∀ p random message, (sign p random message).length = 64
  verifySignature : PublicKey → (signature message : Bytes) → Bool

export XEdDSA (sign sign_length verifySignature)

def calculateSignature [XEdDSA] (p : PrivateKey) (rng : Reader) (message : Bytes) :
    Except CurveErr Bytes := do
  let random ← readKeyBytes rng 64
  return sign p random message

def XEdDSA.Complete [X25519] [XEdDSA] : Prop :=
  ∀ (k : KeyPair) (random message : Bytes), k.Valid → random.length = 64 →
    verifySignature k.publicKey (sign k.privateKey random message) message = true

@[reducible] def oneX25519 : X25519 where
  x25519 _ _ := some (1 :: zeros 31)
  x25519_length _ _ _ h := by cases h; rfl

lemma oneX25519_commutes : @X25519.Commutes oneX25519 :=
  @X25519.Commutes.mk oneX25519 (fun _ => ⟨_, rfl⟩) (fun _ _ _ _ => ⟨_, rfl, rfl⟩)

@[reducible] def freePoints : EdwardsPoints where
  isTorsionFree _ := true

@[reducible] def zeroXEdDSA : XEdDSA where
  sign _ _ _ := zeros 64
  sign_length _ _ _ := length_zeros 64
  verifySignature _ _ _ := true

end LibSignal.Curve
