import LibSignal.Crypto.Primitives
import LibSignal.Lib.ExceptBind

/-!
# Keys of the key encapsulation mechanism

Model of `kem/kem.go`: keys and ciphertexts with their type byte.
-/

namespace LibSignal.Kem
open Chunked (Bytes)
open Crypto Lib

inductive KeyType where
  | kyber1024
  | mlkem1024
deriving DecidableEq, Repr

def KeyType.toByte : KeyType → UInt8
  | .kyber1024 => 0x08
  | .mlkem1024 => 0x0A

inductive KemKeyErr where
  | noKeyTypeIdentifier
  | badKeyType (type : UInt8)
  | unsupportedKeyType (type : UInt8)
  | badKeyLength (keyType : KeyType) (length : Nat)
  | badCiphertextLength (keyType : KeyType) (length : Nat)
  | wrongKeyType (got expected : UInt8)
  | implementation
deriving DecidableEq, Repr

def publicKeyLength : Nat := 1568
def secretKeyLength : Nat := 3168
def ciphertextLength : Nat := 1568

/-- Kyber-1024 (`kem/kyber1024.go` over its library); the coins are the randomness the library draws. -/
class Kyber1024 where
  deriveKeyPair : (seed : Bytes) → Bytes × Bytes
  deriveKeyPair_length : ∀ seed, (deriveKeyPair seed).1.length = publicKeyLength ∧
    (deriveKeyPair seed).2.length = secretKeyLength
  encapsulate : (publicKey coins : Bytes) → Option (Bytes × Bytes)
  encapsulate_length : ∀ pk coins ss ct, encapsulate pk coins = some (ss, ct) → ct.length = ciphertextLength
  decapsulate : (secretKey ciphertext : Bytes) → Option Bytes

/-- A derived key pair decapsulates what was encapsulated to it. -/
def Kyber1024.Correct [Kyber1024] : Prop :=
  ∀ seed coins : Bytes, ∃ ss ct, Kyber1024.encapsulate (Kyber1024.deriveKeyPair seed).1 coins = some (ss, ct) ∧
    Kyber1024.decapsulate (Kyber1024.deriveKeyPair seed).2 ct = some ss

def keyTypeFromByte (b : UInt8) : Except KemKeyErr KeyType :=
  if b = 0x08 then .ok .kyber1024 else if b = 0x0A then .ok .mlkem1024 else .error (.badKeyType b)

def parametersFor : KeyType → Except KemKeyErr Unit
  | .kyber1024 => .ok ()
  | .mlkem1024 => .error (.unsupportedKeyType 0x0A)

def parseTagged (value : Bytes) : Except KemKeyErr (KeyType × Bytes) :=
  match value with
  | [] => .error .noKeyTypeIdentifier
  | t :: body => do
    let keyType ← keyTypeFromByte t
    parametersFor keyType
    return (keyType, body)

structure PublicKey where
  keyType : KeyType
  data : Bytes
deriving DecidableEq, Repr

structure SecretKey where
  keyType : KeyType
  data : Bytes
deriving DecidableEq, Repr

structure KeyPair where
  publicKey : PublicKey
  secretKey : SecretKey
deriving DecidableEq, Repr

def serializeTagged (keyType : KeyType) (data : Bytes) : Bytes := keyType.toByte :: data

def PublicKey.serialize (p : PublicKey) : Bytes := serializeTagged p.keyType p.data

def SecretKey.serialize (s : SecretKey) : Bytes := serializeTagged s.keyType s.data

def deserializePublicKey (value : Bytes) : Except KemKeyErr PublicKey := do
  let (keyType, body) ← parseTagged value
  if body.length ≠ publicKeyLength then .error (.badKeyLength keyType value.length)
  else .ok ⟨keyType, body⟩

def deserializeSecretKey (value : Bytes) : Except KemKeyErr SecretKey := do
  let (keyType, body) ← parseTagged value
  if body.length ≠ secretKeyLength then .error (.badKeyLength keyType value.length)
  else .ok ⟨keyType, body⟩

def newKeyPair (publicKey : PublicKey) (secretKey : SecretKey) : Except KemKeyErr KeyPair :=
  if publicKey.keyType ≠ secretKey.keyType then
    .error (.wrongKeyType secretKey.keyType.toByte publicKey.keyType.toByte)
  else .ok ⟨publicKey, secretKey⟩

def keyPairFromPublicAndSecret (publicKey secretKey : Bytes) : Except KemKeyErr KeyPair := do
  let pub ← deserializePublicKey publicKey
  let sec ← deserializeSecretKey secretKey
  newKeyPair pub sec

section
variable [Kyber1024]

def PublicKey.encapsulate (p : PublicKey) (coins : Bytes) : Except KemKeyErr (Bytes × Bytes) := do
  parametersFor p.keyType
  match Kyber1024.encapsulate p.data coins with
  | some (ss, ct) => return (ss, serializeTagged p.keyType ct)
  | none => .error .implementation

def SecretKey.decapsulate (s : SecretKey) (ciphertext : Bytes) : Except KemKeyErr Bytes := do
  let (ctKeyType, ctBody) ← parseTagged ciphertext
  if ctBody.length ≠ ciphertextLength then .error (.badCiphertextLength ctKeyType ciphertext.length)
  else if ctKeyType ≠ s.keyType then .error (.wrongKeyType ctKeyType.toByte s.keyType.toByte)
  else do
    parametersFor s.keyType
    match Kyber1024.decapsulate s.data ctBody with
    | some ss => return ss
    | none => .error .implementation

def KeyPair.Valid (k : KeyPair) : Prop :=
  ∃ seed, k = ⟨⟨.kyber1024, (Kyber1024.deriveKeyPair seed).1⟩, ⟨.kyber1024, (Kyber1024.deriveKeyPair seed).2⟩⟩

lemma decapsulate_encapsulate (hkem : Kyber1024.Correct) {k : KeyPair} (hk : k.Valid) (coins : Bytes) :
    ∃ ss ct, k.publicKey.encapsulate coins = .ok (ss, ct) ∧ ct.length ≠ 0 ∧
      k.secretKey.decapsulate ct = .ok ss := by
  obtain ⟨seed, rfl⟩ := hk
  obtain ⟨ss, ct, henc, hdec⟩ := hkem seed coins
  refine ⟨ss, serializeTagged .kyber1024 ct, ?_, Nat.succ_ne_zero _, ?_⟩
  · rw [PublicKey.encapsulate, henc]
    rfl
  · have hparse : parseTagged (serializeTagged .kyber1024 ct) = .ok (.kyber1024, ct) := rfl
    have hlen := Kyber1024.encapsulate_length _ _ _ _ henc
    rw [SecretKey.decapsulate, hparse, ok_bind]
    dsimp only
    rw [if_neg (not_not.mpr hlen), if_neg (not_not.mpr rfl), hdec]
    rfl

lemma keyPairFromPublicAndSecret_serialize {k : KeyPair} (hk : k.Valid) :
    keyPairFromPublicAndSecret k.publicKey.serialize k.secretKey.serialize = .ok k := by
  obtain ⟨seed, rfl⟩ := hk
  obtain ⟨hpub, hsec⟩ := Kyber1024.deriveKeyPair_length seed
  have hparse : ∀ body, parseTagged (serializeTagged .kyber1024 body) = .ok (.kyber1024, body) :=
    fun _ => rfl
  rw [keyPairFromPublicAndSecret, deserializePublicKey, deserializeSecretKey, PublicKey.serialize,
    SecretKey.serialize, hparse, hparse, ok_bind, ok_bind]
  dsimp only
  rw [if_neg (not_not.mpr hpub), if_neg (not_not.mpr hsec)]
  rfl

end

@[reducible] def zeroKyber : Kyber1024 where
  deriveKeyPair _ := (zeros 1568, zeros 3168)
  deriveKeyPair_length _ := ⟨length_zeros _, length_zeros _⟩
  encapsulate _ _ := some (zeros 32, zeros 1568)
  encapsulate_length _ _ _ _ h := by cases h; exact length_zeros _
  decapsulate _ _ := some (zeros 32)

lemma zeroKyber_correct : @Kyber1024.Correct zeroKyber := fun _ _ => ⟨_, _, rfl, rfl⟩

end LibSignal.Kem
