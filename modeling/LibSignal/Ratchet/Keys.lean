import LibSignal.Curve.Keys

/-!
# The key schedule of the Double Ratchet

Model of `ratchet/kdf.go` and `ratchet/keys.go`: chain keys and the message keys they yield, the root key with
its Diffie-Hellman step, and the initial keys of a PQXDH handshake.
-/

namespace LibSignal.Ratchet
open Chunked (Bytes)
open Crypto Curve Lib

def messageKeysInfo : Bytes := ascii "WhisperMessageKeys"
def rootChainInfo : Bytes := ascii "WhisperRatchet"
def pqxdhInfo : Bytes := ascii "WhisperText_X25519_SHA-256_CRYSTALS-KYBER-1024"

def chainKeySeed : UInt8 := 0x02
def messageKeySeed : UInt8 := 0x01

def chainKeyLen : Nat := 32
def rootKeyLen : Nat := 32
def cipherKeyLen : Nat := 32
def macKeyLen : Nat := 32
def ivLen : Nat := 16
def discontinuityLen : Nat := 32
def agreementLen : Nat := 32

inductive RatchetErr where
  | chainKeyLength (got : Nat)
  | rootKeyLength (got : Nat)
  | cipherKeyLength (got : Nat)
  | macKeyLength (got : Nat)
  | ivLength (got : Nat)
  | pqrKeyForDerived
  | rootAgreement (cause : CurveErr)
  | agreementLength (i got : Nat)
deriving DecidableEq, Repr

@[ext]
structure MessageKeys where
  cipherKey : Bytes
  macKey : Bytes
  iv : Bytes
  index : UInt32
  length_cipherKey : cipherKey.length = cipherKeyLen
  length_macKey : macKey.length = macKeyLen
  length_iv : iv.length = ivLen
deriving DecidableEq, Repr

def newMessageKeys (cipherKey macKey iv : Bytes) (index : UInt32) : Except RatchetErr MessageKeys :=
  if hc : cipherKey.length = cipherKeyLen then
    if hm : macKey.length = macKeyLen then
      if hi : iv.length = ivLen then .ok ⟨cipherKey, macKey, iv, index, hc, hm, hi⟩
      else .error (.ivLength iv.length)
    else .error (.macKeyLength macKey.length)
  else .error (.cipherKeyLength cipherKey.length)

inductive MessageKeyGenerator where
  | fromSeed (seed : Bytes) (counter : UInt32)
  | fromKeys (keys : MessageKeys)
deriving DecidableEq, Repr

section
variable [Hash]

def messageKeyMaterial (seed pqrKey : Bytes) : Bytes :=
  hkdfSHA256 seed pqrKey messageKeysInfo (cipherKeyLen + macKeyLen + ivLen)

lemma length_messageKeyMaterial (seed pqrKey : Bytes) : (messageKeyMaterial seed pqrKey).length = 80 :=
  hkdfSHA256_length _ _ _ _ (by decide)

def deriveMessageKeys (seed pqrKey : Bytes) (counter : UInt32) : MessageKeys where
  cipherKey := (messageKeyMaterial seed pqrKey).take cipherKeyLen
  macKey := ((messageKeyMaterial seed pqrKey).drop cipherKeyLen).take macKeyLen
  iv := ((messageKeyMaterial seed pqrKey).drop (cipherKeyLen + macKeyLen)).take ivLen
  index := counter
  length_cipherKey := by rw [List.length_take, length_messageKeyMaterial]; rfl
  length_macKey := by rw [List.length_take, List.length_drop, length_messageKeyMaterial]; rfl
  length_iv := by rw [List.length_take, List.length_drop, length_messageKeyMaterial]; rfl

def MessageKeyGenerator.generateKeys (g : MessageKeyGenerator) (pqrKey : Bytes) :
    Except RatchetErr MessageKeys :=
  match g with
  | .fromSeed seed counter => .ok (deriveMessageKeys seed pqrKey counter)
  | .fromKeys keys => if pqrKey.length ≠ 0 then .error .pqrKeyForDerived else .ok keys

end

@[ext]
structure ChainKey where
  key : Bytes
  index : UInt32
  length_key : key.length = chainKeyLen
deriving DecidableEq, Repr

def newChainKey (key : Bytes) (index : UInt32) : Except RatchetErr ChainKey :=
  if h : key.length = chainKeyLen then .ok ⟨key, index, h⟩ else .error (.chainKeyLength key.length)

lemma newChainKey_key (c : ChainKey) : newChainKey c.key c.index = .ok c := dif_pos c.length_key

namespace ChainKey
variable [Hash]

def baseMaterial (c : ChainKey) (seed : UInt8) : Bytes := hmacSHA256 c.key [seed]

/-- The next chain key; the index wraps around. -/
def next (c : ChainKey) : ChainKey := ⟨c.baseMaterial chainKeySeed, c.index + 1, hmacSHA256_length _ _⟩

def messageKeys (c : ChainKey) : MessageKeyGenerator := .fromSeed (c.baseMaterial messageKeySeed) c.index

end ChainKey

@[ext]
structure RootKey where
  key : Bytes
  length_key : key.length = rootKeyLen
deriving DecidableEq, Repr

def newRootKey (key : Bytes) : Except RatchetErr RootKey :=
  if h : key.length = rootKeyLen then .ok ⟨key, h⟩ else .error (.rootKeyLength key.length)

lemma newRootKey_key (r : RootKey) : newRootKey r.key = .ok r := dif_pos r.length_key

section
variable [Hash]

def rootMaterial (shared root : Bytes) : Bytes :=
  hkdfSHA256 shared root rootChainInfo (rootKeyLen + chainKeyLen)

lemma length_rootMaterial (shared root : Bytes) : (rootMaterial shared root).length = 64 :=
  hkdfSHA256_length _ _ _ _ (by decide)

def RootKey.stepRoot (r : RootKey) (shared : Bytes) : RootKey :=
  ⟨(rootMaterial shared r.key).take rootKeyLen, by rw [List.length_take, length_rootMaterial]; rfl⟩

def RootKey.stepChain (r : RootKey) (shared : Bytes) : ChainKey :=
  ⟨((rootMaterial shared r.key).drop rootKeyLen).take chainKeyLen, 0, by
    rw [List.length_take, List.length_drop, length_rootMaterial]; rfl⟩

def RootKey.createChain [X25519] (r : RootKey) (theirRatchetKey : PublicKey) (ourRatchetKey : PrivateKey) :
    Except RatchetErr (RootKey × ChainKey) := do
  let shared ← (ourRatchetKey.calculateAgreement theirRatchetKey).mapError .rootAgreement
  return (r.stepRoot shared, r.stepChain shared)

lemma RootKey.createChain_inv [X25519] {r root : RootKey} {chain : ChainKey} {their : PublicKey}
    {our : PrivateKey} (h : r.createChain their our = .ok (root, chain)) :
    ∃ shared, our.calculateAgreement their = .ok shared ∧ root = r.stepRoot shared ∧
      chain = r.stepChain shared := by
  obtain ⟨shared, hshared, h⟩ := bind_eq_ok h
  cases h
  exact ⟨shared, mapError_eq_ok hshared, rfl, rfl⟩

lemma RootKey.createChain_ok [X25519] (r : RootKey) {their : PublicKey} {our : PrivateKey} {shared : Bytes}
    (h : our.calculateAgreement their = .ok shared) :
    r.createChain their our = .ok (r.stepRoot shared, r.stepChain shared) := by
  rw [createChain, h]
  rfl

end

structure InitialKeys where
  rootKey : RootKey
  chainKey : ChainKey
  pqrSeed : Bytes

def pqxdhSecret (dh1 dh2 dh3 dh4 kyberSharedSecret : Bytes) : Bytes :=
  List.replicate discontinuityLen 0xFF ++ dh1 ++ dh2 ++ dh3 ++ dh4 ++ kyberSharedSecret

section
variable [Hash]

def pqxdhMaterial (secret : Bytes) : Bytes :=
  hkdfSHA256 secret [] pqxdhInfo (rootKeyLen + chainKeyLen + 32)

lemma length_pqxdhMaterial (secret : Bytes) : (pqxdhMaterial secret).length = 96 :=
  hkdfSHA256_length _ _ _ _ (by decide)

def initialKeysOf (secret : Bytes) : InitialKeys where
  rootKey := ⟨(pqxdhMaterial secret).take rootKeyLen, by rw [List.length_take, length_pqxdhMaterial]; rfl⟩
  chainKey := ⟨((pqxdhMaterial secret).drop rootKeyLen).take chainKeyLen, 0, by
    rw [List.length_take, List.length_drop, length_pqxdhMaterial]; rfl⟩
  pqrSeed := ((pqxdhMaterial secret).drop (rootKeyLen + chainKeyLen)).take 32

def deriveInitialKeys (dh1 dh2 dh3 dh4 kyberSharedSecret : Bytes) : Except RatchetErr InitialKeys :=
  if dh1.length ≠ agreementLen then .error (.agreementLength 1 dh1.length)
  else if dh2.length ≠ agreementLen then .error (.agreementLength 2 dh2.length)
  else if dh3.length ≠ agreementLen then .error (.agreementLength 3 dh3.length)
  else if dh4.length ≠ 0 ∧ dh4.length ≠ agreementLen then .error (.agreementLength 4 dh4.length)
  else .ok (initialKeysOf (pqxdhSecret dh1 dh2 dh3 dh4 kyberSharedSecret))

lemma deriveInitialKeys_inv {dh1 dh2 dh3 dh4 ss : Bytes} {k : InitialKeys}
    (h : deriveInitialKeys dh1 dh2 dh3 dh4 ss = .ok k) :
    k = initialKeysOf (pqxdhSecret dh1 dh2 dh3 dh4 ss) := by
  rw [deriveInitialKeys] at h
  split_ifs at h
  cases h
  rfl

end

end LibSignal.Ratchet
