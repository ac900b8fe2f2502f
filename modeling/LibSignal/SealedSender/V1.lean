import LibSignal.Crypto.GcmSiv
import LibSignal.SealedSender.Usmc

/-!
# Sealed sender, version 1

Model of `sealedsender/v1.go` and of the AES-CTR with HMAC construction of `sealedsender/internal.go`.
-/

namespace LibSignal.SealedSender
open Chunked (Bytes)
open Crypto Curve Proto Lib

inductive SealErr where
  | usmc (cause : UsmcErr)
  /-- `ErrInvalidUSMC`: nil USMC -/
  | nilUSMC
  | noRecipients
  | differingIdentityKeys
  | deviceIdRange (id : UInt32)
  | registrationIdRange (id : UInt32)
  | truncatedCiphertext
  | badMAC
  | cipher (cause : CryptoErr)
  | ephemeralKey (cause : CurveErr)
  | agreement (cause : CurveErr)
  | emptyMessage
  | unknownVersion (version : UInt8)
  | v1Protobuf
  | v1Missing
  | v1EphemeralKey (cause : CurveErr)
  | v1StaticKey (cause : CurveErr)
  | v1KeyMismatch
  | v2RandomSeed
  | v2AgreementInput (got : Nat)
  | v2DeriveE (cause : CurveErr)
  | v2Seal (cause : GcmSivErr)
  | v2TooShort
  | v2EphemeralKey (cause : CurveErr)
  | v2EphemeralMismatch
  | v2Open (cause : GcmSivErr)
  | v2TagMismatch
  | recipientIndex (i : Int)
  /-- A run-time panic: slice index out of range. -/
  | indexPanic
deriving DecidableEq, Repr

def ctrHmacMACLen : Nat := 10

section
variable [Hash] [Aes]

omit [Hash] in
def aes256CTRZero (input cipherKey : Bytes) : Except SealErr Bytes := do
  let ctr ← (newAES256CTR32 cipherKey (zeros nonceSizeCTR) 0).mapError .cipher
  return (ctr.process input).1

def aes256CtrHmacSha256Encrypt (msg cipherKey macKey : Bytes) : Except SealErr Bytes := do
  let ctext ← aes256CTRZero msg cipherKey
  return ctext ++ (hmacSHA256 macKey ctext).take ctrHmacMACLen

def aes256CtrHmacSha256Decrypt (ctextAndMAC cipherKey macKey : Bytes) : Except SealErr Bytes :=
  if ctextAndMAC.length < ctrHmacMACLen then .error .truncatedCiphertext
  else
    let split := ctextAndMAC.length - ctrHmacMACLen
    let ctext := ctextAndMAC.take split
    let theirMAC := ctextAndMAC.drop split
    if (hmacSHA256 macKey ctext).take ctrHmacMACLen ≠ theirMAC then .error .badMAC
    else aes256CTRZero ctext cipherKey

omit [Hash] in
lemma aes256CTRZero_twice {cipherKey : Bytes} (hkey : cipherKey.length = 32) (input : Bytes) :
    ∃ out, aes256CTRZero input cipherKey = .ok out ∧ aes256CTRZero out cipherKey = .ok input := by
  have hctr : newAES256CTR32 cipherKey (zeros nonceSizeCTR) 0
      = .ok ⟨cipherKey, zeros nonceSizeCTR, 0, zeros 16, 0, false⟩ := by
    rw [newAES256CTR32, newAES256, if_neg (not_not.mpr hkey), ok_bind, if_neg (not_not.mpr (length_zeros _))]
  refine ⟨_, by rw [aes256CTRZero, hctr]; rfl, ?_⟩
  rw [aes256CTRZero, hctr]
  change Except.ok _ = _
  rw [Aes256Ctr32.process_process ⟨Nat.zero_le _, fun h => by cases h⟩]

lemma ctrHmac_roundTrip {cipherKey : Bytes} (hkey : cipherKey.length = 32) (msg macKey : Bytes) :
    ∃ out, aes256CtrHmacSha256Encrypt msg cipherKey macKey = .ok out ∧
      aes256CtrHmacSha256Decrypt out cipherKey macKey = .ok msg := by
  obtain ⟨ctext, henc, hdec⟩ := aes256CTRZero_twice hkey msg
  have hmac : ((hmacSHA256 macKey ctext).take ctrHmacMACLen).length = ctrHmacMACLen := by
    rw [List.length_take, hmacSHA256_length]
    rfl
  refine ⟨_, by rw [aes256CtrHmacSha256Encrypt, henc]; rfl, ?_⟩
  rw [aes256CtrHmacSha256Decrypt, List.length_append, hmac, if_neg (by omega), Nat.add_sub_cancel]
  dsimp only
  rw [List.take_left, List.drop_left, if_neg (not_not.mpr rfl)]
  exact hdec

end

/-! ## Key derivations -/

inductive SealDirection where
  | sending
  | receiving
deriving DecidableEq, Repr

def v1SaltPrefix : Bytes := ascii "UnidentifiedDelivery"

structure V1EphemeralKeys where
  chainKey : Bytes
  cipherKey : Bytes
  macKey : Bytes

structure V1StaticKeys where
  cipherKey : Bytes
  macKey : Bytes

structure UsmPB where
  ephemeralPublic : Option Bytes
  encryptedStatic : Option Bytes
  encryptedMessage : Option Bytes
deriving DecidableEq, Repr

def sealedSenderV1FullVersion : UInt8 := 0x11

section
variable [Hash] [X25519]

def calculateV1EphemeralKeys (ourKeys : KeyPair) (theirPublic : PublicKey) (dir : SealDirection) :
    Except SealErr V1EphemeralKeys := do
  let ourPub := ourKeys.publicKey.serialize
  let theirPub := theirPublic.serialize
  let salt := match dir with
    | .sending => v1SaltPrefix ++ theirPub ++ ourPub
    | .receiving => v1SaltPrefix ++ ourPub ++ theirPub
  let shared ← (ourKeys.privateKey.calculateAgreement theirPublic).mapError .agreement
  let okm := hkdfSHA256 shared salt [] 96
  return ⟨okm.take 32, (okm.take 64).drop 32, okm.drop 64⟩

def calculateV1StaticKeys (ourIdentity : KeyPair) (theirKey : PublicKey) (chainKey ctext : Bytes) :
    Except SealErr V1StaticKeys := do
  let salt := chainKey ++ ctext
  let shared ← (ourIdentity.privateKey.calculateAgreement theirKey).mapError .agreement
  let okm := hkdfSHA256 shared salt [] 96
  return ⟨(okm.take 64).drop 32, okm.drop 64⟩

variable [Aes] [Wire UsmPB]

/-- Seal a content for one recipient; `none` is a nil content. -/
def sealV1 (usmc : Option USMC) (ourIdentity : KeyPair) (theirIdentity : PublicKey) (rng : Reader) :
    Except SealErr Bytes := do
  let usmc ← orError .nilUSMC usmc
  let ephemeral ← (generateKeyPair rng).mapError .ephemeralKey
  let ephKeys ← calculateV1EphemeralKeys ephemeral theirIdentity .sending
  let staticCtext ← aes256CtrHmacSha256Encrypt ourIdentity.publicKey.serialize ephKeys.cipherKey
    ephKeys.macKey
  let staticKeys ← calculateV1StaticKeys ourIdentity theirIdentity ephKeys.chainKey staticCtext
  let messageData ← aes256CtrHmacSha256Encrypt usmc.serialized staticKeys.cipherKey staticKeys.macKey
  let body := marshal
    (⟨some ephemeral.publicKey.serialize, some staticCtext, some messageData⟩ : UsmPB)
  return sealedSenderV1FullVersion :: body

variable [Wire UsmcPB] [Wire ServerCertificatePB] [Wire ServerCertificateBodyPB]
  [Wire SenderCertificatePB] [Wire SenderCertificateBodyPB]

def decryptV1 (body : Bytes) (ourIdentity : KeyPair) : Except SealErr USMC := do
  let pb ← orError .v1Protobuf (unmarshal (α := UsmPB) body)
  let ephemeral ← orError .v1Missing pb.ephemeralPublic
  let encryptedStatic ← orError .v1Missing pb.encryptedStatic
  let encryptedMessage ← orError .v1Missing pb.encryptedMessage
  let ephemeralPublic ← (deserializePublicKey ephemeral).mapError .v1EphemeralKey
  let ephKeys ← calculateV1EphemeralKeys ourIdentity ephemeralPublic .receiving
  let staticKeyBytes ← aes256CtrHmacSha256Decrypt encryptedStatic ephKeys.cipherKey ephKeys.macKey
  let senderPublic ← (deserializePublicKey staticKeyBytes).mapError .v1StaticKey
  let staticKeys ← calculateV1StaticKeys ourIdentity senderPublic ephKeys.chainKey encryptedStatic
  let messageBytes ← aes256CtrHmacSha256Decrypt encryptedMessage staticKeys.cipherKey staticKeys.macKey
  let usmc ← (deserializeUSMC messageBytes).mapError .usmc
  if staticKeyBytes ≠ usmc.sender.key.serialize then .error .v1KeyMismatch else .ok usmc

end

section
variable [Hash] [X25519] {ours theirs : KeyPair}

lemma v1EphemeralKeys_mirror (hdh : X25519.Commutes) (hours : ours.Valid) (htheirs : theirs.Valid) :
    ∃ keys, calculateV1EphemeralKeys ours theirs.publicKey .sending = .ok keys ∧
      calculateV1EphemeralKeys theirs ours.publicKey .receiving = .ok keys ∧ keys.cipherKey.length = 32 := by
  obtain ⟨s, hs, hs'⟩ := hdh.agreement ours theirs hours htheirs
  refine ⟨_, by rw [calculateV1EphemeralKeys, hs]; rfl, by rw [calculateV1EphemeralKeys, hs']; rfl, ?_⟩
  dsimp only
  rw [List.length_drop, List.length_take, hkdfSHA256_length _ _ _ _ (by decide)]
  rfl

lemma v1StaticKeys_mirror (hdh : X25519.Commutes) (hours : ours.Valid) (htheirs : theirs.Valid)
    (chainKey ctext : Bytes) : ∃ keys, calculateV1StaticKeys ours theirs.publicKey chainKey ctext = .ok keys ∧
      calculateV1StaticKeys theirs ours.publicKey chainKey ctext = .ok keys ∧ keys.cipherKey.length = 32 := by
  obtain ⟨s, hs, hs'⟩ := hdh.agreement ours theirs hours htheirs
  refine ⟨_, by rw [calculateV1StaticKeys, hs]; rfl, by rw [calculateV1StaticKeys, hs']; rfl, ?_⟩
  dsimp only
  rw [List.length_drop, List.length_take, hkdfSHA256_length _ _ _ _ (by decide)]
  rfl

omit [Hash] in
lemma generateKeyPair_ok (hdh : X25519.Commutes) {rng : Reader} (hrng : (rng.read 32).isSome) :
    ∃ k, generateKeyPair rng = .ok k := by
  rw [generateKeyPair]
  split
  · rename_i seed hseed
    obtain ⟨pub, hpub⟩ := hdh.publicKey (privateKeyFromBytes seed (rng.read_length _ _ hseed))
    exact ⟨_, by rw [keyPairFromPrivateKey, hpub]; rfl⟩
  · rename_i hnone
    rw [privateKeyLength] at hnone
    rw [hnone] at hrng
    cases hrng

variable [Aes] [Wire UsmPB] [Wire UsmcPB] [Wire ServerCertificatePB] [Wire ServerCertificateBodyPB]
  [Wire SenderCertificatePB] [Wire SenderCertificateBodyPB]

lemma decryptV1_sealV1 (hdh : X25519.Commutes) (hours : ours.Valid) (htheirs : theirs.Valid)
    (usmc : USMC) {rng : Reader} (hrng : (rng.read 32).isSome) :
    ∃ body, sealV1 (some usmc) ours theirs.publicKey rng = .ok (sealedSenderV1FullVersion :: body) ∧
      decryptV1 body theirs =
        ((deserializeUSMC usmc.serialized).mapError .usmc >>= fun u =>
          if ours.publicKey.serialize ≠ u.sender.key.serialize then .error .v1KeyMismatch else .ok u) := by
  obtain ⟨eph, heph⟩ := generateKeyPair_ok hdh hrng
  obtain ⟨ek, hek, hek', hekLen⟩ :=
    v1EphemeralKeys_mirror hdh (generateKeyPair_valid heph) htheirs
  obtain ⟨static, hstatic, hstatic'⟩ := ctrHmac_roundTrip hekLen ours.publicKey.serialize ek.macKey
  obtain ⟨sk, hsk, hsk', hskLen⟩ := v1StaticKeys_mirror hdh hours htheirs ek.chainKey static
  obtain ⟨data, hdata, hdata'⟩ := ctrHmac_roundTrip hskLen usmc.serialized sk.macKey
  refine ⟨marshal (⟨some eph.publicKey.serialize, some static, some data⟩ : UsmPB), ?_, ?_⟩
  · simp only [sealV1, orError, ok_bind, heph, mapError_ok, hek, hstatic, hsk, hdata]
    rfl
  · simp only [decryptV1, unmarshal_marshal, orError, ok_bind, deserializePublicKey_serialize,
      mapError_ok, hek', hstatic', hsk', hdata']

end

end LibSignal.SealedSender
