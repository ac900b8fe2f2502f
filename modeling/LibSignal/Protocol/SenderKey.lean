import LibSignal.Curve.Keys
import LibSignal.Proto.Codec

/-!
# Sender-key messages

Model of `protocol/version.go`, `protocol/sender_key_message.go` and
`protocol/sender_key_distribution_message.go`: the signed group message and the announcement of a chain.
-/

namespace LibSignal.Protocol
open Chunked (Bytes)
open Crypto Curve Proto Lib

def currentVersion : UInt8 := 4
def preKyberVersion : UInt8 := 3
def senderKeyCurrentVersion : UInt8 := 3

inductive ProtocolErr where
  | ciphertextTooShort (length : Nat)
  | legacyVersion (version : UInt8)
  | unrecognizedVersion (version : UInt8)
  | invalidProtobuf
  | invalidKey (cause : CurveErr)
  | invalidMACKeyLength (length : Nat)
  | kyberPreKeyMissing
  | kyberBothOrNeither
deriving DecidableEq, Repr

def encodeVersionByte (messageVersion currentVersion : UInt8) : UInt8 :=
  ((messageVersion &&& 0x0F) <<< 4) ||| (currentVersion &&& 0x0F)

def senderKeyVersion (b : UInt8) : Except ProtocolErr UInt8 :=
  let v := b >>> 4
  if v < senderKeyCurrentVersion then .error (.legacyVersion v)
  else if v > senderKeyCurrentVersion then .error (.unrecognizedVersion v)
  else .ok v

def senderKeySignatureLen : Nat := 64

def uuidLen : Nat := 16

structure DistributionID where
  bytes : Bytes
  length_bytes : bytes.length = uuidLen
deriving DecidableEq, Repr

def distributionIDOf (rawUUID : Option Bytes) : Except ProtocolErr DistributionID :=
  if h : (rawUUID.getD []).length = uuidLen then .ok ⟨_, h⟩ else .error .invalidProtobuf

lemma distributionIDOf_bytes (d : DistributionID) : distributionIDOf (some d.bytes) = .ok d :=
  dif_pos d.length_bytes

/-- A copy of a byte slice, which is nil for an empty one (`append([]byte(nil), b...)`). -/
def copyBytes (b : Bytes) : Option Bytes := if b.length = 0 then none else some b

def required {α : Type} : Option α → Except ProtocolErr α
  | some a => .ok a
  | none => .error .invalidProtobuf

/-! ## Group messages -/

structure SenderKeyMessagePB where
  distributionUuid : Option Bytes
  chainId : Option UInt32
  iteration : Option UInt32
  ciphertext : Option Bytes
deriving DecidableEq, Repr, Countable

structure SenderKeyMessage where
  messageVersion : UInt8
  distributionID : DistributionID
  chainID : UInt32
  iteration : UInt32
  ciphertext : Bytes
  serialized : Bytes
deriving DecidableEq, Repr

section
variable [Wire SenderKeyMessagePB]

def signedPart (distributionID : DistributionID) (chainID iteration : UInt32) (ciphertext : Option Bytes) :
    Bytes :=
  encodeVersionByte senderKeyCurrentVersion senderKeyCurrentVersion ::
    marshal ({ distributionUuid := some distributionID.bytes, chainId := some chainID,
               iteration := some iteration, ciphertext := ciphertext } : SenderKeyMessagePB)

/-- Build and sign a group message; `none` is a nil ciphertext. -/
def newSenderKeyMessage [XEdDSA] (distributionID : DistributionID) (chainID iteration : UInt32)
    (ciphertext : Option Bytes) (rng : Reader) (signatureKey : PrivateKey) : Except CurveErr SenderKeyMessage := do
  let content := signedPart distributionID chainID iteration ciphertext
  let signature ← calculateSignature signatureKey rng content
  return { messageVersion := senderKeyCurrentVersion, distributionID := distributionID,
           chainID := chainID, iteration := iteration, ciphertext := ciphertext.getD [],
           serialized := content ++ signature }

def deserializeSenderKeyMessage (value : Bytes) : Except ProtocolErr SenderKeyMessage :=
  if value.length < 1 + senderKeySignatureLen then .error (.ciphertextTooShort value.length)
  else do
    let version ← senderKeyVersion (value.getD 0 0)
    let body := (value.take (value.length - senderKeySignatureLen)).drop 1
    let pb ← required (unmarshal (α := SenderKeyMessagePB) body)
    let distributionID ← distributionIDOf pb.distributionUuid
    let chainID ← required pb.chainId
    let iteration ← required pb.iteration
    let ciphertext ← required pb.ciphertext
    return { messageVersion := version, distributionID := distributionID, chainID := chainID,
             iteration := iteration, ciphertext := ciphertext, serialized := value }

omit [Wire SenderKeyMessagePB] in
def SenderKeyMessage.verifySignature [XEdDSA] (m : SenderKeyMessage) (signatureKey : PublicKey) : Bool :=
  if m.serialized.length < senderKeySignatureLen then false
  else
    let split := m.serialized.length - senderKeySignatureLen
    Curve.verifySignature signatureKey (m.serialized.drop split) (m.serialized.take split)

variable [XEdDSA] {distributionID : DistributionID} {chainID iteration : UInt32} {ciphertext : Bytes}
  {rng : Reader} {signatureKey : PrivateKey} {m : SenderKeyMessage}

lemma newSenderKeyMessage_inv
    (h : newSenderKeyMessage distributionID chainID iteration (some ciphertext) rng signatureKey = .ok m) :
    ∃ random, random.length = 64 ∧ m = ⟨senderKeyCurrentVersion, distributionID, chainID, iteration,
      ciphertext, signedPart distributionID chainID iteration (some ciphertext) ++
        sign signatureKey random (signedPart distributionID chainID iteration (some ciphertext))⟩ := by
  obtain ⟨signature, hsig, h⟩ := bind_eq_ok h
  obtain ⟨random, hrandom, hsig⟩ := bind_eq_ok hsig
  cases hsig
  cases h
  refine ⟨random, ?_, rfl⟩
  rw [readKeyBytes] at hrandom
  split at hrandom
  · cases hrandom
    exact rng.read_length _ _ ‹_›
  · cases hrandom

lemma deserializeSenderKeyMessage_new
    (h : newSenderKeyMessage distributionID chainID iteration (some ciphertext) rng signatureKey = .ok m) :
    deserializeSenderKeyMessage m.serialized = .ok m := by
  obtain ⟨random, _, rfl⟩ := newSenderKeyMessage_inv h
  set content := signedPart distributionID chainID iteration (some ciphertext) with hcontent
  set signature := sign signatureKey random content
  have hsig : signature.length = senderKeySignatureLen := sign_length _ _ _
  have hshort : ¬ (content ++ signature).length < 1 + senderKeySignatureLen := by
    rw [List.length_append, hsig, hcontent, signedPart, List.length_cons]
    omega
  have htake : (content ++ signature).take ((content ++ signature).length - senderKeySignatureLen) =
      content := by
    rw [List.length_append, hsig, Nat.add_sub_cancel]
    exact List.take_left
  have hversion : senderKeyVersion ((content ++ signature).getD 0 0) = .ok senderKeyCurrentVersion := by
    rw [hcontent, signedPart, List.cons_append, List.getD_cons_zero]
    decide
  dsimp only
  rw [deserializeSenderKeyMessage, if_neg hshort, hversion, ok_bind]
  dsimp only
  rw [htake, hcontent, signedPart, List.drop_one, List.tail_cons]
  simp only [unmarshal_marshal, required, ok_bind, distributionIDOf_bytes]
  rfl

lemma verifySignature_new [X25519] (hsign : XEdDSA.Complete) {k : KeyPair} (hk : k.Valid)
    (h : newSenderKeyMessage distributionID chainID iteration (some ciphertext) rng k.privateKey = .ok m) :
    m.verifySignature k.publicKey = true := by
  obtain ⟨random, hrandom, rfl⟩ := newSenderKeyMessage_inv h
  set content := signedPart distributionID chainID iteration (some ciphertext)
  have hlen : (content ++ sign k.privateKey random content).length - senderKeySignatureLen =
      content.length := by
    rw [List.length_append, sign_length]
    exact Nat.add_sub_cancel ..
  have hlong : ¬ (content ++ sign k.privateKey random content).length < senderKeySignatureLen := by
    rw [List.length_append, sign_length]
    exact not_lt.mpr (Nat.le_add_left _ _)
  rw [SenderKeyMessage.verifySignature, if_neg hlong]
  dsimp only
  rw [hlen, List.drop_left, List.take_left]
  exact hsign k random content hk hrandom

end

structure SenderKeyDistributionMessage where
  messageVersion : UInt8
  distributionID : DistributionID
  chainID : UInt32
  iteration : UInt32
  chainKey : Bytes
  signingKey : PublicKey
  serialized : Bytes
deriving DecidableEq, Repr

structure SenderKeyDistributionMessagePB where
  distributionUuid : Option Bytes
  chainId : Option UInt32
  iteration : Option UInt32
  chainKey : Option Bytes
  signingKey : Option Bytes
deriving DecidableEq, Repr, Countable

section
variable [Wire SenderKeyDistributionMessagePB]

/-- Build an announcement; `none` is a nil chain key. -/
def newSenderKeyDistributionMessage (distributionID : DistributionID) (chainID iteration : UInt32)
    (chainKey : Option Bytes) (signingKey : PublicKey) : SenderKeyDistributionMessage :=
  { messageVersion := senderKeyCurrentVersion, distributionID := distributionID, chainID := chainID,
    iteration := iteration, chainKey := chainKey.getD [], signingKey := signingKey,
    serialized := encodeVersionByte senderKeyCurrentVersion senderKeyCurrentVersion ::
      marshal ({ distributionUuid := some distributionID.bytes, chainId := some chainID,
                 iteration := some iteration, chainKey := chainKey,
                 signingKey := some signingKey.serialize } : SenderKeyDistributionMessagePB) }

def chainKeyLen : Nat := 32
def serializedPublicKeyLen : Nat := 33

def deserializeSenderKeyDistributionMessage (value : Bytes) :
    Except ProtocolErr SenderKeyDistributionMessage :=
  if value.length < 1 + chainKeyLen + chainKeyLen then .error (.ciphertextTooShort value.length)
  else do
    let version ← senderKeyVersion (value.getD 0 0)
    let pb ← required (unmarshal (α := SenderKeyDistributionMessagePB) (value.drop 1))
    let distributionID ← distributionIDOf pb.distributionUuid
    let chainID ← required pb.chainId
    let iteration ← required pb.iteration
    let chainKey ← required pb.chainKey
    let signingKeyBytes ← required pb.signingKey
    if chainKey.length ≠ chainKeyLen ∨ signingKeyBytes.length ≠ serializedPublicKeyLen then
      .error .invalidProtobuf
    else do
      let signingKey ← (deserializePublicKey signingKeyBytes).mapError .invalidKey
      return { messageVersion := version, distributionID := distributionID, chainID := chainID,
               iteration := iteration, chainKey := chainKey, signingKey := signingKey,
               serialized := value }

end

end LibSignal.Protocol
