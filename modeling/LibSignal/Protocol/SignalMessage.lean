import LibSignal.Protocol.SenderKey

/-!
# Session messages

Model of `protocol/signal_message.go` and `protocol/prekey_signal_message.go`: the message of a session, which
is authenticated with the MAC key of its message keys over the two identities, and the pre-key message that
wraps it while the handshake is unacknowledged.
-/

namespace LibSignal.Protocol
open Chunked (Bytes)
open Crypto Curve Proto Lib

def macLength : Nat := 8
def macKeyLength : Nat := 32

def decodeVersion (versionByte : UInt8) : Except ProtocolErr UInt8 :=
  let v := versionByte >>> 4
  if v < preKyberVersion then .error (.legacyVersion v)
  else if v > currentVersion then .error (.unrecognizedVersion v)
  else .ok v

structure SignalMessagePB where
  ratchetKey : Option Bytes
  counter : Option UInt32
  previousCounter : Option UInt32
  ciphertext : Option Bytes
  pqRatchet : Option Bytes
  addresses : Option Bytes
deriving DecidableEq, Repr, Countable

structure SignalMessage where
  messageVersion : UInt8
  senderRatchet : PublicKey
  counter : UInt32
  previousCounter : UInt32
  ciphertext : Bytes
  pqRatchet : Bytes
  addresses : Bytes
  serialized : Bytes
deriving DecidableEq, Repr

section
variable [Hash]

def computeSignalMessageMAC (senderIdentityKey receiverIdentityKey : PublicKey) (macKey message : Bytes) :
    Except ProtocolErr Bytes :=
  if macKey.length ≠ macKeyLength then .error (.invalidMACKeyLength macKey.length)
  else .ok ((hmacSHA256 macKey
    (senderIdentityKey.serialize ++ receiverIdentityKey.serialize ++ message)).take macLength)

def SignalMessage.verifyMAC (m : SignalMessage) (senderIdentityKey receiverIdentityKey : PublicKey)
    (macKey : Bytes) : Except ProtocolErr Bool :=
  if m.serialized.length < macLength then .error (.ciphertextTooShort m.serialized.length)
  else do
    let split := m.serialized.length - macLength
    let ourMAC ← computeSignalMessageMAC senderIdentityKey receiverIdentityKey macKey
      (m.serialized.take split)
    return ourMAC == m.serialized.drop split

variable [Wire SignalMessagePB]

omit [Hash] in
def versionedBody (messageVersion : UInt8) (senderRatchetKey : PublicKey) (counter previousCounter : UInt32)
    (ciphertext pqRatchet addresses : Bytes) : Bytes :=
  encodeVersionByte messageVersion currentVersion ::
    marshal ({ ratchetKey := some senderRatchetKey.serialize, counter := some counter,
               previousCounter := some previousCounter, ciphertext := copyBytes ciphertext,
               pqRatchet := copyBytes pqRatchet, addresses := copyBytes addresses } : SignalMessagePB)

def newSignalMessage (messageVersion : UInt8) (macKey : Bytes) (senderRatchetKey : PublicKey)
    (counter previousCounter : UInt32) (ciphertext : Bytes) (senderIdentityKey receiverIdentityKey : PublicKey)
    (pqRatchet addresses : Bytes) : Except ProtocolErr SignalMessage :=
  if macKey.length ≠ macKeyLength then .error (.invalidMACKeyLength macKey.length)
  else do
    let serialized := versionedBody messageVersion senderRatchetKey counter previousCounter ciphertext
      pqRatchet addresses
    let mac ← computeSignalMessageMAC senderIdentityKey receiverIdentityKey macKey serialized
    return { messageVersion := messageVersion, senderRatchet := senderRatchetKey, counter := counter,
             previousCounter := previousCounter, ciphertext := ciphertext, pqRatchet := pqRatchet,
             addresses := addresses, serialized := serialized ++ mac }

omit [Hash] in
def deserializeSignalMessage (value : Bytes) : Except ProtocolErr SignalMessage :=
  if value.length < macLength + 1 then .error (.ciphertextTooShort value.length)
  else do
    let version ← decodeVersion (value.getD 0 0)
    let body := (value.take (value.length - macLength)).drop 1
    let pb ← required (unmarshal (α := SignalMessagePB) body)
    let ratchetKey ← required pb.ratchetKey
    let counter ← required pb.counter
    let ciphertext ← required pb.ciphertext
    let ratchet ← (deserializePublicKey ratchetKey).mapError .invalidKey
    return { messageVersion := version, senderRatchet := ratchet, counter := counter,
             previousCounter := pb.previousCounter.getD 0, ciphertext := ciphertext,
             pqRatchet := pb.pqRatchet.getD [], addresses := pb.addresses.getD [], serialized := value }

variable {macKey : Bytes}

lemma newSignalMessage_inv {version : UInt8} {ciphertext pqRatchet addresses : Bytes}
    {ratchet sender receiver : PublicKey} {counter previous : UInt32} {m : SignalMessage}
    (h : newSignalMessage version macKey ratchet counter previous ciphertext sender receiver pqRatchet
      addresses = .ok m) : macKey.length = macKeyLength ∧
      m = ⟨version, ratchet, counter, previous, ciphertext, pqRatchet, addresses,
        versionedBody version ratchet counter previous ciphertext pqRatchet addresses ++
          (hmacSHA256 macKey (sender.serialize ++ receiver.serialize ++
            versionedBody version ratchet counter previous ciphertext pqRatchet addresses)).take
              macLength⟩ := by
  rw [newSignalMessage] at h
  split at h
  · cases h
  · rename_i hlen
    have hlen := not_not.mp hlen
    obtain ⟨mac, hmac, h⟩ := bind_eq_ok h
    rw [computeSignalMessageMAC, if_neg (not_not.mpr hlen)] at hmac
    cases hmac
    cases h
    exact ⟨hlen, rfl⟩

lemma newSignalMessage_ok (version : UInt8) (ratchet : PublicKey) (counter previous : UInt32)
    (ciphertext : Bytes) (sender receiver : PublicKey) (pqRatchet addresses : Bytes)
    (hkey : macKey.length = macKeyLength) :
    ∃ m, newSignalMessage version macKey ratchet counter previous ciphertext sender receiver pqRatchet
      addresses = .ok m := by
  rw [newSignalMessage, if_neg (not_not.mpr hkey)]
  dsimp only
  rw [computeSignalMessageMAC, if_neg (not_not.mpr hkey)]
  exact ⟨_, rfl⟩

lemma verifyMAC_new {version : UInt8} {ciphertext pqRatchet addresses : Bytes}
    {ratchet sender receiver : PublicKey} {counter previous : UInt32} {m : SignalMessage}
    (h : newSignalMessage version macKey ratchet counter previous ciphertext sender receiver pqRatchet
      addresses = .ok m) : m.verifyMAC sender receiver macKey = .ok true := by
  obtain ⟨hkey, rfl⟩ := newSignalMessage_inv h
  set body := versionedBody version ratchet counter previous ciphertext pqRatchet addresses
  set mac := (hmacSHA256 macKey (sender.serialize ++ receiver.serialize ++ body)).take macLength with hmac
  have hlen : mac.length = macLength := by
    rw [hmac, List.length_take, hmacSHA256_length]
    rfl
  have hsplit : (body ++ mac).length - macLength = body.length := by
    rw [List.length_append, hlen, Nat.add_sub_cancel]
  have hlong : ¬ (body ++ mac).length < macLength := by
    rw [List.length_append, hlen]
    exact not_lt.mpr (Nat.le_add_left _ _)
  rw [SignalMessage.verifyMAC, if_neg hlong]
  dsimp only
  rw [hsplit, List.take_left, List.drop_left, computeSignalMessageMAC, if_neg (not_not.mpr hkey), ok_bind,
    ← hmac, beq_self_eq_true]
  rfl

end

structure PreKeySignalMessagePB where
  registrationId : Option UInt32
  preKeyId : Option UInt32
  signedPreKeyId : Option UInt32
  kyberPreKeyId : Option UInt32
  kyberCiphertext : Option Bytes
  baseKey : Option Bytes
  identityKey : Option Bytes
  message : Option Bytes
deriving DecidableEq, Repr, Countable

structure PreKeySignalMessage where
  messageVersion : UInt8
  registrationID : UInt32
  preKeyID : Option UInt32
  signedPreKeyID : UInt32
  kyberPreKeyID : Option UInt32
  kyberCiphertext : Bytes
  baseKey : PublicKey
  identityKey : PublicKey
  message : SignalMessage
  serialized : Bytes
deriving DecidableEq, Repr

section
variable [Wire PreKeySignalMessagePB]

/-- Wrap a message; its error for a missing message does not arise. -/
def newPreKeySignalMessage (messageVersion : UInt8) (registrationID : UInt32) (preKeyID : Option UInt32)
    (signedPreKeyID : UInt32) (kyberPreKeyID : Option UInt32) (kyberCiphertext : Bytes)
    (baseKey identityKey : PublicKey) (message : SignalMessage) : PreKeySignalMessage :=
  { messageVersion := messageVersion, registrationID := registrationID, preKeyID := preKeyID,
    signedPreKeyID := signedPreKeyID, kyberPreKeyID := kyberPreKeyID, kyberCiphertext := kyberCiphertext,
    baseKey := baseKey, identityKey := identityKey, message := message,
    serialized := encodeVersionByte messageVersion currentVersion ::
      marshal ({ registrationId := some registrationID, preKeyId := preKeyID,
                 signedPreKeyId := some signedPreKeyID, kyberPreKeyId := kyberPreKeyID,
                 kyberCiphertext := copyBytes kyberCiphertext, baseKey := some baseKey.serialize,
                 identityKey := some identityKey.serialize,
                 message := some message.serialized } : PreKeySignalMessagePB) }

omit [Wire PreKeySignalMessagePB] in
def checkKyberPayload (version : UInt8) : Option UInt32 → Option Bytes → Except ProtocolErr Unit
  | some _, some _ => .ok ()
  | none, none => if version > preKyberVersion then .error .kyberPreKeyMissing else .ok ()
  | _, _ => .error .kyberBothOrNeither

def deserializePreKeySignalMessage [Wire SignalMessagePB] (value : Bytes) :
    Except ProtocolErr PreKeySignalMessage :=
  if value.length = 0 then .error (.ciphertextTooShort 0)
  else do
    let version ← decodeVersion (value.getD 0 0)
    let pb ← required (unmarshal (α := PreKeySignalMessagePB) (value.drop 1))
    let baseKeyBytes ← required pb.baseKey
    let identityKeyBytes ← required pb.identityKey
    let message ← required pb.message
    let signedPreKeyID ← required pb.signedPreKeyId
    let baseKey ← (deserializePublicKey baseKeyBytes).mapError .invalidKey
    let identityKey ← (deserializePublicKey identityKeyBytes).mapError .invalidKey
    checkKyberPayload version pb.kyberPreKeyId pb.kyberCiphertext
    let inner ← deserializeSignalMessage message
    return { messageVersion := version, registrationID := pb.registrationId.getD 0,
             preKeyID := pb.preKeyId, signedPreKeyID := signedPreKeyID,
             kyberPreKeyID := pb.kyberPreKeyId, kyberCiphertext := pb.kyberCiphertext.getD [],
             baseKey := baseKey, identityKey := identityKey, message := inner, serialized := value }

end

end LibSignal.Protocol
