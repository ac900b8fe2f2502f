import LibSignal.Protocol.SignalMessage

/-!
# What the parsers accept

Each wire message has a constructor and a parser.
-/

namespace LibSignal.Protocol
open Chunked (Bytes)
open Crypto Curve Proto Lib

def SessionVersion (v : UInt8) : Prop := v = preKyberVersion ∨ v = currentVersion

lemma decodeVersion_encode {v : UInt8} (h : SessionVersion v) :
    decodeVersion (encodeVersionByte v currentVersion) = .ok v := by
  rcases h with rfl | rfl <;> decide

lemma copyBytes_of_ne {b : Bytes} (h : b ≠ []) : copyBytes b = some b :=
  if_neg (mt List.length_eq_zero_iff.mp h)

lemma copyBytes_getD (b : Bytes) : (copyBytes b).getD [] = b := by
  by_cases h : b = []
  · rw [h]
    rfl
  · rw [copyBytes_of_ne h, Option.getD_some]

section
variable [Wire SignalMessagePB]

lemma deserializeSignalMessage_body {version : UInt8} (hversion : SessionVersion version)
    (ratchet : PublicKey) (counter previous : UInt32) {ciphertext : Bytes} (hct : ciphertext ≠ [])
    (pqRatchet addresses : Bytes) {mac : Bytes} (hmac : mac.length = macLength) :
    deserializeSignalMessage
      (versionedBody version ratchet counter previous ciphertext pqRatchet addresses ++ mac) =
      .ok ⟨version, ratchet, counter, previous, ciphertext, pqRatchet, addresses,
        versionedBody version ratchet counter previous ciphertext pqRatchet addresses ++ mac⟩ := by
  set body := versionedBody version ratchet counter previous ciphertext pqRatchet addresses with hbody
  have hlong : ¬ (body ++ mac).length < macLength + 1 := by
    rw [List.length_append, hmac, hbody, versionedBody, List.length_cons]
    omega
  have hhead : decodeVersion ((body ++ mac).getD 0 0) = .ok version := by
    rw [hbody, versionedBody, List.cons_append, List.getD_cons_zero]
    exact decodeVersion_encode hversion
  have htake : (body ++ mac).take ((body ++ mac).length - macLength) = body := by
    rw [List.length_append, hmac, Nat.add_sub_cancel]
    exact List.take_left
  rw [deserializeSignalMessage, if_neg hlong, hhead, ok_bind]
  dsimp only
  rw [htake, hbody, versionedBody, List.drop_one, List.tail_cons]
  simp only [unmarshal_marshal, required, ok_bind, copyBytes_of_ne hct, deserializePublicKey_serialize,
    copyBytes_getD]
  rfl

variable {m : SignalMessage}

lemma deserializeSignalMessage_serialized {value : Bytes} (h : deserializeSignalMessage value = .ok m) :
    m.serialized = value := by
  rw [deserializeSignalMessage] at h
  split at h
  · cases h
  · obtain ⟨_, _, h⟩ := bind_eq_ok h
    obtain ⟨_, _, h⟩ := bind_eq_ok h
    obtain ⟨_, _, h⟩ := bind_eq_ok h
    obtain ⟨_, _, h⟩ := bind_eq_ok h
    obtain ⟨_, _, h⟩ := bind_eq_ok h
    obtain ⟨_, _, h⟩ := bind_eq_ok h
    cases h
    rfl

variable [Hash]

lemma deserializeSignalMessage_new {version : UInt8} (hversion : SessionVersion version)
    {macKey ciphertext pqRatchet addresses : Bytes} (hct : ciphertext ≠ [])
    {ratchet sender receiver : PublicKey} {counter previous : UInt32}
    (h : newSignalMessage version macKey ratchet counter previous ciphertext sender receiver pqRatchet
      addresses = .ok m) : deserializeSignalMessage m.serialized = .ok m := by
  obtain ⟨_, rfl⟩ := newSignalMessage_inv h
  refine deserializeSignalMessage_body hversion ratchet counter previous hct pqRatchet addresses ?_
  rw [List.length_take, hmacSHA256_length]
  rfl

inductive SignalMessage.Made : SignalMessage → Prop
  | built {version : UInt8} {macKey ciphertext pqRatchet addresses : Bytes}
      {ratchet sender receiver : PublicKey} {counter previous : UInt32} {m : SignalMessage}
      (hversion : SessionVersion version) (hct : ciphertext ≠ [])
      (h : newSignalMessage version macKey ratchet counter previous ciphertext sender receiver pqRatchet
        addresses = .ok m) : Made m
  | parsed {value : Bytes} {m : SignalMessage} (h : deserializeSignalMessage value = .ok m) : Made m

lemma SignalMessage.Made.deserialize (h : m.Made) : deserializeSignalMessage m.serialized = .ok m := by
  cases h with
  | built hversion hct h => exact deserializeSignalMessage_new hversion hct h
  | parsed h => rw [deserializeSignalMessage_serialized h, h]

end

/-- The Kyber arguments form a payload, or there is none and the version needs none. -/
def KyberArguments (version : UInt8) (kyberPreKeyID : Option UInt32) (kyberCiphertext : Bytes) : Prop :=
  (kyberPreKeyID.isSome ∧ kyberCiphertext ≠ []) ∨
    (kyberPreKeyID = none ∧ kyberCiphertext = [] ∧ version = preKyberVersion)

lemma checkKyberPayload_copy {version : UInt8} (hversion : SessionVersion version) (id : Option UInt32)
    (ciphertext : Bytes) :
    checkKyberPayload version id (copyBytes ciphertext) = .ok () ↔ KyberArguments version id ciphertext := by
  by_cases hct : ciphertext = []
  · subst hct
    cases id with
    | none =>
      rcases hversion with rfl | rfl
      · exact ⟨fun _ => .inr ⟨rfl, rfl, rfl⟩, fun _ => rfl⟩
      · exact ⟨nofun, nofun⟩
    | some id => exact ⟨nofun, nofun⟩
  · rw [copyBytes_of_ne hct]
    cases id with
    | none => exact ⟨nofun, fun h => h.elim nofun fun h => absurd h.2.1 hct⟩
    | some id => exact ⟨fun _ => .inl ⟨rfl, hct⟩, fun _ => rfl⟩

section
variable [Wire SignalMessagePB] [Wire PreKeySignalMessagePB]
variable {version : UInt8} {registrationID signedPreKeyID : UInt32} {preKeyID kyberPreKeyID : Option UInt32}
  {kyberCiphertext : Bytes} {baseKey identityKey : PublicKey} {message : SignalMessage}

lemma deserializePreKeySignalMessage_built (hversion : SessionVersion version)
    (hmessage : deserializeSignalMessage message.serialized = .ok message) :
    deserializePreKeySignalMessage (newPreKeySignalMessage version registrationID preKeyID signedPreKeyID
        kyberPreKeyID kyberCiphertext baseKey identityKey message).serialized =
      (checkKyberPayload version kyberPreKeyID (copyBytes kyberCiphertext)).bind fun _ =>
        .ok (newPreKeySignalMessage version registrationID preKeyID signedPreKeyID kyberPreKeyID
          kyberCiphertext baseKey identityKey message) := by
  rw [deserializePreKeySignalMessage, newPreKeySignalMessage, if_neg (by simp)]
  dsimp only
  rw [List.getD_cons_zero, decodeVersion_encode hversion, ok_bind, List.drop_one, List.tail_cons]
  simp only [unmarshal_marshal, required, ok_bind, deserializePublicKey_serialize, hmessage, copyBytes_getD]
  rfl

lemma deserializePreKeySignalMessage_new (hversion : SessionVersion version)
    (hmessage : deserializeSignalMessage message.serialized = .ok message)
    (hkyber : KyberArguments version kyberPreKeyID kyberCiphertext) :
    deserializePreKeySignalMessage (newPreKeySignalMessage version registrationID preKeyID signedPreKeyID
        kyberPreKeyID kyberCiphertext baseKey identityKey message).serialized =
      .ok (newPreKeySignalMessage version registrationID preKeyID signedPreKeyID kyberPreKeyID
        kyberCiphertext baseKey identityKey message) := by
  rw [deserializePreKeySignalMessage_built hversion hmessage, (checkKyberPayload_copy hversion _ _).mpr hkyber]
  rfl

lemma deserializePreKeySignalMessage_refused (hversion : SessionVersion version)
    (hmessage : deserializeSignalMessage message.serialized = .ok message)
    (hkyber : ¬ KyberArguments version kyberPreKeyID kyberCiphertext) :
    ∃ e, deserializePreKeySignalMessage (newPreKeySignalMessage version registrationID preKeyID
      signedPreKeyID kyberPreKeyID kyberCiphertext baseKey identityKey message).serialized = .error e := by
  rw [deserializePreKeySignalMessage_built hversion hmessage]
  cases h : checkKyberPayload version kyberPreKeyID (copyBytes kyberCiphertext) with
  | ok u => exact absurd ((checkKyberPayload_copy hversion _ _).mp h) hkyber
  | error e => exact ⟨e, rfl⟩

end

def SenderKeyDistributionMessagePB.fieldBytes (pb : SenderKeyDistributionMessagePB) : Nat :=
  (pb.distributionUuid.getD []).length + (pb.chainKey.getD []).length + (pb.signingKey.getD []).length

section
variable [Wire SenderKeyDistributionMessagePB]

/-- The encoding of an announcement holds the bytes of its fields. -/
def HoldsFields : Prop :=
  ∀ pb : SenderKeyDistributionMessagePB, pb.fieldBytes ≤ (marshal pb).length

variable {distributionID : DistributionID} {chainID iteration : UInt32} {chainKey : Option Bytes}
  {signingKey : PublicKey}

lemma deserializeSenderKeyDistributionMessage_new (hfields : HoldsFields)
    (hkey : (chainKey.getD []).length = chainKeyLen) :
    deserializeSenderKeyDistributionMessage (newSenderKeyDistributionMessage distributionID chainID
        iteration chainKey signingKey).serialized =
      .ok (newSenderKeyDistributionMessage distributionID chainID iteration chainKey signingKey) := by
  obtain ⟨key, rfl⟩ : ∃ key, chainKey = some key := by
    cases chainKey with
    | none => cases hkey
    | some key => exact ⟨key, rfl⟩
  rw [Option.getD_some] at hkey
  have hlong := hfields ⟨some distributionID.bytes, some chainID, some iteration, some key,
    some signingKey.serialize⟩
  rw [SenderKeyDistributionMessagePB.fieldBytes, Option.getD_some, Option.getD_some, Option.getD_some,
    distributionID.length_bytes, hkey, signingKey.length_serialize] at hlong
  have hshort : ¬ (newSenderKeyDistributionMessage distributionID chainID iteration (some key)
      signingKey).serialized.length < 1 + chainKeyLen + chainKeyLen := by
    rw [newSenderKeyDistributionMessage, List.length_cons, chainKeyLen]
    rw [uuidLen, chainKeyLen] at hlong
    omega
  have hlengths : ¬ (key.length ≠ chainKeyLen ∨ signingKey.serialize.length ≠ serializedPublicKeyLen) := by
    rw [hkey, signingKey.length_serialize]
    exact fun h => h.elim (fun h => h rfl) fun h => h rfl
  have hversion : senderKeyVersion (encodeVersionByte senderKeyCurrentVersion senderKeyCurrentVersion) =
      .ok senderKeyCurrentVersion := by decide
  rw [deserializeSenderKeyDistributionMessage, if_neg hshort, newSenderKeyDistributionMessage]
  dsimp only
  rw [List.getD_cons_zero, hversion, ok_bind, List.drop_one, List.tail_cons]
  simp only [unmarshal_marshal, required, ok_bind, distributionIDOf_bytes, deserializePublicKey_serialize]
  rw [if_neg hlengths]
  rfl

lemma chainKey_of_deserialize {m : SenderKeyDistributionMessage}
    (h : deserializeSenderKeyDistributionMessage (newSenderKeyDistributionMessage distributionID chainID
      iteration chainKey signingKey).serialized = .ok m) : (chainKey.getD []).length = chainKeyLen := by
  rw [deserializeSenderKeyDistributionMessage] at h
  split at h
  · cases h
  · obtain ⟨_, _, h⟩ := bind_eq_ok h
    obtain ⟨pb, hpb, h⟩ := bind_eq_ok h
    rw [newSenderKeyDistributionMessage, List.drop_one, List.tail_cons, unmarshal_marshal] at hpb
    cases hpb
    obtain ⟨_, _, h⟩ := bind_eq_ok h
    obtain ⟨_, _, h⟩ := bind_eq_ok h
    obtain ⟨_, _, h⟩ := bind_eq_ok h
    obtain ⟨key, hkey, h⟩ := bind_eq_ok h
    obtain ⟨_, _, h⟩ := bind_eq_ok h
    split at h
    · cases h
    · rename_i hlengths
      cases chainKey with
      | none => cases hkey
      | some key' =>
        cases hkey
        exact not_not.mp fun hne => hlengths (.inl hne)

end

/-! ## The round trips -/

section
variable [Hash] [XEdDSA] [X25519] [Wire SignalMessagePB] [Wire PreKeySignalMessagePB]
  [Wire SenderKeyMessagePB] [Wire SenderKeyDistributionMessagePB]

/-- What a constructor builds its parser returns as it was: a session message with a ciphertext, which also
authenticates; a pre-key message exactly when its Kyber arguments fit its version; a group message with a
ciphertext, which also verifies; and an announcement exactly when its chain key has the right length. -/
theorem constructors_parsed (hsign : XEdDSA.Complete) (hfields : HoldsFields) :
    (∀ version macKey ratchet counter previous ciphertext sender receiver pqRatchet addresses m,
      SessionVersion version → ciphertext ≠ [] →
      newSignalMessage version macKey ratchet counter previous ciphertext sender receiver pqRatchet
        addresses = .ok m →
      deserializeSignalMessage m.serialized = .ok m ∧ m.verifyMAC sender receiver macKey = .ok true) ∧
    (∀ version registrationID preKeyID signedPreKeyID kyberPreKeyID kyberCiphertext baseKey identityKey
        message m, SessionVersion version → message.Made →
      newPreKeySignalMessage version registrationID preKeyID signedPreKeyID kyberPreKeyID kyberCiphertext
        baseKey identityKey message = m → (KyberArguments version kyberPreKeyID kyberCiphertext →
        deserializePreKeySignalMessage m.serialized = .ok m) ∧
      (¬ KyberArguments version kyberPreKeyID kyberCiphertext →
        ∃ e, deserializePreKeySignalMessage m.serialized = .error e)) ∧
    (∀ distributionID chainID iteration ciphertext rng k m, KeyPair.Valid k →
      newSenderKeyMessage distributionID chainID iteration (some ciphertext) rng k.privateKey = .ok m →
      deserializeSenderKeyMessage m.serialized = .ok m ∧ m.verifySignature k.publicKey = true) ∧
    ∀ distributionID chainID iteration chainKey signingKey m,
      newSenderKeyDistributionMessage distributionID chainID iteration chainKey signingKey = m →
      ((chainKey.getD []).length = chainKeyLen → deserializeSenderKeyDistributionMessage m.serialized = .ok m) ∧
      ((chainKey.getD []).length ≠ chainKeyLen →
        ∃ e, deserializeSenderKeyDistributionMessage m.serialized = .error e) := by
  refine ⟨?_, ?_, ?_, ?_⟩
  · intro version macKey ratchet counter previous ciphertext sender receiver pqRatchet addresses m hversion
      hct h
    exact ⟨deserializeSignalMessage_new hversion hct h, verifyMAC_new h⟩
  · rintro version registrationID preKeyID signedPreKeyID kyberPreKeyID kyberCiphertext baseKey identityKey
      message m hversion hmade rfl
    exact ⟨deserializePreKeySignalMessage_new hversion hmade.deserialize,
      deserializePreKeySignalMessage_refused hversion hmade.deserialize⟩
  · intro distributionID chainID iteration ciphertext rng k m hk h
    exact ⟨deserializeSenderKeyMessage_new h, verifySignature_new hsign hk h⟩
  · rintro distributionID chainID iteration chainKey signingKey m rfl
    refine ⟨deserializeSenderKeyDistributionMessage_new hfields, fun hne => ?_⟩
    cases h : deserializeSenderKeyDistributionMessage (newSenderKeyDistributionMessage distributionID
        chainID iteration chainKey signingKey).serialized with
    | ok m => exact absurd (chainKey_of_deserialize h) hne
    | error e => exact ⟨e, rfl⟩

end

def sampleDistribution : DistributionID := ⟨zeros 16, length_zeros_16⟩

def sampleKey : PublicKey := ⟨.djb, zeros 32, length_zeros_32⟩

/-- The theorem on the announcement of a chain. -/
theorem constructors_parsed_announcement :
    ∃ m, @newSenderKeyDistributionMessage (paddedWire SenderKeyDistributionMessagePB.fieldBytes)
        sampleDistribution 7 0 (some (zeros 32)) sampleKey = m ∧
      @deserializeSenderKeyDistributionMessage (paddedWire SenderKeyDistributionMessagePB.fieldBytes)
        m.serialized = .ok m := by
  let _ := zeroHash
  let _ := zeroXEdDSA
  let _ := oneX25519
  let _ := unaryWire SignalMessagePB
  let _ := unaryWire PreKeySignalMessagePB
  let _ := unaryWire SenderKeyMessagePB
  let _ := paddedWire SenderKeyDistributionMessagePB.fieldBytes
  obtain ⟨_, _, _, hannounced⟩ := constructors_parsed (fun _ _ _ _ _ => rfl) (size_le_paddedWire _)
  exact ⟨_, rfl, (hannounced _ _ _ _ _ _ rfl).1 (length_zeros 32)⟩

/-- A pre-key message of the current version is built without a Kyber payload and refused by the parser. -/
theorem built_without_kyber : ∃ (message : SignalMessage) (m : PreKeySignalMessage),
    @newSignalMessage zeroHash (unaryWire _) 4 (zeros 32) sampleKey 0 0 [1] sampleKey sampleKey [] [] =
      .ok message ∧
    @newPreKeySignalMessage (unaryWire _) 4 1 none 2 none [] sampleKey sampleKey message = m ∧
    ∃ e, @deserializePreKeySignalMessage (unaryWire _) (unaryWire _) m.serialized = .error e := by
  let _ := zeroHash
  let _ := unaryWire SignalMessagePB
  let _ := unaryWire PreKeySignalMessagePB
  obtain ⟨message, hmessage⟩ := newSignalMessage_ok 4 sampleKey 0 0 [1] sampleKey sampleKey [] []
    (length_zeros 32)
  have hparsed := deserializeSignalMessage_new (.inr rfl) (List.cons_ne_nil _ _) hmessage
  exact ⟨message, _, hmessage, rfl, deserializePreKeySignalMessage_refused (.inr rfl) hparsed nofun⟩

end LibSignal.Protocol
